import MirCi.Robot.Match
import MirCi.Wayland.ScreencopyTracker

/-! `Screencopy`: a tracker that connects in its first keyword, and grabs the frames
it tracks. -/
namespace MirCi.Robot.Screencopy

open Python Semantics Effect Wayland Wayland.ScreencopyTracker

variable {X : Type}

/-- A mapping has at least one byte, so it is true. -/
def disconnect (closing : Closing FrameEvent) : Method (Self X) Unit := do
  when ((← get).attributes.shmData ≠ none) (methods.disconnect closing)

def connect (connecting : Connecting Copying) (closing : Closing FrameEvent) : Method (Self X) Unit := do
  when ((← get).attributes.shmData = none) (methods.connect (disconnect closing) connecting)

/-- What happens while screenshots are grabbed: the event loop gets a turn, or the frame of this
count is read. -/
inductive GrabEvent where
  | turn
  | grabbed (frameCount : ℕ)
  deriving DecidableEq, Repr

abbrev Watched (X : Type) := Noted GrabEvent (Self X)

/-- The answers to the calls of `grab_screenshot`. `turns` are those the event loop gets before
the timeout, should there be no frame yet; `image` stands for the making and saving of the image. -/
structure Grabbing where
  connecting : Connecting Copying
  closing : Closing FrameEvent
  turns : List (Dispatching FrameEvent) := []
  read : Option Exc := none
  image : Option Exc := none

/-- The loop for the first frame, in which the timeout can strike. -/
def waitForFrame : List (Dispatching FrameEvent) → Method (Watched X) Unit
  | [] => do
      when ((← get).self.attributes.frameCount = 0) (throw { cls := .timeoutError })
  | turn :: rest => do
      when ((← get).self.attributes.frameCount = 0) do
        note .turn
        onSelf (methods.turn turn)
        waitForFrame rest

def grabScreenshot (g : Grabbing) : Method (Watched X) ℕ := do
  onSelf (connect g.connecting g.closing)
  waitForFrame g.turns
  require ((← get).self.attributes.shmData ≠ none) "No SHM data available"
  outside g.read
  note (.grabbed (← get).self.attributes.frameCount)
  require (0 < (← get).self.attributes.bufferWidth ∧ 0 < (← get).self.attributes.bufferHeight)
    "Not enough image data"
  outside g.image
  return (← get).self.attributes.frameCount

/-- `asyncio.wait_for`: without any time the coroutine is cancelled before it starts, which takes
a turn of the event loop; else it is awaited in the calling task. -/
def waitFor {α : Type} (timeout : ℤ) (x : Method (Watched X) α) : Method (Watched X) α :=
  if timeout ≤ 0 then do
    note .turn
    throw { cls := .timeoutError }
  else x

def matcher (timeout : ℤ) (grabs : ℕ → Grabbing) : Matcher (Watched X) ℕ where
  start := pure ()
  grab i := waitFor timeout (grabScreenshot (grabs i))
  unchecked := 0
  fresh last frameCount := last ≠ frameCount

end MirCi.Robot.Screencopy
