import MirCi.Robot.Match
import MirCi.Robot.Pointer

/-! `Vnc`: the keywords over a VNC connection. Of `asyncvnc`'s client they use the
size of the screen, its screenshots and the mouse, whose state goes out whole in
every message. -/
namespace MirCi.Robot

open Python Semantics Effect

/-- `asyncvnc.Video`. -/
structure Video where
  width : ℤ
  height : ℤ
  deriving DecidableEq, Repr

/-- `asyncvnc.Mouse`. -/
structure Mouse where
  buttons : ℕ := 0
  x : ℤ := 0
  y : ℤ := 0
  deriving DecidableEq, Repr

/-- `asyncvnc.Client`, with the pointer messages it has sent. -/
structure VncClient where
  video : Video
  mouse : Mouse := {}
  sent : List Mouse := []
  deriving DecidableEq, Repr

structure Vnc where
  client : Option VncClient := none
  pointerPosition : Option Position := none
  deriving DecidableEq, Repr

namespace Vnc

variable {F : Type}

/-- The answers to the calls of one keyword. -/
structure Answers (F : Type) where
  openConnection : Option Exc := none
  create : Except Exc Video
  move : Option Exc := none
  /-- The steps of a walk, or the messages of a button keyword. -/
  write : ℕ → Option Exc := fun _ => none
  sleep : F → ℕ → Option Exc := fun _ _ => none

/-- Nothing raises once the client is connected. -/
structure Answers.Quiet (answers : Answers F) : Prop where
  move : answers.move = none
  write : ∀ k, answers.write k = none
  sleep : ∀ delay k, answers.sleep delay k = none

/-- The value of the button in `Button`. -/
def value : Button → ℕ
  | .left => 0
  | .right => 1
  | .middle => 2

def connect (answers : Answers F) : Method Vnc Unit := do
  when ((← get).client = none) do
    outside answers.openConnection
    let video ← compute answers.create
    modify fun v => { v with client := some { video } }

/-- `assert self._client is not None`. -/
def requireClient : Method Vnc Unit := do
  require ((← get).client ≠ none) "Client must be connected"

/-- Change the client's mouse. -/
def setMouse (f : Mouse → Mouse) : Method Vnc Unit :=
  modify fun v => { v with client := v.client.map fun c => { c with mouse := f c.mouse } }

/-- `mouse._write()`. -/
def write (raises : Option Exc) : Method Vnc Unit := do
  outside raises
  modify fun v => { v with client := v.client.map fun c => { c with sent := c.sent ++ [c.mouse] } }

/-- `mouse.move(x, y)`. -/
def mouseMove (x y : ℤ) (raises : Option Exc) : Method Vnc Unit := do
  setMouse fun mouse => { mouse with x, y }
  write raises

/-- `mouse.buttons |= 1 << b`. -/
def Mouse.hold (b : ℕ) (mouse : Mouse) : Mouse := { mouse with buttons := mouse.buttons ||| 1 <<< b }

/-- `mouse.buttons &= ~(1 << b)`. -/
def Mouse.letGo (b : ℕ) (mouse : Mouse) : Mouse :=
  { mouse with buttons := Nat.ldiff mouse.buttons (1 <<< b) }

/-- `mouse.click(b)`. -/
def mouseClick (b : ℕ) (write₀ write₁ : Option Exc) : Method Vnc Unit := do
  setMouse (Mouse.hold b)
  write write₀
  setMouse (Mouse.letGo b)
  write write₁

def setPosition (p : Position) (v : Vnc) : Vnc := { v with pointerPosition := some p }

section Arithmetic

variable (A : Arithmetic F)

def getAbsoluteFromProportional (x y : F) : Method Vnc Position := do
  requireClient
  let video := ((← get).client.map VncClient.video).getD ⟨0, 0⟩
  absoluteFromProportional A x y video.width video.height

def movePointerToAbsolute (p : Position) (answers : Answers F) : Method Vnc Unit := do
  connect answers
  requireClient
  mouseMove p.1 p.2 answers.move
  modify (setPosition p)

def movePointerToProportional (x y : F) (answers : Answers F) : Method Vnc Position := do
  connect answers
  let p ← getAbsoluteFromProportional A x y
  movePointerToAbsolute p answers
  return p

def hand (delay : F) (answers : Answers F) : Hand Vnc F where
  position v := v.pointerPosition
  setPosition
  origin := mouseMove 0 0 answers.move
  step k point := do
    let x ← compute (A.toInt point.1)
    let y ← compute (A.toInt point.2)
    mouseMove x y (answers.write k)
    outside (answers.sleep delay k)

def walkPointerToAbsolute (q : Position) (stepDistance : ℤ) (delay : F) (answers : Answers F) :
    Method Vnc Unit := do
  connect answers
  requireClient
  walk A (hand A delay answers) q stepDistance

def walkPointerToProportional (x y : F) (stepDistance : ℤ) (delay : F) (answers : Answers F) :
    Method Vnc Position := do
  connect answers
  let q ← getAbsoluteFromProportional A x y
  walkPointerToAbsolute A q stepDistance delay answers
  return q

/-- A move or walk keyword, and what it returns. -/
def call (answers : Answers F) : PointerCall F → Method Vnc (Option Position)
  | .moveToAbsolute p => do
      movePointerToAbsolute p answers
      return none
  | .moveToProportional x y => return some (← movePointerToProportional A x y answers)
  | .walkToAbsolute p stepDistance delay => do
      walkPointerToAbsolute A p stepDistance delay answers
      return none
  | .walkToProportional x y stepDistance delay =>
      return some (← walkPointerToProportional A x y stepDistance delay answers)

end Arithmetic

def pressPointerButton (name : String) (answers : Answers F) : Method Vnc Unit := do
  connect answers
  requireClient
  let b ← compute (Button.named name)
  setMouse (Mouse.hold (value b))
  write (answers.write 0)

def releasePointerButton (name : String) (answers : Answers F) : Method Vnc Unit := do
  connect answers
  requireClient
  let b ← compute (Button.named name)
  setMouse (Mouse.letGo (value b))
  write (answers.write 0)

def clickPointerButton (name : String) (answers : Answers F) : Method Vnc Unit := do
  connect answers
  requireClient
  let b ← compute (Button.named name)
  mouseClick (value b) (answers.write 0) (answers.write 1)

def releaseButtons (answers : Answers F) : Method Vnc Unit := do
  connect answers
  requireClient
  setMouse fun mouse => { mouse with buttons := 0 }
  write (answers.write 0)

/-- `asyncio.wait_for(self._client.screenshot(), timeout)`, and the making of the image. -/
def screenshot (timeout : ℤ) (raises : Option Exc) : Method Vnc Unit :=
  outside (if timeout ≤ 0 then some { cls := .timeoutError } else raises)

def matcher (timeout : ℤ) (answers : Answers F) (screenshots : ℕ → Option Exc) : Matcher Vnc Unit where
  start := do
    connect answers
    requireClient
  grab i := screenshot timeout (screenshots i)
  unchecked := ()
  fresh _ _ := true

/-! ### Motions -/

/-- The coordinates of the messages sent. -/
def motions (v : Vnc) : List Position :=
  (v.client.map fun c => c.sent.map fun mouse => (mouse.x, mouse.y)).getD []

/-- A connected client that takes the pointer to be here, and has sent these motions. -/
def At (position : Option Position) (sent : List Position) (v : Vnc) : Prop :=
  v.client ≠ none ∧ v.pointerPosition = position ∧ v.motions = sent

theorem triple_mouseMove {position : Option Position} {sent : List Position} (p : Position) :
    Triple (At position sent) (mouseMove p.1 p.2 none) (fun _ => At position (sent ++ [p]))
      fun _ => False := by
  intro v hAt
  cases hClient : v.client with
  | none => exact absurd hClient hAt.1
  | some client =>
      have hSent : client.sent.map (fun mouse => (mouse.x, mouse.y)) = sent := by
        simpa [motions, hClient] using hAt.2.2
      show At position (sent ++ [p]) _
      refine ⟨?_, hAt.2.1, ?_⟩
      · simp [hClient]
      · simp [motions, hClient, hSent]

/-! ### Connecting -/

section Connect

variable {answers : Answers F} {v v' : Vnc}

theorem connect_run_of_client (h : v.client ≠ none) : (connect answers).run v = .ok () v := by
  change (when (v.client = none) _).run v = _
  rw [when, if_neg h]
  rfl

/-- A client that connected was connected before, or is new. -/
theorem connect_ok (h : (connect answers).run v = .ok () v') :
    v' = v ∧ v.client ≠ none ∨
      v.client = none ∧ ∃ video, v' = { v with client := some { video } } := by
  by_cases hClient : v.client = none
  · change (when (v.client = none) _).run v = _ at h
    rw [when, if_pos hClient] at h
    obtain ⟨_, _, hOpen, h⟩ := run_bind_ok.mp h
    obtain ⟨-, rfl⟩ := outside_run_ok.mp hOpen
    obtain ⟨video, _, hCreate, h⟩ := run_bind_ok.mp h
    obtain ⟨-, rfl⟩ := compute_run_ok.mp hCreate
    cases h
    exact Or.inr ⟨hClient, video, rfl⟩
  · rw [connect_run_of_client hClient] at h
    cases h
    exact Or.inl ⟨rfl, hClient⟩

theorem client_of_connect (h : (connect answers).run v = .ok () v') : v'.client ≠ none := by
  rcases connect_ok h with ⟨rfl, hClient⟩ | ⟨-, video, rfl⟩
  · exact hClient
  · simp

theorem requireClient_run_of_client (h : v.client ≠ none) : requireClient.run v = .ok () v := by
  change (require (v.client ≠ none) _).run v = _
  rw [require, if_pos h]
  rfl

theorem call_run_of_connect (A : Arithmetic F) (h : (connect answers).run v = .ok () v')
    (k : PointerCall F) : (call A answers k).run v = (call A answers k).run v' := by
  have hClient : v'.client ≠ none := client_of_connect h
  have hFirst {α : Type} (f : Unit → Method Vnc α) :
      (connect answers >>= f).run v = (connect answers >>= f).run v' := by
    rw [EStateM.run_bind, EStateM.run_bind, h, connect_run_of_client hClient]
  cases k <;> simp only [call, movePointerToAbsolute, movePointerToProportional,
    walkPointerToAbsolute, walkPointerToProportional, bind_assoc, hFirst]

end Connect

end Vnc

end MirCi.Robot
