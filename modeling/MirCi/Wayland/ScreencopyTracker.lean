import MirCi.Python.Double
import MirCi.Wayland.Client

/-! `ScreencopyTracker`: frames are captured one after the other, and the handlers
of their events keep the counts. A subclass's own attributes are a parameter. -/
namespace MirCi.Wayland

open Python Semantics Effect

/-- What `mmap.mmap` returns: the mapping of a buffer. -/
structure Mapping where
  connection : Option ℕ
  length : ℕ
  deriving DecidableEq, Repr

/-- A `wl_buffer` with the geometry `create_buffer` gave it. -/
structure Buffer where
  proxy : Proxy
  width : ℕ
  height : ℕ
  stride : ℕ
  format : ℕ
  deriving DecidableEq, Repr

structure ScreencopyTracker (X : Type) where
  screencopyManager : Option Proxy := none
  output : Option Proxy := none
  shm : Option Proxy := none
  frame : Option Proxy := none
  frameFlags : ℕ := 0
  buffer : Option Buffer := none
  shmData : Option Mapping := none
  frameCount : ℕ := 0
  totalDamage : ℕ := 0
  bufferWidth : ℕ := 0
  bufferHeight : ℕ := 0
  bufferSize : ℕ := 0
  bufferStride : ℕ := 0
  pendingDamage : ℕ := 0
  pendingFlags : ℕ := 0
  /-- The module's `shm_counter`. -/
  shmCounter : ℕ := 0
  extra : X

/-- What `shm_open` and `shm_unlink` of the C library return. -/
structure ShmOpen where
  pid : ℕ
  openResult : ℤ
  unlinkResult : ℤ
  strerror : String

/-- The event `buffer` of a frame, and the answers to the calls that map it. -/
structure BufferEvent where
  format : ℕ
  width : ℕ
  height : ℕ
  stride : ℕ
  shmOpen : ShmOpen
  ftruncate : Option Exc := none
  mmap : Option Exc := none
  createPool : Option Exc := none
  createBuffer : Option Exc := none
  destroy : Option Exc := none

/-- The events that arrive for a frame before its copy is requested. -/
inductive EarlyEvent where
  | global (event : Global)
  | buffer (event : BufferEvent)

/-- The answers to the calls of `copy_frame`. -/
structure Copying where
  destroy : Option Exc := none
  captureOutput : Option Exc := none
  roundtrip : Reply EarlyEvent := {}
  copy : Option Exc := none
  flush : Option Exc := none

inductive FrameEvent where
  | early (event : EarlyEvent)
  | damage (x y width height : ℕ)
  | flags (flags : ℕ)
  | ready (tvSecHi tvSecLo tvNsec : ℕ) (copying : Copying) (flush : Option Exc)

namespace ScreencopyTracker

variable {X : Type}

abbrev Self (X : Type) := Client (ScreencopyTracker X)

def registryGlobal (g : Global) : Method (Self X) Unit := do
  if g.ifaceName = "zwlr_screencopy_manager_v1" then
    let manager ← create g.bind
    assign fun a => { a with screencopyManager := some manager }
  else if g.ifaceName = "wl_output" then
    let output ← create g.bind
    assign fun a => { a with output := some output }
  else if g.ifaceName = "wl_shm" then
    let shm ← create g.bind
    assign fun a => { a with shm := some shm }

/-- `shm_open`. The file is unlinked at once. -/
def shmOpen (answer : ShmOpen) : Method (Self X) Unit := do
  assign fun a => { a with shmCounter := a.shmCounter + 1 }
  let name := s!"/frame-test-{answer.pid}-{(← get).attributes.shmCounter}"
  require (0 ≤ answer.openResult)
    s!"Error {answer.openResult} opening SHM file {name}: {answer.strerror}"
  require (0 ≤ answer.unlinkResult)
    s!"Error {answer.unlinkResult} unlinking SHM file {name}: {answer.strerror}"

/-- The assertions on the geometry, each after the fields before it were assigned. -/
def checkBuffer (width height stride : ℕ) : Method (Self X) Unit := do
  let a := (← get).attributes
  require (a.bufferWidth = 0 ∨ a.bufferWidth = width) "Buffer width changed"
  assign fun a => { a with bufferWidth := width }
  require (a.bufferHeight = 0 ∨ a.bufferHeight = height) "Buffer height changed"
  assign fun a => { a with bufferHeight := height, bufferStride := stride }
  require (a.bufferSize = 0 ∨ a.bufferSize = stride * height) "Buffer size changed"
  assign fun a => { a with bufferSize := stride * height }

/-- `self.shm_data = mmap.mmap(fd, length)`. A mapping of no bytes is refused. -/
def mmap (length : ℕ) (raises : Option Exc) : Method (Self X) Unit := do
  outside raises
  outside (if length = 0 then some { cls := .valueError, text := "cannot mmap an empty file" } else none)
  modify fun c => { c with attributes := { c.attributes with
    shmData := some ⟨c.display.current, length⟩ } }

/-- The body of `if self.buffer is None`. -/
def mapBuffer (b : BufferEvent) : Method (Self X) Unit := do
  require ((← get).attributes.shm ≠ none) "SHM not created"
  shmOpen b.shmOpen
  outside b.ftruncate
  mmap (b.stride * b.height) b.mmap
  let _ ← create b.createPool
  let buffer ← create b.createBuffer
  assign fun a => { a with buffer := some ⟨buffer, b.width, b.height, b.stride, b.format⟩ }
  outside b.destroy

def frameBuffer (b : BufferEvent) : Method (Self X) Unit := do
  checkBuffer b.width b.height b.stride
  when ((← get).attributes.buffer = none) (mapBuffer b)

def frameDamage (_x _y width height : ℕ) : Method (Self X) Unit :=
  assign fun a => { a with pendingDamage := a.pendingDamage + width * height }

/-- `FRAME_FLAGS` is an `IntFlag`: it takes any integer. -/
def frameFlagsEvent (flags : ℕ) : Method (Self X) Unit :=
  assign fun a => { a with pendingFlags := flags }

def handleEarly : EarlyEvent → Method (Self X) Unit
  | .global g => registryGlobal g
  | .buffer b => frameBuffer b

/-- `copy_frame`. `copy` and `copy_with_damage` are requests alike. Whether the binding refuses to destroy
the frame of a closed connection is for the answers to say. -/
def copyFrame (answers : Copying) : Method (Self X) Unit := do
  require ((← get).attributes.screencopyManager ≠ none)
    "zwlr_screencopy_manager_v1 not supported"
  when ((← get).attributes.frame ≠ none) (outside answers.destroy)
  let frame ← create answers.captureOutput
  assign fun a => { a with frame := some frame }
  receive handleEarly answers.roundtrip
  require ((← get).attributes.buffer ≠ none) "No buffer info given"
  outside answers.copy
  outside answers.flush

/-- The counting of `_frame_ready`, before anything in it can raise. -/
def countFrame (a : ScreencopyTracker X) : ScreencopyTracker X :=
  { a with
    frameCount := a.frameCount + 1
    frameFlags := a.pendingFlags
    pendingFlags := 0
    totalDamage := a.totalDamage +
      if a.pendingDamage ≠ 0 then a.pendingDamage else a.bufferWidth * a.bufferHeight
    pendingDamage := 0 }

/-- The rest of `_frame_ready`: the next frame is asked for. -/
def requestFrame (copying : Copying) (flush : Option Exc) : Method (Self X) Unit := do
  require ((← get).attributes.frame ≠ none) "Frame is None"
  copyFrame copying
  outside flush

def frameReady (copying : Copying) (flush : Option Exc) : Method (Self X) Unit := do
  assign countFrame
  requestFrame copying flush

def handle : FrameEvent → Method (Self X) Unit
  | .early event => handleEarly event
  | .damage x y width height => frameDamage x y width height
  | .flags flags => frameFlagsEvent flags
  | .ready _ _ _ copying flush => frameReady copying flush

def connected (answers : Copying) : Method (Self X) Unit := copyFrame answers

def disconnected : Method (Self X) Unit := assign fun a => { a with shmData := none }

def methods : Methods (ScreencopyTracker X) FrameEvent Copying where
  registryGlobal
  handle
  connected
  disconnected

/-- The dictionary `properties` returns. -/
structure Properties where
  frameCount : ℕ
  resolution : ℕ × ℕ
  totalDamage : ℕ
  percentDamage : Double

/-- `total_damage * 100.0 / total_possible_pixels`. -/
def percentDamage (totalDamage totalPossiblePixels : ℕ) : Except Exc Double := do
  let damage ← Double.ofInt totalDamage
  let hundred ← Double.ofInt 100
  let pixels ← Double.ofInt totalPossiblePixels
  (damage.mul hundred).div pixels

def properties (a : ScreencopyTracker X) : Except Exc Properties := do
  let totalPossiblePixels :=
    max (max (a.frameCount * a.bufferWidth * a.bufferHeight) a.totalDamage) 1
  let percent ← percentDamage a.totalDamage totalPossiblePixels
  return { frameCount := a.frameCount, resolution := (a.bufferWidth, a.bufferHeight),
           totalDamage := a.totalDamage, percentDamage := percent }

theorem throws_copyFrame {P : Exc → Prop} {answers : Copying}
    (hAssert : ∀ text, P { cls := .assertionError, text }) (hDestroy : ∀ e ∈ answers.destroy, P e)
    (hCapture : ∀ e ∈ answers.captureOutput, P e) (hRoundtrip : ∀ e ∈ answers.roundtrip.raises, P e)
    (hCopy : ∀ e ∈ answers.copy, P e) (hFlush : ∀ e ∈ answers.flush, P e) :
    Throws P (copyFrame answers : Method (Self X) Unit) := by
  refine throws_get_bind fun _ => throws_bind (throws_require (hAssert _)) fun _ => ?_
  refine throws_get_bind fun _ => throws_bind (throws_when fun _ => throws_outside hDestroy) fun _ => ?_
  refine throws_bind (throws_create hCapture) fun _ => throws_bind (throws_modify _) fun _ => ?_
  refine throws_bind (throws_receive hRoundtrip) fun _ => throws_get_bind fun _ => ?_
  refine throws_bind (throws_require (hAssert _)) fun _ => ?_
  exact throws_bind (throws_outside hCopy) fun _ => throws_outside hFlush

/-! ### What the handlers leave alone -/

/-- What only damage, flags and ready events change. -/
structure Counters where
  frameCount : ℕ
  totalDamage : ℕ
  pendingDamage : ℕ
  frameFlags : ℕ
  pendingFlags : ℕ
  deriving DecidableEq

def counters (a : ScreencopyTracker X) : Counters where
  frameCount := a.frameCount
  totalDamage := a.totalDamage
  pendingDamage := a.pendingDamage
  frameFlags := a.frameFlags
  pendingFlags := a.pendingFlags

section Keeps

variable {P : Self X → Prop}

/-- What the events of a frame leave alone, its buffer and its capture included. -/
structure Capturing (P : Self X → Prop) : Prop extends Unaffected P where
  manager : ∀ c proxy, P c → P { c with attributes := { c.attributes with screencopyManager := proxy } }
  output : ∀ c proxy, P c → P { c with attributes := { c.attributes with output := proxy } }
  shm : ∀ c proxy, P c → P { c with attributes := { c.attributes with shm := proxy } }
  frameBuffer : ∀ b, Keeps P (frameBuffer b)
  capture : ∀ raises, Keeps P (create raises >>= fun frame => assign fun a => { a with frame := some frame })

namespace Capturing

variable (hP : Capturing P)
include hP

theorem registryGlobal (event : Global) : Keeps P (registryGlobal event) := by
  refine keeps_ite (fun _ => ?_) fun _ => keeps_ite (fun _ => ?_) fun _ => keeps_ite (fun _ => ?_)
    fun _ => keeps_pure ()
  · exact keeps_bind hP.create fun _ => keeps_assign fun c => hP.manager c _
  · exact keeps_bind hP.create fun _ => keeps_assign fun c => hP.output c _
  · exact keeps_bind hP.create fun _ => keeps_assign fun c => hP.shm c _

theorem handleEarly (event : EarlyEvent) : Keeps P (handleEarly event) := by
  cases event with
  | global event => exact hP.registryGlobal event
  | buffer b => exact hP.frameBuffer b

theorem copyFrame (answers : Copying) : Keeps P (copyFrame answers) := by
  refine keeps_get_bind fun _ => keeps_bind keeps_require fun _ => keeps_get_bind fun _ => ?_
  refine keeps_bind (keeps_when keeps_outside) fun _ => ?_
  rw [← bind_assoc]
  refine keeps_bind (hP.capture _) fun _ => ?_
  refine keeps_bind (hP.receive fun event _ => hP.handleEarly event) fun _ => keeps_get_bind fun _ => ?_
  exact keeps_bind keeps_require fun _ => keeps_bind keeps_outside fun _ => keeps_outside

theorem requestFrame (copying : Copying) (flush : Option Exc) : Keeps P (requestFrame copying flush) := by
  refine keeps_get_bind fun _ => keeps_bind keeps_require fun _ => ?_
  exact keeps_bind (hP.copyFrame copying) fun _ => keeps_outside

/-- What the counters do not matter to either is kept by every event. -/
theorem handle
    (h : ∀ c frameFlags frameCount totalDamage pendingDamage pendingFlags, P c →
      P { c with attributes := { c.attributes with
        frameFlags := frameFlags, frameCount := frameCount, totalDamage := totalDamage
        pendingDamage := pendingDamage, pendingFlags := pendingFlags } })
    (event : FrameEvent) : Keeps P (handle event) := by
  cases event with
  | early event => exact hP.handleEarly event
  | damage _ _ _ _ =>
      rw [ScreencopyTracker.handle, frameDamage]
      exact keeps_assign fun c => h c _ _ _ _ _
  | flags _ =>
      rw [ScreencopyTracker.handle, frameFlagsEvent]
      exact keeps_assign fun c => h c _ _ _ _ _
  | ready _ _ _ copying flush =>
      exact keeps_bind (keeps_assign fun c => h c _ _ _ _ _) fun _ =>
        hP.requestFrame copying flush

end Capturing

/-- What capturing a frame leaves alone, the assertions on its geometry included. -/
structure Uncaptured (P : Self X → Prop) : Prop extends Unaffected P where
  manager : ∀ c proxy, P c → P { c with attributes := { c.attributes with screencopyManager := proxy } }
  output : ∀ c proxy, P c → P { c with attributes := { c.attributes with output := proxy } }
  shm : ∀ c proxy, P c → P { c with attributes := { c.attributes with shm := proxy } }
  frame : ∀ c proxy, P c → P { c with attributes := { c.attributes with frame := proxy } }
  buffer : ∀ c buffer, P c → P { c with attributes := { c.attributes with buffer := buffer } }
  shmData : ∀ c mapping, P c → P { c with attributes := { c.attributes with shmData := mapping } }
  shmCounter : ∀ c n, P c → P { c with attributes := { c.attributes with shmCounter := n } }
  checkBuffer : ∀ width height stride, Keeps P (checkBuffer width height stride)

theorem keeps_checkBuffer
    (h : ∀ c width height stride size, P c → P { c with attributes := { c.attributes with
      bufferWidth := width, bufferHeight := height, bufferStride := stride, bufferSize := size } })
    (width height stride : ℕ) : Keeps P (checkBuffer width height stride) := by
  refine keeps_get_bind fun _ => keeps_bind keeps_require fun _ => ?_
  refine keeps_bind (keeps_assign fun c => h c _ _ _ _) fun _ => keeps_bind keeps_require fun _ => ?_
  refine keeps_bind (keeps_assign fun c => h c _ _ _ _) fun _ => keeps_bind keeps_require fun _ => ?_
  exact keeps_assign fun c => h c _ _ _ _

theorem keeps_shmOpen (h : ∀ c n, P c → P { c with attributes := { c.attributes with shmCounter := n } })
    (answer : ShmOpen) : Keeps P (shmOpen answer) := by
  refine keeps_bind (keeps_assign fun c => h c _) fun _ => keeps_get_bind fun _ => ?_
  exact keeps_bind keeps_require fun _ => keeps_require

/-- What does not look at the attributes at all. -/
theorem Uncaptured.of_attributes (hP : Unaffected P) (h : ∀ c a, P c → P { c with attributes := a }) :
    Uncaptured P where
  toUnaffected := hP
  manager c _ := h c _
  output c _ := h c _
  shm c _ := h c _
  frame c _ := h c _
  buffer c _ := h c _
  shmData c _ := h c _
  shmCounter c _ := h c _
  checkBuffer := keeps_checkBuffer fun c _ _ _ _ => h c _

theorem Uncaptured.mmap (hP : Uncaptured P) (length : ℕ) (raises : Option Exc) :
    Keeps P (mmap length raises) := by
  refine keeps_bind keeps_outside fun _ => keeps_bind keeps_outside fun _ => ?_
  exact keeps_modify fun c => hP.shmData c _

theorem Uncaptured.mapBuffer (hP : Uncaptured P) (b : BufferEvent) : Keeps P (mapBuffer b) := by
  refine keeps_get_bind fun _ => keeps_bind keeps_require fun _ => ?_
  refine keeps_bind (keeps_shmOpen hP.shmCounter _) fun _ => keeps_bind keeps_outside fun _ => ?_
  refine keeps_bind (hP.mmap _ _) fun _ => keeps_bind hP.create fun _ => ?_
  refine keeps_bind hP.create fun _ => keeps_bind (keeps_assign fun c => hP.buffer c _) fun _ => ?_
  exact keeps_outside

theorem Uncaptured.capturing (hP : Uncaptured P) : Capturing P where
  toUnaffected := hP.toUnaffected
  manager := hP.manager
  output := hP.output
  shm := hP.shm
  frameBuffer b :=
    keeps_bind (hP.checkBuffer _ _ _) fun _ => keeps_get_bind fun _ => keeps_when (hP.mapBuffer b)
  capture _ := keeps_bind hP.create fun _ => keeps_assign fun c => hP.frame c _

end Keeps

end ScreencopyTracker

end MirCi.Wayland
