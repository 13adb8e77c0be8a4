import MirCi.Python.Double
import MirCi.Wayland.Client

/-! `VirtualPointer`: the outputs it knows, and the requests it sends. A subclass's
own attributes are a parameter, and so is the arithmetic on floats. -/
namespace MirCi.Wayland

open Python Semantics Effect

/-- What a client sends to its virtual pointer, time stamps aside. -/
inductive PointerRequest where
  | motionAbsolute (x y width height : ℤ)
  | button (button state : ℤ)
  | frame
  deriving DecidableEq, Repr

structure VirtualPointer (F X : Type) where
  pointerManager : Option Proxy := none
  pointer : Option Proxy := none
  outputManager : Option Proxy := none
  wlOutputs : List Proxy := []
  xdgOutputs : List Proxy := []
  outputWidth : ℤ := 0
  outputHeight : ℤ := 0
  outputScale : F
  /-- The requests the compositor was sent, oldest first. -/
  sent : List PointerRequest := []
  extra : X

inductive PointerEvent where
  | global (event : Global)
  | logicalSize (output : Proxy) (width height : ℤ)

namespace VirtualPointer

/-- The answers to the calls of `connected`, one to each `get_xdg_output`. -/
structure Outputs where
  getXdgOutput : ℕ → Option Exc := fun _ => none
  roundtrip : Reply PointerEvent := {}
  createPointer : Option Exc := none

/-- The answers to a request, the frame after it and the roundtrip. -/
structure Sending where
  request : Option Exc := none
  frame : Option Exc := none
  roundtrip : Reply PointerEvent := {}

variable {F X : Type}

abbrev Self (F X : Type) := Client (VirtualPointer F X)

def registryGlobal (g : Global) : Method (Self F X) Unit := do
  when (g.ifaceName = "zwlr_virtual_pointer_manager_v1") do
    let manager ← create g.bind
    assign fun a => { a with pointerManager := some manager }
  when (g.ifaceName = "zxdg_output_manager_v1") do
    let manager ← create g.bind
    assign fun a => { a with outputManager := some manager }
  when (g.ifaceName = "wl_output") do
    let output ← create g.bind
    assign fun a => { a with wlOutputs := a.wlOutputs ++ [output] }

section Arithmetic

variable (A : Arithmetic F)

/-- `int(size * self.output_scale)`. -/
def scaled (outputScale : F) (size : ℤ) : Except Exc ℤ := do
  A.toInt (A.mul (← A.ofInt size) outputScale)

def xdgOutputLogicalSize (output : Proxy) (width height : ℤ) : Method (Self F X) Unit := do
  let a := (← get).attributes
  match a.xdgOutputs.head? with
  | none => throw { cls := .indexError, text := "list index out of range" }
  | some first => when (output = first) do
      let outputWidth ← compute (scaled A a.outputScale width)
      assign fun a => { a with outputWidth }
      let outputHeight ← compute (scaled A a.outputScale height)
      assign fun a => { a with outputHeight }

def handle : PointerEvent → Method (Self F X) Unit
  | .global event => registryGlobal event
  | .logicalSize output width height => xdgOutputLogicalSize A output width height

def connected (answers : Outputs) : Method (Self F X) Unit := do
  require ((← get).attributes.outputManager ≠ none) "No XDG output manager"
  require ((← get).attributes.pointerManager ≠ none) "No WLR pointer manager"
  forM (List.range (← get).attributes.wlOutputs.length) fun i => do
    let output ← create (answers.getXdgOutput i)
    assign fun a => { a with xdgOutputs := a.xdgOutputs ++ [output] }
  receive (handle A) answers.roundtrip
  outside (if (← get).attributes.wlOutputs = [] then
    some { cls := .indexError, text := "list index out of range" } else none)
  let pointer ← create answers.createPointer
  assign fun a => { a with pointer := some pointer }

def disconnected : Method (Self F X) Unit := pure ()

def methods : Methods (VirtualPointer F X) PointerEvent Outputs where
  registryGlobal
  handle := handle A
  connected := connected A
  disconnected

def request (r : PointerRequest) (raises : Option Exc) : Method (Self F X) Unit := do
  outside raises
  assign fun a => { a with sent := a.sent ++ [r] }

def moveToAbsolute (x y : Number F) (answers : Sending) : Method (Self F X) Unit := do
  let a := (← get).attributes
  require (0 < a.outputWidth) "Output width must be greater than 0"
  require (0 < a.outputHeight) "Output height must be greater than 0"
  require (x.within A 0 a.outputWidth) s!"x not in range 0-{a.outputWidth}"
  require (y.within A 0 a.outputHeight) s!"y not in range 0-{a.outputHeight}"
  require (a.pointer ≠ none) "No pointer"
  let left ← compute (x.toInt A)
  let top ← compute (y.toInt A)
  request (.motionAbsolute left top a.outputWidth a.outputHeight) answers.request
  request .frame answers.frame
  receive (handle A) answers.roundtrip

def moveToProportional (x y : F) (answers : Sending) : Method (Self F X) Unit := do
  let a := (← get).attributes
  let left ← compute (A.mulInt x a.outputWidth)
  let top ← compute (A.mulInt y a.outputHeight)
  moveToAbsolute A (.float left) (.float top) answers

def button (code : ℤ) (state : Bool) (answers : Sending) : Method (Self F X) Unit := do
  require ((← get).attributes.pointer ≠ none) "No pointer"
  request (.button code (if state then 1 else 0)) answers.request
  request .frame answers.frame
  receive (handle A) answers.roundtrip

end Arithmetic

/-! ### What the methods leave alone -/

section Keeps

variable {P : Self F X → Prop} {A : Arithmetic F}

/-- What the events of the outputs leave alone, a new output included. -/
structure Following (P : Self F X → Prop) : Prop extends Unaffected P where
  pointerManager : ∀ c proxy, P c → P { c with attributes := { c.attributes with pointerManager := proxy } }
  outputManager : ∀ c proxy, P c → P { c with attributes := { c.attributes with outputManager := proxy } }
  output : ∀ raises, Keeps P
    (create raises >>= fun output => assign fun a => { a with wlOutputs := a.wlOutputs ++ [output] })
  size : ∀ c width height, P c → P { c with
    attributes := { c.attributes with outputWidth := width, outputHeight := height } }

/-- A global that a client binds is stored in one attribute, and any other is ignored. -/
theorem keeps_registryGlobal_of (hP : Unaffected P)
    (hPointer : ∀ c proxy, P c → P { c with attributes := { c.attributes with pointerManager := proxy } })
    (hOutput : ∀ c proxy, P c → P { c with attributes := { c.attributes with outputManager := proxy } })
    (hNew : ∀ raises, Keeps P
      (create raises >>= fun output => assign fun a => { a with wlOutputs := a.wlOutputs ++ [output] }))
    (event : Global) : Keeps P (registryGlobal event) := by
  refine keeps_bind (keeps_when ?_) fun _ => keeps_bind (keeps_when ?_) fun _ => keeps_when ?_
  · exact keeps_bind hP.create fun _ => keeps_assign fun c => hPointer c _
  · exact keeps_bind hP.create fun _ => keeps_assign fun c => hOutput c _
  · exact hNew _

namespace Following

variable (hP : Following P)
include hP

theorem registryGlobal (event : Global) : Keeps P (registryGlobal event) :=
  keeps_registryGlobal_of hP.toUnaffected hP.pointerManager hP.outputManager hP.output event

theorem logicalSize (output : Proxy) (width height : ℤ) :
    Keeps P (xdgOutputLogicalSize A output width height) := by
  refine keeps_get_bind fun c => ?_
  dsimp only
  cases c.attributes.xdgOutputs.head? with
  | none => exact keeps_throw _
  | some first =>
      refine keeps_when (keeps_bind keeps_compute fun _ => ?_)
      refine keeps_bind (keeps_assign fun c => hP.size c _ c.attributes.outputHeight) fun _ => ?_
      exact keeps_bind keeps_compute fun _ => keeps_assign fun c => hP.size c c.attributes.outputWidth _

theorem handle (event : PointerEvent) : Keeps P (handle A event) := by
  cases event with
  | global event => exact hP.registryGlobal event
  | logicalSize output width height => exact hP.logicalSize output width height

end Following

/-- What only a subclass, a request or the pointer changes. -/
structure Unmoved (P : Self F X → Prop) : Prop extends Unaffected P where
  attributes : ∀ c a, a.extra = c.attributes.extra → a.sent = c.attributes.sent →
    a.pointer = c.attributes.pointer → P c → P { c with attributes := a }

theorem Unmoved.following (hP : Unmoved P) : Following P where
  toUnaffected := hP.toUnaffected
  pointerManager c _ := hP.attributes c _ rfl rfl rfl
  outputManager c _ := hP.attributes c _ rfl rfl rfl
  output _ := keeps_bind hP.create fun _ => keeps_assign fun c => hP.attributes c _ rfl rfl rfl
  size c _ _ := hP.attributes c _ rfl rfl rfl

variable (hP : Unmoved P)
include hP

theorem keeps_registryGlobal (event : Global) : Keeps P (registryGlobal event) := hP.following.registryGlobal event

theorem keeps_handle (event : PointerEvent) : Keeps P (handle A event) := hP.following.handle event

theorem keeps_connected (hPointer : ∀ c pointer, P c →
    P { c with attributes := { c.attributes with pointer := pointer } }) (answers : Outputs) :
    Keeps P (connected A answers) := by
  refine keeps_get_bind fun _ => keeps_bind keeps_require fun _ => keeps_get_bind fun _ => ?_
  refine keeps_bind keeps_require fun _ => keeps_get_bind fun _ => ?_
  refine keeps_bind (keeps_forM fun _ _ => keeps_bind hP.create fun _ => ?_) fun _ => ?_
  · exact keeps_assign fun c => hP.attributes c _ rfl rfl rfl
  refine keeps_bind (hP.receive fun event _ => keeps_handle hP event) fun _ => keeps_get_bind fun _ => ?_
  refine keeps_bind keeps_outside fun _ => keeps_bind hP.create fun _ => ?_
  exact keeps_assign fun c => hPointer c _

end Keeps

/-! ### Requests -/

section Requests

variable {A : Arithmetic F} {pointer : Option Proxy} {sent : List PointerRequest}

/-- Nothing raises: neither the request nor what follows it. -/
def Sending.Quiet (a : Sending) : Prop :=
  a.request = none ∧ a.frame = none ∧ a.roundtrip.raises = none

/-- The pointer a client has, and the requests it sent. -/
def Sent (pointer : Option Proxy) (sent : List PointerRequest) (c : Self F X) : Prop :=
  c.attributes.pointer = pointer ∧ c.attributes.sent = sent

theorem unmoved_sent : Unmoved (Sent pointer sent : Self F X → Prop) where
  created _ _ h := h
  printed _ _ h := h
  attributes _ _ _ hSent hPointer h := ⟨hPointer.trans h.1, hSent.trans h.2⟩

theorem triple_request (r : PointerRequest) {raises : Option Exc} (h : raises = none) :
    Triple (Sent pointer sent : Self F X → Prop) (request r raises)
      (fun _ => Sent pointer (sent ++ [r])) fun _ => False := by
  refine triple_outside_bind (fun hRaises => absurd h hRaises) fun _ => triple_modify fun c hSent => ?_
  exact ⟨hSent.1, by simp [hSent.2]⟩

theorem triple_button (code : ℤ) (state : Bool) {a : Sending} (h : a.Quiet) (hPointer : pointer ≠ none) :
    Triple (Sent pointer sent : Self F X → Prop) (button A code state a)
      (fun _ => Sent pointer (sent ++ [.button code (if state then 1 else 0)] ++ [.frame]))
      fun _ => False := by
  refine triple_get_bind_of fun c hSent => ?_
  refine triple_require_bind (fun hNone => absurd (hSent.1 ▸ hPointer) hNone) fun _ => ?_
  refine triple_bind (triple_request _ h.1) fun _ => triple_bind (triple_request _ h.2.1) fun _ => ?_
  refine triple_handled_bind (fun event _ => unmoved_sent.deliver (keeps_handle unmoved_sent event)) ?_
  exact triple_outside (fun hRaises => absurd h.2.2 hRaises) fun _ c hSent => hSent

end Requests

/-! ### An output of constant size -/

/-- The output a client follows, and the size it believes it has. -/
structure Screen (F : Type) where
  output : Option Proxy
  width : ℤ
  height : ℤ
  scale : F

def screen (a : VirtualPointer F X) : Screen F where
  output := a.xdgOutputs.head?
  width := a.outputWidth
  height := a.outputHeight
  scale := a.outputScale

/-- The coordinates of the motions among the requests. -/
def motions (requests : List PointerRequest) : List (ℤ × ℤ) :=
  requests.filterMap fun request => match request with
    | .motionAbsolute x y _ _ => some (x, y)
    | .button _ _ | .frame => none

@[simp] theorem motions_append (requests later : List PointerRequest) :
    motions (requests ++ later) = motions requests ++ motions later := List.filterMap_append

/-- What a keyword reads, and the motions it has sent. -/
structure View (F X : Type) where
  screen : Screen F
  pointer : Option Proxy
  extra : X
  motions : List (ℤ × ℤ)

def view (a : VirtualPointer F X) : View F X where
  screen := a.screen
  pointer := a.pointer
  extra := a.extra
  motions := motions a.sent

def View.moved (v : View F X) (p : ℤ × ℤ) : View F X := { v with motions := v.motions ++ [p] }

/-- The event gives the screen the size it has. -/
def Screen.Steady (A : Arithmetic F) (s : Screen F) : PointerEvent → Prop
  | .global _ => True
  | .logicalSize output width height => s.output = some output →
      scaled A s.scale width = .ok s.width ∧
        scaled A s.scale height = .ok s.height

/-- Where a motion to the point goes, if the assertions on it pass. -/
def Screen.landing (A : Arithmetic F) (s : Screen F) (x y : Number F) : Option (ℤ × ℤ) :=
  if 0 < s.width ∧ 0 < s.height ∧ x.within A 0 s.width ∧ y.within A 0 s.height then
    match x.toInt A, y.toInt A with
    | .ok left, .ok top => some (left, top)
    | _, _ => none
  else none

theorem landing_eq_some {A : Arithmetic F} {s : Screen F} {x y : Number F} {p : ℤ × ℤ} :
    s.landing A x y = some p ↔
      (0 < s.width ∧ 0 < s.height ∧ x.within A 0 s.width ∧ y.within A 0 s.height) ∧
        x.toInt A = .ok p.1 ∧ y.toInt A = .ok p.2 := by
  unfold Screen.landing
  by_cases hInside : 0 < s.width ∧ 0 < s.height ∧ x.within A 0 s.width ∧ y.within A 0 s.height
  · rw [if_pos hInside]
    cases x.toInt A <;> cases y.toInt A <;> simp [hInside, Prod.ext_iff]
  · simp [hInside]

section Steady

variable {A : Arithmetic F} {v : View F X}

theorem unaffected_view : Unaffected fun c : Self F X => c.attributes.view = v :=
  ⟨fun _ _ h => h, fun _ _ h => h⟩

theorem keeps_handle_view {event : PointerEvent} (h : v.screen.Steady A event) :
    Keeps (fun c : Self F X => c.attributes.view = v) (handle A event) := by
  cases event with
  | global event =>
      refine keeps_registryGlobal_of unaffected_view (fun _ _ h => h) (fun _ _ h => h) (fun _ => ?_) event
      exact keeps_bind unaffected_view.create fun _ => keeps_assign fun c h => h
  | logicalSize output width height =>
      refine keeps_get_bind_of fun c hView => ?_
      dsimp only
      have hScreen : c.attributes.screen = v.screen := congrArg View.screen hView
      cases hFirst : c.attributes.xdgOutputs.head? with
      | none => exact keeps_throw _
      | some first =>
          refine keeps_ite (fun hOutput => ?_) fun _ => keeps_pure ()
          have hFollowed : v.screen.output = some output := by
            rw [← hScreen, hOutput]
            exact hFirst
          have hScale : c.attributes.outputScale = v.screen.scale := congrArg Screen.scale hScreen
          obtain ⟨hWidth, hHeight⟩ := h hFollowed
          rw [hScale, hWidth, hHeight]
          refine keeps_compute_bind fun w hw => keeps_bind (keeps_assign fun c' hView' => ?_) fun _ =>
            keeps_compute_bind fun t ht => keeps_assign fun c' hView' => ?_
          · obtain rfl := Except.ok.inj hw
            subst hView'
            rfl
          · obtain rfl := Except.ok.inj ht
            subst hView'
            rfl

/-- The events of the roundtrip leave the screen as it is. -/
def Sending.Steady (A : Arithmetic F) (s : Screen F) (a : Sending) : Prop :=
  ∀ event ∈ a.roundtrip.events, s.Steady A event

/-- So do the events of a sleep. -/
def SteadySleep (A : Arithmetic F) (s : Screen F) (a : Sleep PointerEvent) : Prop :=
  ∀ turn ∈ a.turns, ∀ event ∈ turn.dispatch.events, s.Steady A event

/-- The motion is sent, and this is where it goes. -/
def Sending.motion (A : Arithmetic F) (s : Screen F) (x y : Number F) (a : Sending) :
    Option (ℤ × ℤ) :=
  if a.request = none then s.landing A x y else none

theorem landing_of_motion {A : Arithmetic F} {s : Screen F} {x y : Number F} {a : Sending} {p : ℤ × ℤ}
    (h : a.motion A s x y = some p) : s.landing A x y = some p := by
  unfold Sending.motion at h
  split at h
  · exact h
  · cases h

/-- Whole pixels are sent as they are. -/
theorem eq_of_motion_int {A : Arithmetic F} {s : Screen F} {a : Sending} {p q : ℤ × ℤ}
    (h : a.motion A s (.int p.1) (.int p.2) = some q) : q = p := by
  obtain ⟨-, hLeft, hTop⟩ := landing_eq_some.mp (landing_of_motion h)
  exact Prod.ext (Except.ok.inj hLeft).symm (Except.ok.inj hTop).symm

/-- Nothing raises once the request was sent. -/
def Sending.Completes (a : Sending) : Prop := a.frame = none ∧ a.roundtrip.raises = none

theorem triple_sleep_view {a : Sleep PointerEvent} (h : SteadySleep A v.screen a) :
    Triple (fun c : Self F X => c.attributes.view = v) ((methods A).sleep a)
      (fun _ c => a.raises = none ∧ c.attributes.view = v)
      (fun c => a.raises ≠ none ∧ c.attributes.view = v) :=
  Methods.triple_sleep (P := fun a : VirtualPointer F X => a.view = v)
    fun turn hTurn event hEvent => keeps_handle_view (h turn hTurn event hEvent)

theorem keeps_sleep_view {a : Sleep PointerEvent} (h : SteadySleep A v.screen a) :
    Keeps (fun c : Self F X => c.attributes.view = v) ((methods A).sleep a) :=
  Methods.keeps_sleep (P := fun a : VirtualPointer F X => a.view = v)
    fun turn hTurn event hEvent => keeps_handle_view (h turn hTurn event hEvent)

theorem triple_sent (r : PointerRequest) {Stop : Self F X → Prop} :
    Triple (fun c : Self F X => c.attributes.view = v)
      (assign fun a => { a with sent := a.sent ++ [r] })
      (fun _ c => c.attributes.view = { v with motions := v.motions ++ motions [r] }) Stop := by
  refine triple_modify fun c hView => ?_
  subst hView
  simp [view, screen]

/-- The rest of a move: the frame and the roundtrip. -/
theorem triple_frame {a : Sending} (h : a.Steady A v.screen) :
    Triple (fun c : Self F X => c.attributes.view = v)
      (do request .frame a.frame; receive (handle A) a.roundtrip)
      (fun _ c => a.Completes ∧ c.attributes.view = v)
      (fun c => ¬a.Completes ∧ c.attributes.view = v) := by
  rw [request, bind_assoc]
  refine triple_outside_bind (fun hRaises c hView => ⟨fun hDone => hRaises hDone.1, hView⟩) fun hSent => ?_
  have hUnmoved : { v with motions := v.motions ++ motions [PointerRequest.frame] } = v := by
    simp [motions]
  refine triple_bind (triple_sent .frame) fun _ => ?_
  rw [hUnmoved]
  refine triple_handled_bind (fun event hEvent => ?_) ?_
  · exact unaffected_view.deliver (keeps_handle_view (h event hEvent))
  · exact triple_outside (fun hRaises c hView => ⟨fun hDone => hRaises hDone.2, hView⟩)
      fun hNone c hView => ⟨⟨hSent, hNone⟩, hView⟩

/-- A move refuses and leaves the client as it was, or its motion goes out to where the size puts it. What
follows the request is up to the caller, who may know more of the events that come then. -/
theorem triple_moveToAbsolute_of {P : Self F X → Prop} {size : Screen F} {x y : Number F} {a : Sending}
    {Post Cut : ℤ × ℤ → Self F X → Prop} (hSize : ∀ c, P c → c.attributes.screen = size)
    (hPointer : ∀ c, P c → c.attributes.pointer ≠ none)
    (hSent : ∀ p, Triple P
      (do
        assign fun b => { b with sent := b.sent ++ [.motionAbsolute p.1 p.2 size.width size.height] }
        request .frame a.frame
        receive (handle A) a.roundtrip)
      (fun _ => Post p) (Cut p)) :
    Triple P (moveToAbsolute A x y a)
      (fun _ c => ∃ p, a.motion A size x y = some p ∧ Post p c)
      (fun c => a.motion A size x y = none ∧ P c ∨ ∃ p, a.motion A size x y = some p ∧ Cut p c) := by
  refine triple_get_bind_of fun c hc => ?_
  have hWidth : c.attributes.outputWidth = size.width := congrArg Screen.width (hSize c hc)
  have hHeight : c.attributes.outputHeight = size.height := congrArg Screen.height (hSize c hc)
  dsimp only
  rw [hWidth, hHeight]
  have hUnsent (hNone : a.motion A size x y = none) (d : Self F X) (hd : P d) :
      a.motion A size x y = none ∧ P d ∨ ∃ p, a.motion A size x y = some p ∧ Cut p d := .inl ⟨hNone, hd⟩
  refine triple_require_bind (fun h => hUnsent (by simp [Sending.motion, Screen.landing, h])) fun hw => ?_
  refine triple_require_bind (fun h => hUnsent (by simp [Sending.motion, Screen.landing, h])) fun hh => ?_
  refine triple_require_bind (fun h => hUnsent (by simp [Sending.motion, Screen.landing, h])) fun hx => ?_
  refine triple_require_bind (fun h => hUnsent (by simp [Sending.motion, Screen.landing, h])) fun hy => ?_
  refine triple_require_bind (fun h => absurd (hPointer c hc) h) fun _ => ?_
  refine triple_compute_bind (fun e he => hUnsent (by simp [Sending.motion, Screen.landing, he])) fun left hl => ?_
  refine triple_compute_bind (fun e he => hUnsent (by simp [Sending.motion, Screen.landing, he])) fun top ht => ?_
  have hLands : size.landing A x y = some (left, top) := by
    simp [Screen.landing, hw, hh, hx, hy, hl, ht]
  rw [request, bind_assoc]
  refine triple_outside_bind (fun h => hUnsent (by simp [Sending.motion, h])) fun hGone => ?_
  have hMotion : a.motion A size x y = some (left, top) := by simp [Sending.motion, hGone, hLands]
  exact (hSent (left, top)).mono (fun _ d hDone => ⟨_, hMotion, hDone⟩) fun d hCut => .inr ⟨_, hMotion, hCut⟩

/-- A move ends with the motion sent or with the view as it was. -/
theorem triple_moveToAbsolute {x y : Number F} {a : Sending} (hPointer : v.pointer ≠ none)
    (h : a.Steady A v.screen) :
    Triple (fun c : Self F X => c.attributes.view = v) (moveToAbsolute A x y a)
      (fun _ c => ∃ p, a.motion A v.screen x y = some p ∧ a.Completes ∧
        c.attributes.view = v.moved p)
      (fun c => a.motion A v.screen x y = none ∧ c.attributes.view = v ∨
        ∃ p, a.motion A v.screen x y = some p ∧ ¬a.Completes ∧ c.attributes.view = v.moved p) := by
  have hSize (c : Self F X) (hView : c.attributes.view = v) : c.attributes.screen = v.screen :=
    congrArg View.screen hView
  have hHere (c : Self F X) (hView : c.attributes.view = v) : c.attributes.pointer ≠ none := by
    subst hView
    exact hPointer
  exact triple_moveToAbsolute_of hSize hHere fun p => triple_bind (triple_sent _) fun _ =>
    triple_frame (v := v.moved p) h

/-- A move inside the output succeeds when nothing raises. -/
theorem triple_moveToAbsolute_quiet {x y : Number F} {a : Sending} (hPointer : v.pointer ≠ none)
    (h : a.Steady A v.screen) (hQuiet : a.Quiet) {p : ℤ × ℤ} (hLands : v.screen.landing A x y = some p) :
    Triple (fun c : Self F X => c.attributes.view = v) (moveToAbsolute A x y a)
      (fun _ c => c.attributes.view = v.moved p) fun _ => False := by
  have hMotion : a.motion A v.screen x y = some p := by
    rw [Sending.motion, if_pos hQuiet.1, hLands]
  refine (triple_moveToAbsolute hPointer h).mono (fun _ c hMoved => ?_) fun c hCut => ?_
  · obtain ⟨p', hSame, -, hView⟩ := hMoved
    obtain rfl := Option.some.inj (hMotion.symm.trans hSame)
    exact hView
  · rcases hCut with ⟨hNone, -⟩ | ⟨_, -, hCut, -⟩
    · cases hMotion.symm.trans hNone
    · exact hCut hQuiet.2

/-- A move that returns has sent its motion. -/
theorem moveToAbsolute_ok {x y : Number F} {a : Sending} {c c' : Self F X}
    (hPointer : c.attributes.pointer ≠ none) (h : a.Steady A c.attributes.screen)
    (hRun : (moveToAbsolute A x y a).run c = .ok () c') :
    ∃ p, c.attributes.screen.landing A x y = some p ∧ c'.attributes.view = c.attributes.view.moved p := by
  obtain ⟨p, hMotion, -, hView⟩ :=
    (triple_moveToAbsolute (v := c.attributes.view) hPointer h).of_ok rfl hRun
  exact ⟨p, landing_of_motion hMotion, hView⟩

end Steady

end VirtualPointer

end MirCi.Wayland
