import MirCi.Robot.Pointer
import MirCi.Wayland.VirtualPointer

/-! `WaylandHid`: the keywords over a virtual Wayland pointer. The attribute it adds
is `_pointer_position`. -/
namespace MirCi.Robot.WaylandHid

open Python Semantics Effect Wayland Wayland.VirtualPointer

variable {F : Type}

abbrev Self (F : Type) := VirtualPointer.Self F (Option Position)

/-- The answers to the calls of one keyword. A keyword makes at most one move besides its steps,
and connects at most once. -/
structure Answers (F : Type) where
  connecting : Connecting Outputs
  closing : Closing PointerEvent
  move : Sending
  /-- The steps of a walk, or the events of a button keyword. -/
  send : ℕ → Sending
  sleep : F → ℕ → Sleep PointerEvent

/-- The events of the keyword leave the screen as it is. Nothing is said of what raises. -/
structure Answers.Steady (A : Arithmetic F) (s : Screen F) (answers : Answers F) : Prop where
  move : answers.move.Steady A s
  send : ∀ k, (answers.send k).Steady A s
  sleep : ∀ delay k, SteadySleep A s (answers.sleep delay k)

/-- No call of the keyword raises. Its events may still resize the output. -/
structure Answers.Quiet (answers : Answers F) : Prop where
  move : answers.move.Quiet
  send : ∀ k, (answers.send k).Quiet
  sleep : ∀ delay k, (answers.sleep delay k).raises = none

def setPosition (p : Position) (c : Self F) : Self F :=
  { c with attributes := { c.attributes with extra := some p } }

/-- The code of the button in `input-event-codes.h`. -/
def code : Button → ℤ
  | .left => 0x110
  | .right => 0x111
  | .middle => 0x112

section Arithmetic

variable (A : Arithmetic F)

/-- `if self.pointer:` around the disconnection of the client, which leaves the pointer set. -/
def disconnect (closing : Closing PointerEvent) : Method (Self F) Unit := do
  when ((← get).attributes.pointer ≠ none) ((methods A).disconnect closing)

/-- `if not self.pointer:` around the connection of the client. Whether the display is connected
is not looked at. -/
def connect (connecting : Connecting Outputs) (closing : Closing PointerEvent) :
    Method (Self F) Unit := do
  when ((← get).attributes.pointer = none)
    ((methods A).connect (disconnect A closing) connecting)

def setOutputScale (outputScale : F) : Method (Self F) Unit :=
  assign fun a => { a with outputScale }

def getAbsoluteFromProportional (x y : F) : Method (Self F) Position := do
  let a := (← get).attributes
  absoluteFromProportional A x y a.outputWidth a.outputHeight

def movePointerToAbsolute (p : Position) (answers : Answers F) : Method (Self F) Unit := do
  connect A answers.connecting answers.closing
  moveToAbsolute A (.int p.1) (.int p.2) answers.move
  modify (setPosition p)

def movePointerToProportional (x y : F) (answers : Answers F) : Method (Self F) Position := do
  connect A answers.connecting answers.closing
  moveToProportional A x y answers.move
  let p ← getAbsoluteFromProportional A x y
  modify (setPosition p)
  return p

/-- The walk's view of this library: a step is a move and a sleep, and the position is assigned
by the walk itself. -/
def hand (delay : F) (answers : Answers F) : Hand (Self F) F where
  position c := c.attributes.extra
  setPosition
  origin := moveToAbsolute A (.int 0) (.int 0) answers.move
  step k point := do
    moveToAbsolute A (.float point.1) (.float point.2) (answers.send k)
    (methods A).sleep (answers.sleep delay k)

def walkPointerToAbsolute (q : Position) (stepDistance : ℤ) (delay : F) (answers : Answers F) :
    Method (Self F) Unit := do
  connect A answers.connecting answers.closing
  walk A (hand A delay answers) q stepDistance

def walkPointerToProportional (x y : F) (stepDistance : ℤ) (delay : F) (answers : Answers F) :
    Method (Self F) Position := do
  connect A answers.connecting answers.closing
  let q ← getAbsoluteFromProportional A x y
  walkPointerToAbsolute A q stepDistance delay answers
  return q

def pressPointerButton (name : String) (answers : Answers F) : Method (Self F) Unit := do
  connect A answers.connecting answers.closing
  let b ← compute (Button.named name)
  button A (code b) true (answers.send 0)

def releasePointerButton (name : String) (answers : Answers F) : Method (Self F) Unit := do
  connect A answers.connecting answers.closing
  let b ← compute (Button.named name)
  button A (code b) false (answers.send 0)

def clickPointerButton (name : String) (answers : Answers F) : Method (Self F) Unit := do
  connect A answers.connecting answers.closing
  let b ← compute (Button.named name)
  button A (code b) true (answers.send 0)
  button A (code b) false (answers.send 1)

/-- Released one after the other. A button that was not pressed is released all the same. -/
def releasePointerButtons (answers : Answers F) : Method (Self F) Unit := do
  connect A answers.connecting answers.closing
  forM (Button.all.zipIdx) fun b => button A (code b.1) false (answers.send b.2)

/-- A move or walk keyword, and what it returns. -/
def call (answers : Answers F) : PointerCall F → Method (Self F) (Option Position)
  | .moveToAbsolute p => do
      movePointerToAbsolute A p answers
      return none
  | .moveToProportional x y => return some (← movePointerToProportional A x y answers)
  | .walkToAbsolute p stepDistance delay => do
      walkPointerToAbsolute A p stepDistance delay answers
      return none
  | .walkToProportional x y stepDistance delay =>
      return some (← walkPointerToProportional A x y stepDistance delay answers)

end Arithmetic

/-! ### Connecting -/

section Connect

variable {A : Arithmetic F} {connecting : Connecting Outputs} {closing : Closing PointerEvent}
  {c c' : Self F}

/-- A client that has a pointer takes itself for connected. -/
theorem connect_run_of_pointer (h : c.attributes.pointer ≠ none) :
    (connect A connecting closing).run c = .ok () c := by
  change (when (c.attributes.pointer = none) _).run c = _
  rw [when, if_neg h]
  rfl

/-- Connecting leaves the position alone, and sends nothing. -/
theorem keeps_connect {P : VirtualPointer F (Option Position) → Prop}
    (hP : ∀ a b, b.extra = a.extra → b.sent = a.sent → P a → P b) :
    Keeps (fun c : Self F => P c.attributes) (connect A connecting closing) := by
  have hUnmoved : Unmoved fun c : Self F => P c.attributes :=
    ⟨unaffected_attributes, fun c a hExtra hSent _ => hP c.attributes a hExtra hSent⟩
  refine keeps_get_bind fun _ => keeps_when (Methods.keeps_connect ?_ ?_ ?_)
  · exact keeps_registryGlobal hUnmoved
  · exact keeps_connected hUnmoved (fun c _ => hP c.attributes _ rfl rfl) _
  · exact keeps_get_bind fun _ => keeps_when
      (Methods.keeps_disconnect (keeps_handle hUnmoved) (keeps_pure ()))

/-- Whether it returns or raises, connecting leaves the position and the requests alone. -/
theorem connect_unmoved (connecting : Connecting Outputs) (closing : Closing PointerEvent) (c : Self F) :
    (state ((connect A connecting closing).run c)).attributes.extra = c.attributes.extra ∧
      (state ((connect A connecting closing).run c)).attributes.sent = c.attributes.sent := by
  have hKeeps : Keeps (fun c' : Self F => c'.attributes.extra = c.attributes.extra ∧
      c'.attributes.sent = c.attributes.sent) (connect A connecting closing) :=
    keeps_connect (P := fun a => a.extra = c.attributes.extra ∧ a.sent = c.attributes.sent)
      fun a b hExtra hSent h => ⟨hExtra.trans h.1, hSent.trans h.2⟩
  exact hKeeps c ⟨rfl, rfl⟩

theorem triple_connected (answers : Outputs) :
    Triple (fun _ : Self F => True) (connected A answers) (fun _ c => c.attributes.pointer ≠ none)
      fun _ => True := by
  refine triple_bind (triple_true _) fun _ => triple_bind (triple_true _) fun _ => ?_
  refine triple_bind (triple_true _) fun _ => triple_bind (triple_true _) fun _ => ?_
  refine triple_bind (triple_true _) fun _ => triple_bind (triple_true _) fun _ => ?_
  refine triple_bind (triple_true _) fun _ => triple_bind (triple_true _) fun _ => ?_
  refine triple_bind (triple_true _) fun _ => triple_bind (triple_true _) fun pointer => ?_
  exact triple_modify fun c _ hNone => by cases hNone

theorem triple_connect (disconnect : Method (Self F) Unit) :
    Triple (fun _ : Self F => True) ((methods A).connect disconnect connecting)
      (fun _ c => c.attributes.pointer ≠ none) fun _ => True := by
  have hHandler (e : Exc) : Triple (fun _ : Self F => True)
      (do when (e.isa .exception) disconnect; throw e : Method (Self F) Unit)
      (fun _ c => c.attributes.pointer ≠ none) fun _ => True :=
    triple_bind (triple_true _) fun _ => triple_throw e fun _ _ => trivial
  refine triple_tryCatch ?_ hHandler
  refine triple_bind (triple_true _) fun _ => triple_bind (triple_true _) fun _ => ?_
  refine triple_bind (triple_true _) fun _ => triple_bind (triple_true _) fun _ => ?_
  refine triple_bind (triple_true _) fun _ => triple_bind (triple_connected _) fun _ => ?_
  refine triple_outside_bind (fun _ _ _ => trivial) fun _ => ?_
  exact triple_modify fun c hPointer => hPointer

/-- A client that connected has a pointer. -/
theorem pointer_of_connect (h : (connect A connecting closing).run c = .ok () c') :
    c'.attributes.pointer ≠ none := by
  by_cases hPointer : c.attributes.pointer = none
  · change (when (c.attributes.pointer = none) _).run c = _ at h
    rw [when, if_pos hPointer] at h
    exact (triple_connect _).of_ok trivial h
  · rw [connect_run_of_pointer hPointer] at h
    cases h
    exact hPointer

theorem call_run_of_connect {answers : Answers F}
    (h : (connect A answers.connecting answers.closing).run c = .ok () c') (k : PointerCall F) :
    (call A answers k).run c = (call A answers k).run c' := by
  have hFirst {α : Type} (f : Unit → Method (Self F) α) :
      (connect A answers.connecting answers.closing >>= f).run c =
        (connect A answers.connecting answers.closing >>= f).run c' := by
    rw [EStateM.run_bind, EStateM.run_bind, h, connect_run_of_pointer (pointer_of_connect h)]
  cases k <;> simp only [call, movePointerToAbsolute, movePointerToProportional,
    walkPointerToAbsolute, walkPointerToProportional, bind_assoc, hFirst]

theorem call_run_of_connect_error {answers : Answers F} {e : Exc}
    (h : (connect A answers.connecting answers.closing).run c = .error e c') (k : PointerCall F) :
    (call A answers k).run c = .error e c' := by
  have hFirst {α : Type} (f : Unit → Method (Self F) α) :
      (connect A answers.connecting answers.closing >>= f).run c = .error e c' :=
    run_bind_error.mpr (Or.inl h)
  cases k <;> simp only [call, movePointerToAbsolute, movePointerToProportional,
    walkPointerToAbsolute, walkPointerToProportional, bind_assoc, hFirst]

/-- A keyword that returns has connected. -/
theorem connect_of_call {answers : Answers F} {k : PointerCall F} {result : Option Position}
    (h : (call A answers k).run c = .ok result c') :
    ∃ c₁, (connect A answers.connecting answers.closing).run c = .ok () c₁ := by
  cases k <;> simp only [call, movePointerToAbsolute, movePointerToProportional,
    walkPointerToAbsolute, walkPointerToProportional, bind_assoc] at h
  all_goals
    obtain ⟨_, c₁, hConnect, _⟩ := run_bind_ok.mp h
    exact ⟨c₁, hConnect⟩

end Connect

/-- A client of an output of 640 by 480 that has not moved its pointer. -/
def vga : Self Double where
  attributes := {
    pointer := some ⟨some 0, 0⟩
    outputWidth := 640
    outputHeight := 480
    outputScale := Double.round 1
    extra := none }

end MirCi.Robot.WaylandHid
