import MirCi.Robot.OskSession
import MirCi.Semantics.Interaction

/-! Suites of the keywords of `kvm.resource`, with `WaylandHid` for `HID` library. A suite may go by
what its keywords return, and may catch what they raise. Whatever it does, the compositor's pointer and
the buttons are accounted for keyword by keyword. -/
namespace MirCi.Robot

open Python Semantics Effect Interaction Wayland Wayland.VirtualPointer WaylandHid

/-- A tuple, or the path of a template, with what matching it finds. -/
inductive Destination where
  | point (p : Position)
  | template (found : Except Exc (List OskRegion))

/-- The centre of the first region that matches. A match that returns no region raises in the
resource, before the library is called. -/
def Destination.position : Destination → Except Exc Position
  | .point p => .ok p
  | .template found => do
      match ← found with
      | region :: _ => getCenterOf region
      | [] => throw { cls := .dataError, text := "List '$\x7bregions\x7d' has no item in index 0." }

/-- `Displace` a point, by whole pixels. -/
def displace (p : Position) (x y : ℤ) : Position := (p.1 + x, p.2 + y)

/-- Where a pointer keyword goes. Proportions of the output stay proportions here: the size is read
when the library is called, and may have changed since. -/
inductive Aim (F : Type) where
  | absolute (destination : Destination)
  | proportional (x y : F)

/-- A keyword of `kvm.resource`, with its arguments. Its keywords for keys are left out, since
`WaylandHid` has nothing for them to call. -/
inductive KvmCommand (F : Type) where
  | move (aim : Aim F)
  | walk (aim : Aim F) (stepDistance : ℤ) (delay : F)
  | press (button : String)
  | release (button : String)
  | click (button : String)
  | releaseButtons
  | matchTemplate (found : Except Exc (List OskRegion))
  | setOutputScale (outputScale : F)

/-- A suite asks for keywords and goes on as it likes, by the position returned or the error. -/
abbrev KvmSuite (F : Type) := Interaction (KvmCommand F) Exc (Option Position)

section Keywords

variable {F : Type}

/-- What the keyword does, and the position that it returns, if any. -/
def KvmCommand.run (A : Arithmetic F) (answers : Answers F) : KvmCommand F → Method (Self F) (Option Position)
  | .move (.absolute destination) => do
      let position ← compute destination.position
      movePointerToAbsolute A position answers
      return some position
  | .move (.proportional x y) => do
      let position ← movePointerToProportional A x y answers
      return some position
  | .walk (.absolute destination) stepDistance delay => do
      let position ← compute destination.position
      walkPointerToAbsolute A position stepDistance delay answers
      return some position
  | .walk (.proportional x y) stepDistance delay => do
      let position ← walkPointerToProportional A x y stepDistance delay answers
      return some position
  | .press button => do
      pressPointerButton A button answers
      return none
  | .release button => do
      releasePointerButton A button answers
      return none
  | .click button => do
      clickPointerButton A button answers
      return none
  | .releaseButtons => do
      releasePointerButtons A answers
      return none
  | .matchTemplate found => do
      let _ ← compute found
      return none
  | .setOutputScale outputScale => do
      WaylandHid.setOutputScale outputScale
      return none

/-! ### The pointer as a suite sees it -/

/-- What the client takes for the position, and what the compositor saw. The two differ after a
keyword that raised, and after a move to a proportion of an output that was resized. -/
structure Kvm where
  tracked : Option Position := none
  seat : Seat := {}
  deriving DecidableEq, Repr

/-- A call of a keyword, its outcome, and what neither of the two tells. The last three fields are
free except where the step fixes them. -/
structure KvmEvent (F : Type) where
  command : KvmCommand F
  outcome : Except Exc (Option Position)
  /-- Where a move to a proportion of the output, or a pointer keyword that raised, left the pointer. -/
  pointer : Option Position := none
  /-- A walk that raised had taken the origin for the start. -/
  located : Bool := false
  /-- The number of its requests that a button keyword made before it raised. -/
  made : ℕ := 0

def KvmEvent.call (event : KvmEvent F) : Outcome (KvmCommand F) Exc (Option Position) := (event.command, event.outcome)

/-- The position that a keyword may return. For proportions any is allowed: which one depends on
the size of the output, which no state here keeps. -/
def Aim.Allows (p : Position) : Aim F → Prop
  | .absolute destination => destination.position = .ok p
  | .proportional _ _ => True

instance (p : Position) : (aim : Aim F) → Decidable (aim.Allows p)
  | .absolute destination => inferInstanceAs (Decidable (destination.position = .ok p))
  | .proportional _ _ => inferInstanceAs (Decidable True)

/-- A keyword that knows where to go calls the library. -/
def Aim.found : Aim F → Bool
  | .absolute destination => destination.position.isOk
  | .proportional _ _ => true

def Aim.isAbsolute : Aim F → Bool
  | .absolute _ => true
  | .proportional _ _ => false

/-- Where a move to `p` leaves the pointer. For proportions the size of the output is read twice. -/
def Aim.landing (p : Position) (pointer : Option Position) : Aim F → Option Position
  | .absolute _ => some p
  | .proportional _ _ => pointer

instance (p : Position) : Decidable (Pixels p) := inferInstanceAs (Decidable (_ ∧ _))

/-- The buttons a keyword asks for, in order. None for a pointer keyword, an unknown button and
a failed match: no such call returns without a position. -/
def KvmCommand.requests : KvmCommand F → Option (List (Button × Bool))
  | .press button => (Button.named button).toOption.map fun b => [(b, true)]
  | .release button => (Button.named button).toOption.map fun b => [(b, false)]
  | .click button => (Button.named button).toOption.map fun b => [(b, true), (b, false)]
  | .releaseButtons => some (Button.all.map (·, false))
  | .matchTemplate found => found.toOption.map fun _ => []
  | .setOutputScale _ => some []
  | .move _ | .walk _ _ _ => none

/-- Where a pointer keyword goes. -/
def KvmCommand.aim : KvmCommand F → Option (Aim F)
  | .move aim | .walk aim _ _ => some aim
  | _ => none

namespace Kvm

/-- Where a walk to `p` leaves the pointer: a client that takes it to be there already does not move it. -/
def landing (s : Kvm) (p : Position) (pointer : Option Position) : Option Position :=
  if s.tracked = some p then s.seat.pointer else if Pixels p then some p else pointer

/-- The client takes one position, the compositor may have another. -/
def moved (s : Kvm) (tracked pointer : Option Position) : Kvm := ⟨tracked, ⟨pointer, s.seat.presses⟩⟩

/-- The requests are seen where the pointer is, whatever the client takes for its position. -/
def touched (s : Kvm) (requests : List (Button × Bool)) : Kvm :=
  ⟨s.tracked, ⟨s.seat.pointer, s.seat.presses ++ touches s.seat.pointer requests⟩⟩

/-- What a call does to the client's position, the pointer and the presses. A call that returns has
its effect whole; one that raises moves the pointer somewhere or makes some of its requests.
Outcomes that no keyword has are refused. -/
def step (s : Kvm) (event : KvmEvent F) : Option Kvm :=
  match event.command, event.outcome with
  | .move aim, .ok (some p) =>
      if aim.Allows p then some (s.moved (some p) (aim.landing p event.pointer)) else none
  | .walk aim _ _, .ok (some p) =>
      if aim.Allows p then some (s.moved (some p) (s.landing p event.pointer)) else none
  | .move aim, .error _ => some (if aim.found then s.moved s.tracked event.pointer else s)
  | .walk aim _ _, .error _ =>
      some (if aim.found then
        s.moved (if event.located then s.tracked.or (some (0, 0)) else s.tracked) event.pointer else s)
  | command, .ok none => command.requests.map s.touched
  | command, .error _ => some (s.touched ((command.requests.getD []).take event.made))
  | _, .ok (some _) => none

end Kvm

/-- The abstract pointer is that of the client. -/
def Kvm.Of (c : Self F) (s : Kvm) : Prop := OnSeat s.tracked s.seat c

/-- A step accounts for a call of a keyword. -/
abbrev Explains (s : Kvm) (command : KvmCommand F) (outcome : Except Exc (Option Position)) (c : Self F) : Prop :=
  Accounts Kvm.step Any KvmEvent.call Kvm.Of s (command, outcome) c

end Keywords

/-! ### The keywords one by one -/

section Explains

variable {F : Type} {s t : Kvm} {c : Self F} {command : KvmCommand F}

/-- An event with the call's command and outcome, and a client where it leads, is an account. -/
theorem explains_of_step (event : KvmEvent F) (hStep : s.step event = some t) (h : Kvm.Of c t) :
    Explains s event.command event.outcome c := ⟨event, t, rfl, trivial, hStep, h⟩

variable (s command) in
/-- Whatever comes of a keyword, a step accounts for it. -/
def Explained (x : Method (Self F) (Option Position)) : Prop :=
  Triple (Kvm.Of · s) x (fun r => Explains s command (.ok r)) fun c => ∀ e, Explains s command (.error e) c

variable {A : Arithmetic F} {answers : Answers F}

/-- The library's part of a keyword may raise at any point; after it the keyword only returns. -/
theorem explained_bind {α : Type} {x : Method (Self F) α} {f : α → Method (Self F) (Option Position)}
    {Post : α → Self F → Prop} (h : Triple (Kvm.Of · s) x Post fun c => ∀ e, Explains s command (.error e) c)
    (hNext : ∀ a c, Post a c → ∃ r, f a = pure r ∧ Explains s command (.ok r) c) : Explained s command (x >>= f) := by
  refine triple_bind h fun a c hPost => ?_
  obtain ⟨r, hReturn, hEnd⟩ := hNext a c hPost
  rw [hReturn]
  exact hEnd

/-! #### Moves -/

/-- Without a place to go the library is not called, and the pointer stays. -/
theorem explains_move_unfound {aim : Aim F} (hFound : aim.found = false) (e : Exc) (h : Kvm.Of c s) :
    Explains s (.move aim) (.error e) c := by
  refine explains_of_step { command := .move aim, outcome := .error e } (t := s) ?_ h
  simp [Kvm.step, hFound]

/-- A move that raised left the client's position alone. Of the pointer nothing is known: the
request may have been sent before the error. -/
theorem explains_move_error {aim : Aim F} (hFound : aim.found = true) (h : Somewhere s.tracked s.seat.presses c) (e : Exc) :
    Explains s (.move aim) (.error e) c := by
  obtain ⟨pointer, h⟩ := h
  refine explains_of_step { command := .move aim, outcome := .error e, pointer }
    (t := s.moved s.tracked pointer) ?_ h
  simp [Kvm.step, hFound]

/-- A move that returned set the client's position; the pointer is there too if the aim was a
point. -/
theorem explains_move_ok (aim : Aim F) {p : Position} (pointer : Option Position) (hAllows : aim.Allows p)
    (h : OnSeat (some p) ⟨aim.landing p pointer, s.seat.presses⟩ c) : Explains s (.move aim) (.ok (some p)) c := by
  refine explains_of_step { command := .move aim, outcome := .ok (some p), pointer }
    (t := s.moved (some p) (aim.landing p pointer)) ?_ h
  simp [Kvm.step, hAllows]

theorem found_of_position {destination : Destination} {p : Position} (h : destination.position = .ok p) :
    (Aim.absolute destination : Aim F).found = true := by
  simp [Aim.found, h, Except.isOk, Except.toBool]

theorem unfound_of_position {destination : Destination} {e : Exc} (h : destination.position = .error e) :
    (Aim.absolute destination : Aim F).found = false := by
  simp [Aim.found, h, Except.isOk, Except.toBool]

theorem explained_move_absolute (destination : Destination) :
    Explained s (.move (.absolute destination)) (KvmCommand.run A answers (.move (.absolute destination))) := by
  rw [KvmCommand.run]
  cases hPosition : destination.position with
  | error e => exact triple_throw e fun c h e' => explains_move_unfound (unfound_of_position hPosition) e' h
  | ok p =>
      change Explained s _ (movePointerToAbsolute A p answers >>= fun _ => pure (some p))
      have hMove : Triple (Kvm.Of · s) (movePointerToAbsolute A p answers)
          (fun _ => OnSeat (some p) ⟨some p, s.seat.presses⟩) (Somewhere s.tracked s.seat.presses) :=
        triple_movePointer_onSeat p answers
      refine explained_bind (hMove.mono (fun _ _ h => h) fun c h => ?_) fun _ c h => ⟨some p, rfl, ?_⟩
      · exact explains_move_error (found_of_position hPosition) h
      · exact explains_move_ok _ none hPosition h

theorem keeps_absolute {P : Self F → Prop} (x y : F) : Keeps P (getAbsoluteFromProportional A x y) :=
  keeps_get_bind fun _ _ h =>
    ((triple_absoluteFromProportional x y _ _).mono (fun _ _ h => h.2) fun _ h => h : Triple P _ (fun _ => P) P).state h

/-- The size of the output is read once for the request and once for the position kept. Between
the two it may change, so that no landing is promised. -/
theorem explained_move_proportional (x y : F) :
    Explained s (.move (.proportional x y)) (KvmCommand.run A answers (.move (.proportional x y))) := by
  have hMove : Triple (Kvm.Of · s) (movePointerToProportional A x y answers)
      (fun p c => ∃ pointer, OnSeat (some p) ⟨pointer, s.seat.presses⟩ c) (Somewhere s.tracked s.seat.presses) := by
    refine triple_after_keeps (keeps_connect_onSeat answers) (fun c h => h.somewhere) fun _ => ?_
    have hProportional : Triple (Kvm.Of · s) (moveToProportional A x y answers.move)
        (fun _ => Somewhere s.tracked s.seat.presses) (Somewhere s.tracked s.seat.presses) := by
      refine triple_get_bind fun c => triple_compute_bind (fun _ _ c h => h.somewhere) fun left _ => ?_
      refine triple_compute_bind (fun _ _ c h => h.somewhere) fun top _ => ?_
      refine (triple_move_onSeat answers.move).mono (fun _ c h => ?_) fun c h => h
      obtain ⟨_, _, -, -, h⟩ := h
      exact h.somewhere
    refine triple_bind hProportional fun _ => triple_after_keeps (keeps_absolute x y) (fun _ h => h) fun p => ?_
    have hSet : Triple (Somewhere s.tracked s.seat.presses : Self F → Prop) (modify (setPosition p) : Method (Self F) Unit)
        (fun _ c => ∃ pointer, OnSeat (some p) ⟨pointer, s.seat.presses⟩ c) (Somewhere s.tracked s.seat.presses) := by
      refine triple_modify fun c h => ?_
      obtain ⟨pointer, -, hSeat⟩ := h
      exact ⟨pointer, rfl, hSeat⟩
    exact triple_bind hSet fun _ => triple_pure p fun c h => h
  refine explained_bind (hMove.mono (fun _ _ h => h) fun c h => explains_move_error rfl h) fun p c h => ⟨some p, rfl, ?_⟩
  obtain ⟨pointer, h⟩ := h
  exact explains_move_ok (.proportional x y) pointer trivial h

/-! #### Walks -/

section Walks

variable {aim : Aim F} {stepDistance : ℤ} {delay : F}

theorem explains_walk_unfound (hFound : aim.found = false) (e : Exc) (h : Kvm.Of c s) :
    Explains s (.walk aim stepDistance delay) (.error e) c := by
  refine explains_of_step { command := .walk aim stepDistance delay, outcome := .error e } (t := s) ?_ h
  simp [Kvm.step, hFound]

/-- A walk may raise after it took the origin for an unknown start, and the next walk then starts
from there. -/
theorem explains_walk_error (hFound : aim.found = true) (located : Bool)
    (h : Somewhere (if located then s.tracked.or (some (0, 0)) else s.tracked) s.seat.presses c) (e : Exc) :
    Explains s (.walk aim stepDistance delay) (.error e) c := by
  obtain ⟨pointer, h⟩ := h
  refine explains_of_step { command := .walk aim stepDistance delay, outcome := .error e, pointer, located }
    (t := s.moved (if located then s.tracked.or (some (0, 0)) else s.tracked) pointer) ?_ h
  simp [Kvm.step, hFound]

theorem explains_walk_ok {p : Position} (pointer : Option Position) (hAllows : aim.Allows p)
    (h : OnSeat (some p) ⟨s.landing p pointer, s.seat.presses⟩ c) :
    Explains s (.walk aim stepDistance delay) (.ok (some p)) c := by
  refine explains_of_step { command := .walk aim stepDistance delay, outcome := .ok (some p), pointer }
    (t := s.moved (some p) (s.landing p pointer)) ?_ h
  simp [Kvm.step, hAllows]

variable (hArrives : ∀ p q, 0 < stepDistance → Arrives A stepDistance p q)
include hArrives

/-- A walk to a point that doubles represent ends on it. A client that does not know its position
first connects and takes the origin; one that is there already sends nothing. -/
theorem triple_walk_explained (hFound : aim.found = true) {q : Position} (hAllows : aim.Allows q) :
    Triple (Kvm.Of · s) (walkPointerToAbsolute A q stepDistance delay answers)
      (fun _ => Explains s (.walk aim stepDistance delay) (.ok (some q)))
      fun c => ∀ e, Explains s (.walk aim stepDistance delay) (.error e) c := by
  obtain ⟨tracked, pointer, presses⟩ := s
  cases tracked with
  | none =>
      refine triple_after_keeps (keeps_connect_onSeat answers) (fun c h => ?_) fun _ => ?_
      · exact explains_walk_error hFound false h.somewhere
      refine (triple_walk_nowhere answers (hArrives _ q)).mono (fun _ c h => ?_) fun c h => ?_
      · obtain ⟨final, hFinal, h⟩ := h
        refine explains_walk_ok (some final) hAllows ?_
        by_cases hPixels : Pixels q
        · simpa [Kvm.landing, hPixels, hFinal hPixels] using h
        · simpa [Kvm.landing, hPixels] using h
      · rcases h with h | h
        · exact explains_walk_error hFound false h
        · exact explains_walk_error hFound true h
  | some p =>
      refine (triple_walkPointer_onSeat answers (hArrives p q)).mono (fun _ c h => ?_) fun c h =>
        explains_walk_error hFound false h
      obtain ⟨final, hFinal, h⟩ := h
      refine explains_walk_ok (some final) hAllows ?_
      by_cases hSame : p = q
      · simpa [Kvm.landing, hSame] using h
      · by_cases hPixels : Pixels q
        · simpa [Kvm.landing, hSame, hPixels, hFinal hPixels] using h
        · simpa [Kvm.landing, hSame, hPixels] using h

theorem explained_walk_absolute (destination : Destination) : Explained s (.walk (.absolute destination) stepDistance delay)
    (KvmCommand.run A answers (.walk (.absolute destination) stepDistance delay)) := by
  rw [KvmCommand.run]
  cases hPosition : destination.position with
  | error e => exact triple_throw e fun c h e' => explains_walk_unfound (unfound_of_position hPosition) e' h
  | ok p =>
      change Explained s _ (walkPointerToAbsolute A p stepDistance delay answers >>= fun _ => pure (some p))
      have hAllows : (Aim.absolute destination : Aim F).Allows p := hPosition
      exact explained_bind (triple_walk_explained hArrives (found_of_position hPosition) hAllows) fun _ c h =>
        ⟨some p, rfl, h⟩

theorem explained_walk_proportional (x y : F) : Explained s (.walk (.proportional x y) stepDistance delay)
    (KvmCommand.run A answers (.walk (.proportional x y) stepDistance delay)) := by
  have hStays (c : Self F) (h : Kvm.Of c s) (e : Exc) :
      Explains s (.walk (.proportional x y) stepDistance delay) (.error e) c :=
    explains_walk_error rfl false h.somewhere e
  have hWalk : Triple (Kvm.Of · s) (walkPointerToProportional A x y stepDistance delay answers)
      (fun p => Explains s (.walk (.proportional x y) stepDistance delay) (.ok (some p)))
      fun c => ∀ e, Explains s (.walk (.proportional x y) stepDistance delay) (.error e) c := by
    refine triple_after_keeps (keeps_connect_onSeat answers) hStays fun _ => ?_
    refine triple_after_keeps (keeps_absolute x y) hStays fun q => ?_
    exact triple_bind (triple_walk_explained hArrives rfl trivial) fun _ => triple_pure q fun c h => h
  exact explained_bind hWalk fun p c h => ⟨some p, rfl, h⟩

end Walks

/-! #### Buttons -/

@[simp] theorem Kvm.touched_nil (s : Kvm) : s.touched [] = s := by
  simp [Kvm.touched, touches]

theorem aim_of_requests {requests : List (Button × Bool)} (h : command.requests = some requests) : command.aim = none := by
  cases command with
  | move _ | walk _ _ _ => cases h
  | _ => rfl

/-- A button keyword that returned made all its requests. -/
theorem Kvm.step_touched {event : KvmEvent F} (hAim : event.command.aim = none) (hOutcome : event.outcome = .ok none) :
    s.step event = event.command.requests.map s.touched := by
  obtain ⟨command, outcome, pointer, located, made⟩ := event
  obtain rfl : outcome = .ok none := hOutcome
  cases command with
  | move _ | walk _ _ _ => cases hAim
  | _ => rfl

/-- A button keyword that raised made the first few of its requests, and no others. -/
theorem Kvm.step_part {event : KvmEvent F} {e : Exc} (hAim : event.command.aim = none)
    (hOutcome : event.outcome = .error e) :
    s.step event = some (s.touched ((event.command.requests.getD []).take event.made)) := by
  obtain ⟨command, outcome, pointer, located, made⟩ := event
  obtain rfl : outcome = .error e := hOutcome
  cases command with
  | move _ | walk _ _ _ => cases hAim
  | _ => rfl

theorem explains_touched {requests : List (Button × Bool)} (hRequests : command.requests = some requests)
    (h : OnSeat s.tracked ⟨s.seat.pointer, s.seat.presses ++ touches s.seat.pointer requests⟩ c) :
    Explains s command (.ok none) c := by
  refine explains_of_step { command, outcome := .ok none } (t := s.touched requests) ?_ h
  rw [Kvm.step_touched (aim_of_requests hRequests) rfl, hRequests]
  rfl

theorem explains_part {requests : List (Button × Bool)} (hRequests : command.requests = some requests) {n : ℕ}
    (h : OnSeat s.tracked ⟨s.seat.pointer, s.seat.presses ++ touches s.seat.pointer (requests.take n)⟩ c) (e : Exc) :
    Explains s command (.error e) c := by
  refine explains_of_step { command, outcome := .error e, made := n } (t := s.touched (requests.take n)) ?_ h
  rw [Kvm.step_part (aim_of_requests hRequests) rfl, hRequests, Option.getD_some]

/-- A keyword that raises before it asks for a button. -/
theorem explains_untouched (hAim : command.aim = none) (h : Kvm.Of c s) (e : Exc) : Explains s command (.error e) c := by
  refine explains_of_step { command, outcome := .error e } (t := s) ?_ h
  rw [Kvm.step_part hAim rfl, List.take_zero, Kvm.touched_nil]

/-- Requests are sent in order, so that an error leaves a part of them that is a beginning. -/
theorem explained_touch (requests : List ((Button × Bool) × Sending))
    (hRequests : command.requests = some (requests.map Prod.fst)) {x : Method (Self F) Unit}
    (hx : x = do
      connect A answers.connecting answers.closing
      forM requests fun r => VirtualPointer.button A (code r.1.1) r.1.2 r.2) :
    Explained s command (x >>= fun _ => pure none) := by
  subst hx
  refine explained_bind ((triple_touch_onSeat answers requests).mono (fun _ _ h => h) fun c h => ?_) fun _ c h =>
    ⟨none, rfl, explains_touched hRequests h⟩
  obtain ⟨n, h⟩ := h
  exact explains_part hRequests h

/-- An unknown name raises after the connection is made and before any request, so that nothing is
to be accounted for but the error. -/
theorem explained_named {name : String} (x : Button → Method (Self F) Unit)
    (hKnown : ∀ b, Button.named name = .ok b →
      Explained s command (do connect A answers.connecting answers.closing; x b; return none))
    (hAim : command.aim = none) :
    Explained s command (do
      connect A answers.connecting answers.closing
      let b ← compute (Button.named name)
      x b
      return none) := by
  cases hName : Button.named name with
  | ok b => exact hKnown b hName
  | error e =>
      exact triple_after_keeps (keeps_connect_onSeat answers) (fun _ => explains_untouched hAim) fun _ =>
        triple_throw e fun _ => explains_untouched hAim

theorem explained_press (name : String) : Explained s (.press name) (KvmCommand.run A answers (.press name)) := by
  have hNamed (b : Button) (hName : Button.named name = .ok b) : Explained s (.press name) (do
        connect A answers.connecting answers.closing
        VirtualPointer.button A (code b) true (answers.send 0)
        return none) := by
    have hRequests :
        (KvmCommand.press name : KvmCommand F).requests = some ([((b, true), answers.send 0)].map Prod.fst) := by
      simp [KvmCommand.requests, hName, Except.toOption]
    simpa using explained_touch _ hRequests rfl
  simpa [KvmCommand.run, pressPointerButton] using
    explained_named (fun b => VirtualPointer.button A (code b) true (answers.send 0)) hNamed rfl

theorem explained_release (name : String) : Explained s (.release name) (KvmCommand.run A answers (.release name)) := by
  have hNamed (b : Button) (hName : Button.named name = .ok b) : Explained s (.release name) (do
        connect A answers.connecting answers.closing
        VirtualPointer.button A (code b) false (answers.send 0)
        return none) := by
    have hRequests :
        (KvmCommand.release name : KvmCommand F).requests = some ([((b, false), answers.send 0)].map Prod.fst) := by
      simp [KvmCommand.requests, hName, Except.toOption]
    simpa using explained_touch _ hRequests rfl
  simpa [KvmCommand.run, releasePointerButton] using
    explained_named (fun b => VirtualPointer.button A (code b) false (answers.send 0)) hNamed rfl

theorem explained_click (name : String) : Explained s (.click name) (KvmCommand.run A answers (.click name)) := by
  have hNamed (b : Button) (hName : Button.named name = .ok b) : Explained s (.click name) (do
        connect A answers.connecting answers.closing
        VirtualPointer.button A (code b) true (answers.send 0)
        VirtualPointer.button A (code b) false (answers.send 1)
        return none) := by
    have hRequests :
        (KvmCommand.click name : KvmCommand F).requests =
          some ([((b, true), answers.send 0), ((b, false), answers.send 1)].map Prod.fst) := by
      simp [KvmCommand.requests, hName, Except.toOption]
    simpa using explained_touch _ hRequests rfl
  have hKeyword := explained_named (fun b => do
    VirtualPointer.button A (code b) true (answers.send 0)
    VirtualPointer.button A (code b) false (answers.send 1)) (fun b hName => by simpa using hNamed b hName) rfl
  simpa [KvmCommand.run, clickPointerButton] using hKeyword

theorem explained_releaseButtons : Explained s .releaseButtons (KvmCommand.run A answers .releaseButtons) := by
  have hRequests : (KvmCommand.releaseButtons : KvmCommand F).requests =
      some ((Button.all.zipIdx.map fun b => ((b.1, false), answers.send b.2)).map Prod.fst) := rfl
  simpa [KvmCommand.run, releasePointerButtons, Button.all] using explained_touch _ hRequests rfl

theorem explained_matchTemplate (found : Except Exc (List OskRegion)) :
    Explained s (.matchTemplate found) (KvmCommand.run A answers (.matchTemplate found)) := by
  cases found with
  | ok regions =>
      exact triple_pure _ fun c h => explains_touched rfl (by simpa [touches, Kvm.Of] using h)
  | error e =>
      exact triple_throw e fun _ => explains_untouched rfl

theorem explained_setOutputScale (outputScale : F) :
    Explained s (.setOutputScale outputScale) (KvmCommand.run A answers (.setOutputScale outputScale)) := by
  have hSet : Triple (Kvm.Of · s) (WaylandHid.setOutputScale outputScale) (fun _ => (Kvm.Of · s))
      fun c => ∀ e, Explains s (.setOutputScale outputScale) (.error e) c := triple_modify fun _ h => h
  exact explained_bind hSet fun _ c h => ⟨none, rfl, explains_touched rfl (by simpa [touches, Kvm.Of] using h)⟩

/-- Whatever its arguments, a keyword of the resource does what some step says, provided that a
walk with these numbers gets where it goes. -/
theorem explained_run (hArrives : ∀ stepDistance p q, 0 < stepDistance → Arrives A stepDistance p q)
    (command : KvmCommand F) : Explained s command (command.run A answers) := by
  cases command with
  | move aim =>
      cases aim with
      | absolute destination => exact explained_move_absolute destination
      | proportional x y => exact explained_move_proportional x y
  | walk aim stepDistance delay =>
      cases aim with
      | absolute destination => exact explained_walk_absolute (hArrives stepDistance) destination
      | proportional x y => exact explained_walk_proportional (hArrives stepDistance) x y
  | press button => exact explained_press button
  | release button => exact explained_release button
  | click button => exact explained_click button
  | releaseButtons => exact explained_releaseButtons
  | matchTemplate found => exact explained_matchTemplate found
  | setOutputScale outputScale => exact explained_setOutputScale outputScale

end Explains

/-! ### Whole suites -/

/-- A new client gets to this state through the calls of the log, as the machine makes them. -/
abbrev OnWire {F : Type} (w : Logged (KvmCommand F) Exc (Option Position) (Self F)) : Prop :=
  Accounted Kvm.step Any KvmEvent.call Kvm.Of {} w

section Suites

variable {sqrt : Double → Double}

/-- With doubles walks do arrive, so the contract holds of every call of a run, each with its own
answers of the server. -/
theorem contract_run (hSqrt : Rooted sqrt) (answers : ℕ → Answers Double) (n : ℕ) (command : KvmCommand Double) (s : Kvm) :
    Contract (Kvm.Of · s) (command.run (doubles sqrt) (answers n))
      (fun r => Accounts Kvm.step Any KvmEvent.call Kvm.Of s (command, .ok r))
      fun e => Accounts Kvm.step Any KvmEvent.call Kvm.Of s (command, .error e) := by
  have hArrives (stepDistance : ℤ) (p q : Position) (hPositive : 0 < stepDistance) :
      Arrives (doubles sqrt) stepDistance p q := arrives_doubles hSqrt hPositive p q
  exact (explained_run hArrives command).contract (fun _ _ h => h) fun e _ h => h e

/-- By the rule for suites: the account of the whole run is put together from one call each. -/
theorem keeps_onWire (hSqrt : Rooted sqrt) (answers : ℕ → Answers Double) (suite : KvmSuite Double) :
    Keeps OnWire (suite.exec fun n => KvmCommand.run (doubles sqrt) (answers n)) :=
  keeps_exec_accounted (contract_run hSqrt answers) suite

theorem onWire_new {c : Self Double} (hNew : c.attributes.extra = none ∧ c.attributes.sent = []) :
    OnWire ⟨c, []⟩ :=
  accounted_start ⟨hNew.1, by rw [hNew.2]; rfl⟩

/-- Whatever a suite does with the outcomes of its keywords and wherever it stops, the calls lead through it, and
the position that the client keeps, the compositor's pointer and all presses are accounted for call by call. -/
theorem suite_on_wire (hSqrt : Rooted sqrt) (answers : ℕ → Answers Double) (suite : KvmSuite Double)
    {c : Self Double} (hNew : c.attributes.extra = none ∧ c.attributes.sent = []) :
    Triple (· = ⟨c, []⟩) (suite.exec fun n => KvmCommand.run (doubles sqrt) (answers n))
      (fun _ w => Leads suite w.log .done ∧ OnWire w) fun w => (∃ e, Leads suite w.log (.fail e)) ∧ OnWire w := by
  intro w hw
  have hLog : w.log = [] := by rw [hw]
  have hWire := keeps_onWire hSqrt answers suite w (hw ▸ onWire_new hNew)
  have hLeads := triple_exec_leads (fun n => KvmCommand.run (doubles sqrt) (answers n)) suite [] w hLog
  cases hRun : (suite.exec fun n => KvmCommand.run (doubles sqrt) (answers n)).run w with
  | ok _ w' =>
      rw [hRun] at hWire hLeads
      obtain ⟨calls, hCalls, hLeads⟩ := hLeads
      rw [List.nil_append] at hCalls
      exact ⟨hCalls ▸ hLeads, hWire⟩
  | error _ w' =>
      rw [hRun] at hWire hLeads
      obtain ⟨calls, e, hCalls, hLeads⟩ := hLeads
      rw [List.nil_append] at hCalls
      exact ⟨⟨e, hCalls ▸ hLeads⟩, hWire⟩

/-- `Suite Setup` of `scale.robot`, which tries a second template when the first does not match. -/
def scaleSetup {F : Type} (outputScale delay : F) (title half : Except Exc (List OskRegion)) : KvmSuite F :=
  let clicks : KvmSuite F :=
    callThen (.click "LEFT") fun _ =>
    callThen (.click "LEFT") fun _ =>
    .done
  callThen (.setOutputScale outputScale) fun _ =>
  .call (.walk (.absolute (.template title)) 16 delay) fun
    | .ok _ => clicks
    | .error _ => callThen (.walk (.absolute (.template half)) 16 delay) fun _ => clicks

/-- The title is not found, and half of it is at the keyboard of the small output. -/
def halfTitle : KvmSuite Double :=
  scaleSetup (Double.round 1) (Double.round 0) (.error { cls := .imageNotFoundError }) (.ok [smallOsk])

def runHalfTitle : EStateM.Result Exc (Logged (KvmCommand Double) Exc (Option Position) (Self Double)) Unit :=
  (halfTitle.exec fun _ => KvmCommand.run (doubles wholeSqrt) quietAnswers).run ⟨vga, []⟩

theorem runHalfTitle_returns : raised runHalfTitle = none := by
  decide +kernel

theorem suite_on_wire_half : ∃ w, runHalfTitle = .ok () w ∧ Leads halfTitle w.log .done ∧ OnWire w := by
  have hTriple := suite_on_wire rooted_wholeSqrt (fun _ => quietAnswers) halfTitle (c := vga) ⟨rfl, rfl⟩
  have hReturns := runHalfTitle_returns
  cases hRun : runHalfTitle with
  | ok _ w => exact ⟨w, rfl, hTriple.of_ok rfl hRun⟩
  | error e w =>
      rw [hRun] at hReturns
      cases hReturns

end Suites

/-! ### Suites that go as they say -/

section Plain

variable {F : Type}

/-- What a keyword that returned says by its outcome alone: the position, or its requests where the
pointer was said to be. -/
def Seat.say (s : Seat) : Outcome (KvmCommand F) Exc (Option Position) → Seat
  | (_, .ok (some p)) => { s with pointer := some p }
  | (command, .ok none) => { s with presses := s.presses ++ touches s.pointer (command.requests.getD []) }
  | (_, .error _) => s

/-- What the keywords of a suite say, one after the other. -/
def said (log : List (Outcome (KvmCommand F) Exc (Option Position))) : Seat := log.foldl Seat.say {}

/-- A keyword that returned, but for a move to a proportion of the output or a walk out of the doubles,
or that had no place to go, no match or no such button. -/
def isPlain : Outcome (KvmCommand F) Exc (Option Position) → Bool
  | (.move aim, .ok _) => aim.isAbsolute
  | (.walk _ _ _, .ok (some p)) => decide (Pixels p)
  | (.move aim, .error _) | (.walk aim _ _, .error _) => !aim.found
  | (command, .error _) => command.requests.isNone
  | _ => true

theorem isPlain_error {command : KvmCommand F} {e : Exc} (hAim : command.aim = none) :
    isPlain (command, .error e) = command.requests.isNone := by
  cases command with
  | move _ | walk _ _ _ => cases hAim
  | _ => rfl

variable {s t : Kvm} {event : KvmEvent F}

/-- A keyword that raised before it did anything. -/
theorem step_plain_error {e : Exc} (hStep : s.step event = some t) (hPlain : isPlain event.call = true)
    (hOutcome : event.outcome = .error e) : t = s := by
  obtain ⟨command, outcome, pointer, located, made⟩ := event
  obtain rfl : outcome = .error e := hOutcome
  cases command with
  | move aim =>
      have hFound : aim.found = false := by simpa [isPlain, KvmEvent.call] using hPlain
      simpa [Kvm.step, hFound, eq_comm] using hStep
  | walk aim _ _ =>
      have hFound : aim.found = false := by simpa [isPlain, KvmEvent.call] using hPlain
      simpa [Kvm.step, hFound, eq_comm] using hStep
  | _ =>
      have hNone := Option.isNone_iff_eq_none.mp ((isPlain_error rfl).symm.trans hPlain)
      rw [Kvm.step_part rfl rfl, hNone] at hStep
      simpa [eq_comm] using hStep

/-- A keyword that asked for buttons. -/
theorem step_plain_buttons (hStep : s.step event = some t) (hOutcome : event.outcome = .ok none) :
    ∃ requests, event.command.requests = some requests ∧ t = s.touched requests := by
  obtain ⟨command, outcome, pointer, located, made⟩ := event
  obtain rfl : outcome = .ok none := hOutcome
  have hRequests : command.requests.map s.touched = some t := by
    cases command <;> exact hStep
  obtain ⟨requests, hSome, hEnd⟩ := Option.map_eq_some_iff.mp hRequests
  exact ⟨requests, hSome, hEnd.symm⟩

/-- A pointer keyword moved the pointer to where it says, or the pointer was there. -/
theorem step_plain_pointer {p : Position} (hStep : s.step event = some t) (hPlain : isPlain event.call = true)
    (hOutcome : event.outcome = .ok (some p)) (hTracked : s.tracked = s.seat.pointer) : t = s.moved (some p) (some p) := by
  obtain ⟨command, outcome, pointer, located, made⟩ := event
  obtain rfl : outcome = .ok (some p) := hOutcome
  cases command with
  | move aim =>
      obtain ⟨-, hEnd⟩ := Option.ite_none_right_eq_some.mp hStep
      cases aim with
      | absolute destination => exact (Option.some.inj hEnd).symm
      | proportional x y => cases hPlain
  | walk aim _ _ =>
      have hPixels : Pixels p := of_decide_eq_true hPlain
      obtain ⟨-, hEnd⟩ := Option.ite_none_right_eq_some.mp hStep
      rw [← Option.some.inj hEnd]
      by_cases hHere : s.tracked = some p
      · simp [Kvm.landing, hHere, ← hTracked]
      · simp [Kvm.landing, hHere, hPixels]
  | _ => cases hStep

/-- The compositor saw what the keywords said, and the client takes the pointer to be where it is. -/
def Kvm.Said (s : Kvm) (log : List (Outcome (KvmCommand F) Exc (Option Position))) : Prop :=
  s.seat = said log ∧ s.tracked = (said log).pointer

theorem said_step {log : List (Outcome (KvmCommand F) Exc (Option Position))} (h : s.Said log)
    (hStep : s.step event = some t) (hPlain : isPlain event.call = true) : t.Said (log ++ [event.call]) := by
  have hSay : said (log ++ [event.call]) = s.seat.say event.call := by
    rw [said, List.foldl_append, ← said, ← h.1]
    rfl
  have hTracked : s.tracked = s.seat.pointer := by rw [h.1, h.2]
  rw [Kvm.Said, hSay]
  cases hOutcome : event.outcome with
  | error e =>
      obtain rfl := step_plain_error hStep hPlain hOutcome
      simpa [Seat.say, KvmEvent.call, hOutcome] using hTracked
  | ok result =>
      cases result with
      | none =>
          obtain ⟨requests, hRequests, rfl⟩ := step_plain_buttons hStep hOutcome
          simpa [Seat.say, KvmEvent.call, hOutcome, Kvm.touched, hRequests] using hTracked
      | some p =>
          obtain rfl := step_plain_pointer hStep hPlain hOutcome hTracked
          simp [Seat.say, KvmEvent.call, hOutcome, Kvm.moved]

/-- By induction on the run: the client's position and the pointer stay the same, so that the next
button keyword presses where the last pointer keyword said. -/
theorem said_of_runs {events : List (KvmEvent F)} (run : Runs Kvm.step Any {} events s)
    (hPlain : ∀ event ∈ events, isPlain event.call = true) : s.Said (events.map KvmEvent.call) := by
  induction run with
  | nil => exact ⟨rfl, rfl⟩
  | snoc prior _ last ih =>
      rw [List.map_append]
      exact said_step (ih fun event h => hPlain event (by simp [h])) last (hPlain _ (by simp))

/-- When all a suite's keywords do as they say, what the compositor sees of the pointer and the buttons is what they
say: each press, release and click at the position that the last pointer keyword returned. -/
theorem plain_suite_on_wire {sqrt : Double → Double} (hSqrt : Rooted sqrt) (answers : ℕ → Answers Double)
    (suite : KvmSuite Double) {c : Self Double} (hNew : c.attributes.extra = none ∧ c.attributes.sent = []) :
    let w := state ((suite.exec fun n => KvmCommand.run (doubles sqrt) (answers n)).run ⟨c, []⟩)
    (∀ call ∈ w.log, isPlain call = true) → seat w.state.attributes.sent = said w.log := by
  intro w hPlain
  obtain ⟨events, s, run, hLog, hOf⟩ := keeps_onWire hSqrt answers suite ⟨c, []⟩ (onWire_new hNew)
  have hSaid := said_of_runs run fun event h => hPlain event.call (hLog ▸ List.mem_map_of_mem h)
  rw [hOf.2, hSaid.1, hLog]

/-- Both clicks are made in the centre of what was found. -/
theorem plain_suite_on_wire_half : seat (state runHalfTitle).state.attributes.sent =
    ⟨some (70, 50), stroke (70, 50) ++ stroke (70, 50)⟩ := by
  have hPlain : ∀ call ∈ (state runHalfTitle).log, isPlain call = true := by decide +kernel
  have hSaid : said (state runHalfTitle).log = ⟨some (70, 50), stroke (70, 50) ++ stroke (70, 50)⟩ := by
    decide +kernel
  rw [← hSaid]
  exact plain_suite_on_wire rooted_wholeSqrt (fun _ => quietAnswers) halfTitle (c := vga) ⟨rfl, rfl⟩ hPlain

end Plain

end MirCi.Robot
