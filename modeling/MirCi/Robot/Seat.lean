import MirCi.Robot.WaylandHid

/-! What a compositor makes of the requests of a virtual pointer: where its pointer is, and where
it was at every press and release of a button. The events that reach the client may say anything,
and any call may raise. -/
namespace MirCi.Robot

open Python Semantics Effect Wayland Wayland.VirtualPointer

/-- A request for a button, and where the pointer was at it. -/
structure Press where
  button : ℤ
  state : ℤ
  point : Option Position
  deriving DecidableEq, Repr

/-- The pointer on the side of the compositor. -/
structure Seat where
  pointer : Option Position := none
  presses : List Press := []
  deriving DecidableEq, Repr

def Seat.see (s : Seat) : PointerRequest → Seat
  | .motionAbsolute x y _ _ => { s with pointer := some (x, y) }
  | .button button state => { s with presses := s.presses ++ [⟨button, state, s.pointer⟩] }
  | .frame => s

def seat (requests : List PointerRequest) : Seat := requests.foldl Seat.see {}

theorem seat_append (requests : List PointerRequest) (r : PointerRequest) :
    seat (requests ++ [r]) = (seat requests).see r := by
  rw [seat, List.foldl_append]
  rfl

namespace WaylandHid

section Seat

variable {F : Type} {A : Arithmetic F} {tracked pointer : Option Position} {presses : List Press}

/-- The position the client keeps, and its seat. -/
def OnSeat (tracked : Option Position) (s : Seat) (c : Self F) : Prop :=
  c.attributes.extra = tracked ∧ seat c.attributes.sent = s

/-- The presses, wherever the pointer is by now. -/
def Pressed (presses : List Press) (c : Self F) : Prop := (seat c.attributes.sent).presses = presses

/-- The position the client keeps and the presses, wherever the pointer is by now. -/
def Somewhere (tracked : Option Position) (presses : List Press) (c : Self F) : Prop :=
  ∃ pointer, OnSeat tracked ⟨pointer, presses⟩ c

theorem OnSeat.pressed {s : Seat} {c : Self F} (h : OnSeat tracked s c) : Pressed s.presses c := by
  rw [Pressed, h.2]

theorem OnSeat.somewhere {s : Seat} {c : Self F} (h : OnSeat tracked s c) : Somewhere tracked s.presses c := ⟨s.pointer, h⟩

theorem Somewhere.pressed {c : Self F} (h : Somewhere tracked presses c) : Pressed presses c := by
  obtain ⟨_, h⟩ := h
  exact h.pressed

theorem unmoved_onSeat {s : Seat} : Unmoved (OnSeat tracked s : Self F → Prop) where
  created _ _ h := h
  printed _ _ h := h
  attributes _ _ hExtra hSent _ h := ⟨hExtra.trans h.1, hSent ▸ h.2⟩

theorem keeps_connect_onSeat {s : Seat} (answers : Answers F) :
    Keeps (OnSeat tracked s) (connect A answers.connecting answers.closing) :=
  keeps_connect (P := fun a => a.extra = tracked ∧ seat a.sent = s)
    fun _ _ hExtra hSent h => ⟨hExtra.trans h.1, hSent ▸ h.2⟩

theorem triple_request_onSeat {s : Seat} (r : PointerRequest) (raises : Option Exc) :
    Triple (OnSeat tracked s : Self F → Prop) (request r raises) (fun _ => OnSeat tracked (s.see r))
      (OnSeat tracked s) := by
  refine triple_outside_bind (fun _ _ h => h) fun _ => triple_modify fun c h => ⟨h.1, ?_⟩
  rw [seat_append, h.2]

/-- The frame and the roundtrip after a request. -/
theorem keeps_frame_onSeat {s : Seat} (a : Sending) :
    Keeps (OnSeat tracked s : Self F → Prop) (do request .frame a.frame; receive (handle A) a.roundtrip) := by
  refine keeps_bind (fun c h => ?_) fun _ => unmoved_onSeat.receive fun event _ => keeps_handle unmoved_onSeat event
  have hFrame := triple_request_onSeat (s := s) .frame a.frame c h
  cases hRun : (request .frame a.frame : Method (Self F) Unit).run c <;> rw [hRun] at hFrame <;> exact hFrame

/-- A move that returns has moved the pointer, and none presses a button. -/
theorem triple_move_onSeat {x y : Number F} (a : Sending) :
    Triple (OnSeat tracked ⟨pointer, presses⟩ : Self F → Prop) (moveToAbsolute A x y a)
      (fun _ c => ∃ left top, x.toInt A = .ok left ∧ y.toInt A = .ok top ∧
        OnSeat tracked ⟨some (left, top), presses⟩ c)
      (Somewhere tracked presses) := by
  have hStays (c : Self F) (h : OnSeat tracked ⟨pointer, presses⟩ c) : Somewhere tracked presses c := h.somewhere
  refine triple_get_bind fun c => ?_
  dsimp only
  refine triple_require_bind (fun _ => hStays) fun _ => triple_require_bind (fun _ => hStays) fun _ => ?_
  refine triple_require_bind (fun _ => hStays) fun _ => triple_require_bind (fun _ => hStays) fun _ => ?_
  refine triple_require_bind (fun _ => hStays) fun _ => triple_compute_bind (fun _ _ => hStays) fun left hLeft => ?_
  refine triple_compute_bind (fun _ _ => hStays) fun top hTop => ?_
  refine triple_bind ((triple_request_onSeat _ _).mono (fun _ _ h => h) hStays) fun _ => ?_
  exact triple_of_keeps (keeps_frame_onSeat a) (fun _ c h => ⟨left, top, hLeft, hTop, h⟩) fun c h => h.somewhere

/-- A request for a button is made where the pointer is, or not at all. -/
theorem triple_button_onSeat (button : ℤ) (down : Bool) (a : Sending) :
    Triple (OnSeat tracked ⟨pointer, presses⟩ : Self F → Prop) (VirtualPointer.button A button down a)
      (fun _ => OnSeat tracked ⟨pointer, presses ++ [⟨button, if down then 1 else 0, pointer⟩]⟩)
      fun c => OnSeat tracked ⟨pointer, presses⟩ c ∨
        OnSeat tracked ⟨pointer, presses ++ [⟨button, if down then 1 else 0, pointer⟩]⟩ c := by
  refine triple_get_bind fun c => triple_require_bind (fun _ c h => .inl h) fun _ => ?_
  refine triple_bind ((triple_request_onSeat _ _).mono (fun _ _ h => h) fun c h => .inl h) fun _ => ?_
  exact triple_of_keeps (keeps_frame_onSeat a) (fun _ _ h => h) fun c h => .inr h

/-- Requests for buttons that are made at a point. -/
def touches (pointer : Option Position) (requests : List (Button × Bool)) : List Press :=
  requests.map fun r => ⟨code r.1, if r.2 then 1 else 0, pointer⟩

/-- Requests in a row: where they go wrong, the first of them were made. -/
theorem triple_buttons_onSeat (requests : List ((Button × Bool) × Sending)) :
    Triple (OnSeat tracked ⟨pointer, presses⟩ : Self F → Prop)
      (forM requests fun r => VirtualPointer.button A (code r.1.1) r.1.2 r.2)
      (fun _ => OnSeat tracked ⟨pointer, presses ++ touches pointer (requests.map Prod.fst)⟩)
      fun c => ∃ n, OnSeat tracked ⟨pointer, presses ++ touches pointer ((requests.map Prod.fst).take n)⟩ c := by
  induction requests generalizing presses with
  | nil => exact triple_pure () fun c h => by simpa [touches] using h
  | cons r rest ih =>
      rw [List.forM_cons]
      refine triple_bind ((triple_button_onSeat _ _ _).mono (fun _ _ h => h) fun c h => ?_) fun _ => ?_
      · rcases h with h | h
        · exact ⟨0, by simpa [touches] using h⟩
        · exact ⟨1, by simpa [touches] using h⟩
      · refine ih.mono (fun _ c h => ?_) fun c h => ?_
        · simpa [touches] using h
        · obtain ⟨n, h⟩ := h
          exact ⟨n + 1, by simpa [touches] using h⟩

/-- The requests of a click, where it was made. -/
def stroke (p : Position) : List Press := [⟨code .left, 1, some p⟩, ⟨code .left, 0, some p⟩]

/-- A keyword that makes some requests for buttons. -/
theorem triple_touch_onSeat (answers : Answers F) (requests : List ((Button × Bool) × Sending)) :
    Triple (OnSeat tracked ⟨pointer, presses⟩ : Self F → Prop)
      (do
        connect A answers.connecting answers.closing
        forM requests fun r => VirtualPointer.button A (code r.1.1) r.1.2 r.2)
      (fun _ => OnSeat tracked ⟨pointer, presses ++ touches pointer (requests.map Prod.fst)⟩)
      fun c => ∃ n, OnSeat tracked ⟨pointer, presses ++ touches pointer ((requests.map Prod.fst).take n)⟩ c := by
  refine triple_after_keeps (keeps_connect_onSeat answers) (fun c h => ⟨0, ?_⟩) fun _ => triple_buttons_onSeat requests
  simpa [touches] using h

/-- What a click of a named button does. -/
theorem clickPointerButton_eq {b : Button} {name : String} (h : Button.named name = .ok b) (answers : Answers F) :
    clickPointerButton A name answers = (do
      connect A answers.connecting answers.closing
      forM [((b, true), answers.send 0), ((b, false), answers.send 1)] fun r =>
        VirtualPointer.button A (code r.1.1) r.1.2 r.2) := by
  simp [clickPointerButton, h, compute]

/-- Where a click goes wrong, there was the press, or nothing, or all of it. -/
theorem triple_click_onSeat {p : Position} (answers : Answers F) :
    Triple (OnSeat tracked ⟨some p, presses⟩ : Self F → Prop) (clickPointerButton A "LEFT" answers)
      (fun _ => OnSeat tracked ⟨some p, presses ++ stroke p⟩)
      fun c => ∃ part, part <+: stroke p ∧ Pressed (presses ++ part) c := by
  rw [clickPointerButton_eq (b := .left) rfl]
  refine (triple_touch_onSeat answers _).mono (fun _ c h => h) fun c h => ?_
  obtain ⟨n, h⟩ := h
  refine ⟨(stroke p).take n, List.take_prefix _ _, ?_⟩
  have hPart : touches (some p) ([(Button.left, true), (Button.left, false)].take n) = (stroke p).take n := List.map_take
  rw [← hPart]
  exact h.pressed

theorem triple_movePointer_onSeat (p : Position) {s : Seat} (answers : Answers F) :
    Triple (OnSeat tracked s : Self F → Prop) (movePointerToAbsolute A p answers)
      (fun _ => OnSeat (some p) ⟨some p, s.presses⟩) (Somewhere tracked s.presses) := by
  refine triple_after_keeps (keeps_connect_onSeat answers) (fun _ h => h.somewhere) fun _ => ?_
  refine triple_bind (triple_move_onSeat answers.move) fun _ => triple_modify fun c h => ?_
  obtain ⟨left, top, hLeft, hTop, -, hSeat⟩ := h
  cases hLeft
  cases hTop
  exact ⟨rfl, hSeat⟩

/-- Doubles hold both coordinates exactly. -/
def Pixels (p : Position) : Prop := |p.1| < 2 ^ 53 ∧ |p.2| < 2 ^ 53

/-- A walk that is not cut short ends exactly at its target, and does not move where it starts there. -/
structure Arrives (A : Arithmetic F) (stepDistance : ℤ) (p q : Position) : Prop where
  stays : ∀ d, distance A p q = .ok d → (isZero A d = true ↔ p = q)
  steps : ∀ d n, distance A p q = .ok d → stepCount A d stepDistance = .ok n → 0 ≤ n
  last : Pixels q → ∀ n point left top, walkPoint A p q n n = .ok point → A.toInt point.1 = .ok left →
    A.toInt point.2 = .ok top → (left, top) = q

theorem triple_walkStep_onSeat {p q : Position} {steps : ℤ} {delay : F} {answers : Answers F} (k : ℕ) :
    Triple (OnSeat (some p) ⟨pointer, presses⟩ : Self F → Prop) (walkStep A (hand A delay answers) q steps k)
      (fun _ c => ∃ point left top, walkPoint A p q steps k = .ok point ∧ A.toInt point.1 = .ok left ∧
        A.toInt point.2 = .ok top ∧ OnSeat (some p) ⟨some (left, top), presses⟩ c)
      (Somewhere (some p) presses) := by
  refine triple_get_bind_of fun c h => ?_
  have hPosition : (hand A delay answers).position c = some p := h.1
  rw [hPosition]
  refine triple_compute_bind (fun e he => by cases he) fun _ hKnown => ?_
  obtain rfl := Except.ok.inj hKnown
  refine triple_compute_bind (fun _ _ _ h => h.somewhere) fun point hPoint => ?_
  refine triple_bind (triple_move_onSeat (answers.send k)) fun _ => ?_
  refine triple_exists fun left => triple_exists fun top => triple_and fun hLeft => triple_and fun hTop => ?_
  have hSleep : Keeps (OnSeat (some p) ⟨some (left, top), presses⟩ : Self F → Prop)
      ((methods A).sleep (answers.sleep delay k)) :=
    Methods.keeps_sleep (P := fun a : VirtualPointer F (Option Position) => a.extra = some p ∧
      seat a.sent = ⟨some (left, top), presses⟩) fun _ _ event _ => keeps_handle unmoved_onSeat event
  exact triple_of_keeps hSleep (fun _ c h => ⟨point, left, top, hPoint, hLeft, hTop, h⟩) fun c h => h.somewhere

/-- After so many steps of a walk. -/
def OnWalk (A : Arithmetic F) (p q : Position) (m : ℤ) (pointer : Option Position) (presses : List Press) :
    ℕ → Self F → Prop
  | 0, c => OnSeat (some p) ⟨pointer, presses⟩ c
  | k + 1, c => ∃ point left top, walkPoint A p q m k = .ok point ∧ A.toInt point.1 = .ok left ∧
      A.toInt point.2 = .ok top ∧ OnSeat (some p) ⟨some (left, top), presses⟩ c

theorem somewhere_of_onWalk {p q : Position} {m : ℤ} {k : ℕ} {c : Self F}
    (h : OnWalk A p q m pointer presses k c) : Somewhere (some p) presses c := by
  cases k with
  | zero => exact h.somewhere
  | succ k =>
      obtain ⟨_, _, _, -, -, -, h⟩ := h
      exact h.somewhere

/-- After a walk from `p` to `q`: the pointer was moved to the target if that is a double, or not moved. -/
def Arrived (p q : Position) (pointer : Option Position) (presses : List Press) (c : Self F) : Prop :=
  ∃ final, (Pixels q → final = q) ∧ OnSeat (some q) ⟨if p = q then pointer else some final, presses⟩ c

/-- Whether the walk moved the pointer or found it there, it is at the target. -/
theorem Arrived.at_target {p q : Position} {c : Self F} (h : Arrived p q (some p) presses c) :
    ∃ final, (Pixels q → final = q) ∧ OnSeat (some q) ⟨some final, presses⟩ c := by
  obtain ⟨final, hFinal, hSeat⟩ := h
  split at hSeat
  · rename_i hSame
    exact ⟨q, fun _ => rfl, hSame ▸ hSeat⟩
  · exact ⟨final, hFinal, hSeat⟩

/-- A walk once its start is known. -/
theorem triple_walkFrom_onSeat {p q : Position} {stepDistance : ℤ} {delay : F} (answers : Answers F)
    (hArrives : Arrives A stepDistance p q) :
    Triple (OnSeat (some p) ⟨pointer, presses⟩ : Self F → Prop)
      (do
        let p ← compute (known ((hand A delay answers).position (← get)))
        let distance ← compute (distance A p q)
        when (isZero A distance = false) do
          let steps ← compute (stepCount A distance stepDistance)
          forM (List.range (steps + 1).toNat) (walkStep A (hand A delay answers) q steps)
          modify ((hand A delay answers).setPosition q))
      (fun _ => Arrived p q pointer presses) (Somewhere (some p) presses) := by
  have hStays (c : Self F) (h : OnSeat (some p) ⟨pointer, presses⟩ c) : Somewhere (some p) presses c := h.somewhere
  refine triple_get_bind_of fun c h => ?_
  have hPosition : (hand A delay answers).position c = some p := h.1
  rw [hPosition]
  refine triple_compute_bind (fun e he => by cases he) fun _ hKnown => ?_
  obtain rfl := Except.ok.inj hKnown
  refine triple_compute_bind (fun _ _ => hStays) fun d hDistance => triple_when (fun hApart => ?_) fun hHere c h => ?_
  · have hNot : p ≠ q := fun hSame => by simp [(hArrives.stays d hDistance).mpr hSame] at hApart
    refine triple_compute_bind (fun _ _ => hStays) fun steps hSteps => ?_
    obtain ⟨m, rfl⟩ := Int.eq_ofNat_of_zero_le (hArrives.steps d steps hDistance hSteps)
    have hLoop : Triple (OnWalk A p q m pointer presses 0)
        (forM (List.range (m + 1)) (walkStep A (hand A delay answers) q m))
        (fun _ => OnWalk A p q m pointer presses (m + 1)) (Somewhere (some p) presses) :=
      triple_forM_range fun k _ c h =>
        triple_exists (fun _ => triple_walkStep_onSeat k) c (somewhere_of_onWalk h)
    refine triple_bind hLoop fun _ => triple_modify fun c h => ?_
    obtain ⟨point, left, top, hPoint, hLeft, hTop, -, hSeat⟩ := h
    refine ⟨(left, top), fun hPixels => hArrives.last hPixels m point left top hPoint hLeft hTop, rfl, ?_⟩
    rw [if_neg hNot]
    exact hSeat
  · obtain rfl := (hArrives.stays d hDistance).mp (by simpa using hHere)
    exact ⟨p, fun _ => rfl, by rwa [if_pos rfl]⟩

/-- A walk from where the client takes the pointer to be. -/
theorem triple_walk_onSeat {p q : Position} {stepDistance : ℤ} {delay : F} (answers : Answers F)
    (hArrives : 0 < stepDistance → Arrives A stepDistance p q) :
    Triple (OnSeat (some p) ⟨pointer, presses⟩ : Self F → Prop) (walk A (hand A delay answers) q stepDistance)
      (fun _ => Arrived p q pointer presses) (Somewhere (some p) presses) := by
  refine triple_require_bind (fun _ _ h => h.somewhere) fun hPositive => ?_
  have hLocate : Triple (OnSeat (some p) ⟨pointer, presses⟩ : Self F → Prop) (locate (hand A delay answers))
      (fun _ => OnSeat (some p) ⟨pointer, presses⟩) (Somewhere (some p) presses) := by
    refine triple_get_bind_of fun c h => triple_when (fun hNone => ?_) fun _ _ h => h
    cases h.1.symm.trans hNone
  exact triple_bind hLocate fun _ => triple_walkFrom_onSeat answers (hArrives hPositive)

/-- A walk from nowhere. It may have come as far as to take the origin for its position. -/
theorem triple_walk_nowhere {q : Position} {stepDistance : ℤ} {delay : F} (answers : Answers F)
    (hArrives : 0 < stepDistance → Arrives A stepDistance (0, 0) q) :
    Triple (OnSeat none ⟨pointer, presses⟩ : Self F → Prop) (walk A (hand A delay answers) q stepDistance)
      (fun _ c => ∃ final, (Pixels q → final = q) ∧ OnSeat (some q) ⟨some final, presses⟩ c)
      fun c => Somewhere none presses c ∨ Somewhere (some (0, 0)) presses c := by
  refine triple_require_bind (fun _ c h => .inl h.somewhere) fun hPositive => ?_
  have hLocate : Triple (OnSeat none ⟨pointer, presses⟩ : Self F → Prop) (locate (hand A delay answers))
      (fun _ => OnSeat (some (0, 0)) ⟨some (0, 0), presses⟩)
      fun c => Somewhere none presses c ∨ Somewhere (some (0, 0)) presses c := by
    refine triple_get_bind_of fun c h => triple_when (fun _ => ?_) fun hSome => absurd h.1 hSome
    have hSet : Triple (OnSeat none ⟨pointer, presses⟩ : Self F → Prop) (modify (setPosition (0, 0)) : Method (Self F) Unit)
        (fun _ => OnSeat (some (0, 0)) ⟨pointer, presses⟩)
        fun c => Somewhere none presses c ∨ Somewhere (some (0, 0)) presses c := triple_modify fun c h => ⟨rfl, h.2⟩
    refine triple_bind hSet fun _ => (triple_move_onSeat answers.move).mono (fun _ c h => ?_) fun c h => .inr h
    obtain ⟨left, top, hLeft, hTop, hSeat⟩ := h
    cases hLeft
    cases hTop
    exact hSeat
  refine triple_bind hLocate fun _ => ?_
  exact (triple_walkFrom_onSeat answers (hArrives hPositive)).mono (fun _ _ h => h.at_target) fun c h => .inr h

theorem triple_walkPointer_onSeat {p q : Position} {stepDistance : ℤ} {delay : F} (answers : Answers F)
    (hArrives : 0 < stepDistance → Arrives A stepDistance p q) :
    Triple (OnSeat (some p) ⟨pointer, presses⟩ : Self F → Prop)
      (walkPointerToAbsolute A q stepDistance delay answers)
      (fun _ => Arrived p q pointer presses) (Somewhere (some p) presses) :=
  triple_after_keeps (keeps_connect_onSeat answers) (fun _ h => h.somewhere) fun _ => triple_walk_onSeat answers hArrives

end Seat

end WaylandHid

end MirCi.Robot
