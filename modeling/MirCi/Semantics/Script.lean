import Mathlib.Tactic

/-! Programs that leave a trace of events and may stop with an error. What
happened before the error stays in the trace. -/
namespace Semantics

/-- What running a program comes to: the events it leaves, oldest first, and what it
returns or stops with. Nothing is said of the state the events are about. -/
structure Script (Event ε α : Type) where
  events : List Event := []
  result : Except ε α

namespace Script

variable {Event ε ε' α β γ δ : Type}

/-- Leave the events and go on. -/
def report (events : List Event) : Script Event ε Unit := { events, result := .ok () }

/-- Stop. No event is left, and what would follow is not run. -/
def raise (e : ε) : Script Event ε α := { result := .error e }

/-- A computation that leaves no event. -/
def lift (x : Except ε α) : Script Event ε α := { result := x }

/-- Go on with what the first program returns. If it stops instead, its events stay
in the trace and the second program leaves none. -/
def andThen (x : Script Event ε α) (f : α → Script Event ε β) : Script Event ε β :=
  match x.result with
  | .ok a => { events := x.events ++ (f a).events, result := (f a).result }
  | .error e => { events := x.events, result := .error e }

instance : Monad (Script Event ε) where
  pure a := { result := .ok a }
  bind := andThen

/-- The two traces one after the other, when the first program returns. -/
theorem bind_of_ok {x : Script Event ε α} {a : α} (h : x.result = .ok a)
    (f : α → Script Event ε β) :
    x >>= f = { events := x.events ++ (f a).events, result := (f a).result } := by
  change x.andThen f = _
  rw [andThen, h]

/-- An error ends the whole program: the continuation is never looked at, whatever it
would do with a value. -/
theorem bind_of_error {x : Script Event ε α} {e : ε} (h : x.result = .error e)
    (f : α → Script Event ε β) : x >>= f = { events := x.events, result := .error e } := by
  change x.andThen f = _
  rw [andThen, h]

@[simp] theorem pure_bind (a : α) (f : α → Script Event ε β) : pure a >>= f = f a := by
  rw [bind_of_ok (a := a) rfl]
  rfl

/-- Where the parentheses stand matters neither for the trace nor for the error. -/
theorem bind_assoc (x : Script Event ε α) (f : α → Script Event ε β) (g : β → Script Event ε γ) :
    x >>= f >>= g = x >>= fun a => f a >>= g := by
  cases hx : x.result with
  | error e => rw [bind_of_error hx, bind_of_error hx, bind_of_error rfl]
  | ok a =>
      rw [bind_of_ok hx, bind_of_ok hx]
      cases hf : (f a).result with
      | error e =>
          rw [bind_of_error hf]
          exact bind_of_error rfl g
      | ok b =>
          rw [bind_of_ok hf, bind_of_ok (a := b) rfl, List.append_assoc]

@[simp] theorem result_pure (a : α) : (pure a : Script Event ε α).result = .ok a := rfl

@[simp] theorem result_report (events : List Event) :
    (report events : Script Event ε Unit).result = .ok () := rfl

@[simp] theorem result_raise (e : ε) : (raise e : Script Event ε α).result = .error e := rfl

@[simp] theorem result_lift (x : Except ε α) : (lift x : Script Event ε α).result = x := rfl

/-- The same program, its events seen as others. -/
def mapEvents {Event' : Type} (f : Event → Event') (x : Script Event ε α) : Script Event' ε α where
  events := x.events.map f
  result := x.result

/-- A composed program returns only through a value of its first part. The events are
left out here on purpose; they are counted below. -/
theorem bind_ok {x : Script Event ε α} {f : α → Script Event ε β} {b : β} :
    (x >>= f).result = .ok b ↔ ∃ a, x.result = .ok a ∧ (f a).result = .ok b := by
  cases h : x.result with
  | ok a =>
      rw [bind_of_ok h]
      simp
  | error e =>
      rw [bind_of_error h]
      simp

/-! ### What a program may stop with -/

/-- If the program stops, the error is one of these. That it stops is not said, nor
that each of these errors can come up. -/
def Ends (allowed : ε → Prop) (x : Script Event ε α) : Prop := ∀ e, x.result = .error e → allowed e

/-- The program runs to its end. -/
def Returns (x : Script Event ε α) : Prop := ∃ a, x.result = .ok a

instance (x : Script Event ε α) : Decidable x.Returns :=
  match h : x.result with
  | .ok a => isTrue ⟨a, h⟩
  | .error e => isFalse fun ⟨_, hOk⟩ => by rw [h] at hOk; cases hOk

section Ends

variable {allowed : ε → Prop}

@[simp] theorem ends_pure (a : α) : (pure a : Script Event ε α).Ends allowed := nofun

/-- The continuation has to be looked at only for what the first program can return. -/
theorem ends_bind {x : Script Event ε α} {f : α → Script Event ε β} :
    (x >>= f).Ends allowed ↔ x.Ends allowed ∧ ∀ a, x.result = .ok a → (f a).Ends allowed := by
  cases h : x.result with
  | ok a =>
      rw [bind_of_ok h]
      simp [Ends, h]
  | error e =>
      rw [bind_of_error h]
      simp [Ends, h]

end Ends

@[simp] theorem returns_pure (a : α) : (pure a : Script Event ε α).Returns := ⟨a, rfl⟩

@[simp] theorem returns_report (events : List Event) :
    (report events : Script Event ε Unit).Returns := ⟨(), rfl⟩

/-- The composition runs to its end when the first program does, and then the second one
does from the value of the first. -/
theorem returns_bind {x : Script Event ε α} {f : α → Script Event ε β} :
    (x >>= f).Returns ↔ ∃ a, x.result = .ok a ∧ (f a).Returns := by
  simp only [Returns, bind_ok]
  constructor
  · rintro ⟨b, a, hFirst, hNext⟩
    exact ⟨a, hFirst, b, hNext⟩
  · rintro ⟨a, hFirst, b, hNext⟩
    exact ⟨b, a, hFirst, hNext⟩

/-! ### How often a program leaves an event of a kind -/

section Count

variable {kind : Event → Bool}

/-- How many of the events are of the kind, those before an error included. -/
def count (kind : Event → Bool) (x : Script Event ε α) : ℕ := x.events.countP kind

/-- None of the events is of the kind. -/
theorem count_mapEvents {Event' : Type} {f : Event' → Event} (h : ∀ event, kind (f event) = false)
    (x : Script Event' ε α) : (x.mapEvents f).count kind = 0 := by
  rw [count, mapEvents, List.countP_map, List.countP_eq_zero]
  intro event _
  simp [h event]

/-- The first program leaves none: what is left is left by the second. -/
theorem count_bind {x : Script Event ε α} {f : α → Script Event ε β} (hFirst : x.count kind = 0) :
    (x >>= f).count kind = match x.result with
      | .ok a => (f a).count kind
      | .error _ => 0 := by
  rw [count] at hFirst
  cases h : x.result with
  | ok a =>
      rw [bind_of_ok h, count, List.countP_append, hFirst, Nat.zero_add]
      rfl
  | error e =>
      rw [bind_of_error h]
      exact hFirst

/-- The second program leaves none: what is left is left by the first. -/
theorem count_bind_left {x : Script Event ε α} {f : α → Script Event ε β}
    (hNext : ∀ a, (f a).count kind = 0) : (x >>= f).count kind = x.count kind := by
  cases h : x.result with
  | ok a =>
      have hLater := hNext a
      rw [count] at hLater
      rw [bind_of_ok h, count, List.countP_append, hLater, Nat.add_zero]
      rfl
  | error e =>
      rw [bind_of_error h]
      rfl

/-- The first program leaves none: an event of the kind is left exactly when the first
program returns and the second leaves one. -/
theorem count_bind_pos {x : Script Event ε α} {f : α → Script Event ε β}
    (hFirst : x.count kind = 0) :
    0 < (x >>= f).count kind ↔ ∃ a, x.result = .ok a ∧ 0 < (f a).count kind := by
  rw [count_bind hFirst]
  cases h : x.result <;> simp

/-- A bound on the second program bounds the whole, also where the first one stops and the
second is not run. -/
theorem count_bind_le {x : Script Event ε α} {f : α → Script Event ε β} {n : ℕ}
    (hFirst : x.count kind = 0) (hNext : ∀ a, (f a).count kind ≤ n) :
    (x >>= f).count kind ≤ n := by
  rw [count_bind hFirst]
  split
  · exact hNext _
  · exact Nat.zero_le n

end Count

/-! ### Whether a program leaves an event of a kind -/

section Leaves

variable {kind : Event → Prop}

/-- Some event is of the kind, and it does not matter how the program ends after it. -/
def Leaves (kind : Event → Prop) (x : Script Event ε α) : Prop := ∃ event ∈ x.events, kind event

@[simp] theorem leaves_pure (a : α) : ¬ (pure a : Script Event ε α).Leaves kind := by
  rintro ⟨event, hEvent, -⟩
  cases hEvent

@[simp] theorem leaves_raise (e : ε) : ¬ (raise e : Script Event ε α).Leaves kind := by
  rintro ⟨event, hEvent, -⟩
  cases hEvent

@[simp] theorem leaves_lift (x : Except ε α) : ¬ (lift x : Script Event ε α).Leaves kind := by
  rintro ⟨event, hEvent, -⟩
  cases hEvent

@[simp] theorem leaves_report (events : List Event) :
    (report events : Script Event ε Unit).Leaves kind ↔ ∃ event ∈ events, kind event := Iff.rfl

/-- The second program runs if the first one returns. -/
theorem leaves_bind {x : Script Event ε α} {f : α → Script Event ε β} :
    (x >>= f).Leaves kind ↔ x.Leaves kind ∨ ∃ a, x.result = .ok a ∧ (f a).Leaves kind := by
  cases h : x.result with
  | ok a =>
      rw [bind_of_ok h]
      simp [Leaves, or_and_right, exists_or]
  | error e =>
      rw [bind_of_error h]
      simp [Leaves]

theorem leaves_mapEvents {Event' : Type} {f : Event' → Event} {x : Script Event' ε α} :
    (x.mapEvents f).Leaves kind ↔ x.Leaves fun event => kind (f event) := by
  simp [Leaves, mapEvents]

end Leaves

/-! ### Two programs with one trace -/

/-- The programs leave the same events, and either stop with the same error or return
what is related. The relation says nothing of programs that stop. -/
def Alike (R : α → β → Prop) (x : Script Event ε α) (y : Script Event ε β) : Prop :=
  x.events = y.events ∧
    ((∃ a b, x.result = .ok a ∧ y.result = .ok b ∧ R a b) ∨
      ∃ e, x.result = .error e ∧ y.result = .error e)

/-- How a program ends, without what it returns. -/
def outcome (x : Script Event ε α) : Except ε Unit := x.result.map fun _ => ()

section Alike

variable {R : α → β → Prop} {S : γ → δ → Prop}

theorem alike_pure {a : α} {b : β} (h : R a b) :
    Alike R (pure a : Script Event ε α) (pure b) := ⟨rfl, .inl ⟨a, b, rfl, rfl, h⟩⟩

theorem alike_refl (x : Script Event ε α) : Alike (· = ·) x x := by
  refine ⟨rfl, ?_⟩
  cases h : x.result with
  | ok a => exact .inl ⟨a, a, rfl, rfl, rfl⟩
  | error e => exact .inr ⟨e, rfl, rfl⟩

/-- Two results that agree once each is seen through its own function, errors included. -/
theorem alike_lift {x : Except ε α} {y : Except ε β} {f : α → γ} {g : β → γ}
    (h : x.map f = y.map g) :
    Alike (fun a b => f a = g b) (lift x : Script Event ε α) (lift y) := by
  refine ⟨rfl, ?_⟩
  cases x with
  | ok a =>
      cases y with
      | ok b => exact .inl ⟨a, b, rfl, rfl, Except.ok.inj h⟩
      | error e => cases h
  | error e =>
      cases y with
      | ok b => cases h
      | error e' =>
          cases h
          exact .inr ⟨e, rfl, rfl⟩

/-- Programs that are alike stay so when they go on with programs that are alike on all
related values. -/
theorem alike_bind {x : Script Event ε α} {y : Script Event ε β} {f : α → Script Event ε γ}
    {g : β → Script Event ε δ} (hFirst : Alike R x y) (hNext : ∀ a b, R a b → Alike S (f a) (g b)) :
    Alike S (x >>= f) (y >>= g) := by
  obtain ⟨hEvents, ⟨a, b, hx, hy, hRelated⟩ | ⟨e, hx, hy⟩⟩ := hFirst
  · obtain ⟨hLater, hLast⟩ := hNext a b hRelated
    rw [bind_of_ok hx, bind_of_ok hy]
    exact ⟨congrArg₂ (· ++ ·) hEvents hLater, hLast⟩
  · rw [bind_of_error hx, bind_of_error hy]
    exact ⟨hEvents, .inr ⟨e, rfl, rfl⟩⟩

/-- Alike programs end alike. What they return may still differ, within the relation. -/
theorem outcome_of_alike {x : Script Event ε α} {y : Script Event ε β} (h : Alike R x y) :
    x.outcome = y.outcome := by
  obtain ⟨-, ⟨a, b, hx, hy, -⟩ | ⟨e, hx, hy⟩⟩ := h
  · rw [outcome, outcome, hx, hy]
    rfl
  · rw [outcome, outcome, hx, hy]
    rfl

end Alike

end Script

end Semantics
