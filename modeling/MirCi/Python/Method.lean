import MirCi.Python.Exception
import MirCi.Semantics.Effect

/-! Methods of an object: they read and assign its attributes, and what was
assigned stays assigned when they raise. -/
namespace Python

variable {σ τ α : Type}

/-- A method over the attributes of an object. An exception comes with the attributes as they
were when it was raised: nothing is rolled back. -/
abbrev Method (σ α : Type) := EStateM Exc σ α

/-- `assert p, text`. -/
def require (p : Prop) [Decidable p] (text : String) : Method σ Unit :=
  if p then pure () else throw { cls := .assertionError, text }

/-- `if p:` without an `else`. -/
def when (p : Prop) [Decidable p] (x : Method σ Unit) : Method σ Unit :=
  if p then x else pure ()

/-- A call of code outside the repository: what it raises, if anything. What else it does is
left to the state of the caller. -/
def outside : Option Exc → Method σ Unit
  | none => pure ()
  | some e => throw e

/-- A computation that leaves the attributes alone. -/
def compute : Except Exc α → Method σ α
  | .ok a => pure a
  | .error e => throw e

@[simp] theorem require_run_ok {p : Prop} [Decidable p] {text : String} {s t : σ} {u : Unit} :
    (require p text).run s = .ok u t ↔ p ∧ s = t := by
  unfold require
  split <;> simp_all

@[simp] theorem outside_run_ok {raises : Option Exc} {s t : σ} {u : Unit} :
    (outside raises).run s = .ok u t ↔ raises = none ∧ s = t := by
  cases raises <;> simp [outside]

@[simp] theorem compute_run_ok {x : Except Exc α} {a : α} {s t : σ} :
    (compute x).run s = .ok a t ↔ x = .ok a ∧ s = t := by
  cases x with
  | ok b => simp [compute]
  | error e =>
      simp only [compute, reduceCtorEq, false_and, iff_false]
      intro h
      cases h

section Noted

/-- An object, and notes about what happens to it that it does not read. -/
structure Noted (E σ : Type) where
  self : σ
  notes : List E := []

variable {E : Type} {x : Method σ α} {c : Noted E σ} {s : σ}

/-- Make a note. It cannot raise, and the object does not see it. -/
def note (e : E) : Method (Noted E σ) Unit := modify fun c => { c with notes := c.notes ++ [e] }

/-- A method of the object itself. The notes stand aside, also when it raises. -/
def onSelf (x : Method σ α) : Method (Noted E σ) α := fun c =>
  match x.run c.self with
  | .ok a s => .ok a { c with self := s }
  | .error e s => .error e { c with self := s }

theorem onSelf_run_ok {a : α} (h : x.run c.self = .ok a s) :
    (onSelf x).run c = .ok a { c with self := s } := by
  change (match x.run c.self with | .ok a s => _ | .error e s => _) = _
  rw [h]

theorem onSelf_run_error {e : Exc} (h : x.run c.self = .error e s) :
    (onSelf x).run c = .error e { c with self := s } := by
  change (match x.run c.self with | .ok a s => _ | .error e s => _) = _
  rw [h]

end Noted

section Triple

open Semantics.Effect

variable {Pre : σ → Prop} {Post : α → σ → Prop} {Stop : σ → Prop} {x : Method σ α}

/-- An assertion that fails stops with the attributes as they are; what follows may rely on it. -/
theorem triple_require_bind {p : Prop} [Decidable p] {text : String}
    (hStop : ¬p → ∀ s, Pre s → Stop s) (h : p → Triple Pre x Post Stop) :
    Triple Pre (require p text >>= fun _ => x) Post Stop := by
  intro s hPre
  rw [EStateM.run_bind]
  by_cases hp : p
  · rw [require, if_pos hp]
    exact h hp s hPre
  · rw [require, if_neg hp]
    exact hStop hp s hPre

theorem triple_when {p : Prop} [Decidable p] {x : Method σ Unit} {Last : Unit → σ → Prop}
    (h : p → Triple Pre x Last Stop) (hElse : ¬p → ∀ s, Pre s → Last () s) :
    Triple Pre (when p x) Last Stop := by
  unfold when
  split
  · exact h ‹_›
  · exact triple_pure () (hElse ‹_›)

/-- A call outside may raise. What follows runs only if it did not. -/
theorem triple_outside_bind {raises : Option Exc}
    (hStop : raises ≠ none → ∀ s, Pre s → Stop s) (h : raises = none → Triple Pre x Post Stop) :
    Triple Pre (outside raises >>= fun _ => x) Post Stop := by
  intro s hPre
  rw [EStateM.run_bind]
  cases raises with
  | none => exact h rfl s hPre
  | some e => exact hStop (by simp) s hPre

theorem triple_outside {raises : Option Exc} {Last : Unit → σ → Prop}
    (hStop : raises ≠ none → ∀ s, Pre s → Stop s) (h : raises = none → ∀ s, Pre s → Last () s) :
    Triple Pre (outside raises) Last Stop := by
  intro s hPre
  cases raises with
  | none => exact h rfl s hPre
  | some e => exact hStop (by simp) s hPre

/-- What follows gets the value, and knows what it is the value of. -/
theorem triple_compute_bind {β : Type} {value : Except Exc β} {f : β → Method σ α}
    (hStop : ∀ e, value = .error e → ∀ s, Pre s → Stop s)
    (h : ∀ b, value = .ok b → Triple Pre (f b) Post Stop) :
    Triple Pre (compute value >>= f) Post Stop := by
  intro s hPre
  rw [EStateM.run_bind]
  cases value with
  | ok b => exact h b rfl s hPre
  | error e => exact hStop e rfl s hPre

end Triple

section Keeps

open Semantics.Effect

variable {Inv : σ → Prop}

theorem keeps_require {p : Prop} [Decidable p] {text : String} :
    Keeps Inv (require p text : Method σ Unit) :=
  keeps_ite (fun _ => keeps_pure ()) fun _ => keeps_throw _

theorem keeps_when {p : Prop} [Decidable p] {x : Method σ Unit} (h : Keeps Inv x) :
    Keeps Inv (when p x) :=
  keeps_ite (fun _ => h) fun _ => keeps_pure ()

theorem keeps_outside {raises : Option Exc} : Keeps Inv (outside raises : Method σ Unit) := by
  cases raises with
  | none => exact keeps_pure ()
  | some e => exact keeps_throw e

theorem keeps_compute {x : Except Exc α} : Keeps Inv (compute x : Method σ α) := by
  cases x with
  | ok a => exact keeps_pure a
  | error e => exact keeps_throw e

/-- Keeping an invariant asks nothing of a computation that raises. -/
theorem keeps_compute_bind {β : Type} {x : Except Exc β} {f : β → Method σ α}
    (h : ∀ b, x = .ok b → Keeps Inv (f b)) : Keeps Inv (compute x >>= f) := by
  cases x with
  | ok b => exact h b rfl
  | error e => exact keeps_throw e

end Keeps

section Throws

open Semantics.Effect

variable {P : Exc → Prop}

theorem throws_require {p : Prop} [Decidable p] {text : String}
    (h : P { cls := .assertionError, text }) : Throws P (require p text : Method σ Unit) :=
  throws_ite (fun _ => throws_pure ()) fun _ => throws_throw h

theorem throws_when {p : Prop} [Decidable p] {x : Method σ Unit} (h : p → Throws P x) :
    Throws P (when p x) := throws_ite h fun _ => throws_pure ()

theorem throws_outside {raises : Option Exc} (h : ∀ e ∈ raises, P e) :
    Throws P (outside raises : Method σ Unit) := by
  cases raises with
  | none => exact throws_pure ()
  | some e => exact throws_throw (h e rfl)

theorem throws_compute {x : Except Exc α} (h : ∀ e, x = .error e → P e) :
    Throws P (compute x : Method σ α) := by
  cases x with
  | ok a => exact throws_pure a
  | error e => exact throws_throw (h e rfl)

/-- What the object raises is all that is raised: notes add no exception of their own. -/
theorem throws_onSelf {E : Type} {x : Method σ α} (h : Throws P x) :
    Throws P (onSelf x : Method (Noted E σ) α) := by
  intro c e c' hRun
  cases hSelf : x.run c.self with
  | ok a s => cases (onSelf_run_ok hSelf).symm.trans hRun
  | error e' s =>
      cases (onSelf_run_error hSelf).symm.trans hRun
      exact h _ _ _ hSelf

end Throws

section Follows

open Semantics.Effect

variable {R : σ → τ → Prop}

theorem follows_require {p : Prop} [Decidable p] {text : String} :
    Follows R (require p text) (require p text) := by
  unfold require
  split
  · exact follows_pure ()
  · exact follows_throw _ _

/-- Two objects take the same branch if their conditions agree. The conditions themselves may
read different attributes. -/
theorem follows_when {p q : Prop} [Decidable p] [Decidable q] {x : Method σ Unit} {y : Method τ Unit}
    (hSame : p ↔ q) (h : Follows R x y) : Follows R (when p x) (when q y) := by
  unfold when
  by_cases hp : p
  · rw [if_pos hp, if_pos (hSame.mp hp)]
    exact h
  · rw [if_neg hp, if_neg (fun hq => hp (hSame.mpr hq))]
    exact follows_pure ()

/-- The same computation has one outcome for both objects. -/
theorem follows_compute (x : Except Exc α) : Follows R (compute x) (compute x) := by
  cases x with
  | ok a => exact follows_pure a
  | error e => exact follows_throw _ _

end Follows

end Python
