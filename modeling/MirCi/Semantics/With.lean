import MirCi.Semantics.Script

/-! Blocks around a program, one inside another. What is entered is left again, the last one
first, whatever the program in the blocks comes to. -/
namespace Semantics.Script

variable {Event ε α : Type}

/-- What is done on the way into a block and out of it. -/
structure Guard (Event ε : Type) where
  enter : Script Event ε Unit
  leave : Script Event ε Unit

/-- `y` runs after `x`, whether or not `x` fails, and an error of its own takes the place of that of `x`. -/
def ensure (x : Script Event ε α) (y : Script Event ε Unit) : Script Event ε α where
  events := x.events ++ y.events
  result := match y.result with
    | .ok _ => x.result
    | .error e => .error e

/-- A block around a program. It is only left when it was entered. -/
def within (guard : Guard Event ε) (x : Script Event ε α) : Script Event ε α :=
  guard.enter >>= fun _ => x.ensure guard.leave

/-- The first block is the outermost. -/
def nest (guards : List (Guard Event ε)) (x : Script Event ε α) : Script Event ε α := guards.foldr within x

section Nest

variable {guard : Guard Event ε} {guards rest : List (Guard Event ε)} {x : Script Event ε α}

theorem returns_ensure {y : Script Event ε Unit} : (x.ensure y).Returns ↔ x.Returns ∧ y.Returns := by
  cases h : y.result <;> simp [Returns, ensure, h]

theorem returns_within : (within guard x).Returns ↔ guard.enter.Returns ∧ x.Returns ∧ guard.leave.Returns := by
  rw [within, returns_bind]
  simp only [returns_ensure]
  constructor
  · rintro ⟨a, hEnter, hBlock⟩
    exact ⟨⟨a, hEnter⟩, hBlock⟩
  · rintro ⟨⟨a, hEnter⟩, hBlock⟩
    exact ⟨a, hEnter, hBlock⟩

theorem events_within (h : guard.enter.Returns) :
    (within guard x).events = guard.enter.events ++ (x.events ++ guard.leave.events) := by
  obtain ⟨a, hEnter⟩ := h
  rw [within, bind_of_ok hEnter]
  rfl

theorem events_within_failed (h : ¬guard.enter.Returns) : (within guard x).events = guard.enter.events := by
  cases hEnter : guard.enter.result with
  | ok a => exact absurd ⟨a, hEnter⟩ h
  | error e =>
      rw [within, bind_of_error hEnter]

/-- Nested blocks return if nothing that was done fails. -/
theorem returns_nest :
    (nest guards x).Returns ↔ (∀ guard ∈ guards, guard.enter.Returns ∧ guard.leave.Returns) ∧ x.Returns := by
  induction guards with
  | nil => simp [nest]
  | cons guard guards ih =>
      rw [nest, List.foldr_cons, ← nest, returns_within, ih]
      simp only [List.forall_mem_cons]
      constructor
      · rintro ⟨hEnter, ⟨hRest, hBody⟩, hLeave⟩
        exact ⟨⟨⟨hEnter, hLeave⟩, hRest⟩, hBody⟩
      · rintro ⟨⟨⟨hEnter, hLeave⟩, hRest⟩, hBody⟩
        exact ⟨hEnter, ⟨hRest, hBody⟩, hLeave⟩

theorem nest_append : nest (guards ++ rest) x = nest guards (nest rest x) := List.foldr_append

/-- Blocks that are all entered are left in the opposite order. -/
theorem events_nest (h : ∀ guard ∈ guards, guard.enter.Returns) :
    (nest guards x).events = guards.flatMap (fun guard => guard.enter.events) ++ x.events ++
      guards.reverse.flatMap fun guard => guard.leave.events := by
  induction guards with
  | nil => simp [nest]
  | cons guard guards ih =>
      rw [List.forall_mem_cons] at h
      rw [nest, List.foldr_cons, ← nest, events_within h.1, ih h.2]
      simp

/-- Where a block is not entered, those around it are left, and nothing of it is done. -/
theorem events_nest_failed (h : ∀ guard ∈ guards, guard.enter.Returns) (hFails : ¬guard.enter.Returns) :
    (nest (guards ++ guard :: rest) x).events = guards.flatMap (fun guard => guard.enter.events) ++
      guard.enter.events ++ guards.reverse.flatMap fun guard => guard.leave.events := by
  rw [nest_append, events_nest h, nest, List.foldr_cons, events_within_failed hFails]

end Nest

end Semantics.Script
