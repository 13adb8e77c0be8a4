import Mathlib.Tactic

/-! Finite runs of a labelled system whose step is a partial function. A label
fixes one move of the system or of its environment, so quantifying over label
lists quantifies over every interleaving. Nothing here knows any program. -/
namespace Semantics

variable {State Action : Type*}

/-- A run through the actions of the list, oldest first. Every step is taken by
`step` and was admitted by `ok` in the state just before it. -/
inductive Runs (step : State → Action → Option State) (ok : State → Action → Prop) :
    State → List Action → State → Prop where
  | nil (s : State) : Runs step ok s [] s
  | snoc {s t u : State} {actions : List Action} {a : Action}
      (prior : Runs step ok s actions t) (admitted : ok t a) (last : step t a = some u) :
      Runs step ok s (actions ++ [a]) u

/-- The condition that admits every step. -/
def Any : State → Action → Prop := fun _ _ => True

variable {step : State → Action → Option State} {ok ok' : State → Action → Prop}

/-- Whatever the start satisfies and an admitted step preserves holds at the
end of every admitted run. -/
theorem Runs.invariant {s t : State} {actions : List Action} (run : Runs step ok s actions t)
    (Inv : State → Prop) (hStart : Inv s)
    (hStep : ∀ t a u, Inv t → ok t a → step t a = some u → Inv u) : Inv t := by
  induction run with
  | nil => exact hStart
  | snoc prior admitted last ih => exact hStep _ _ _ ih admitted last

/-- A weaker admission condition keeps the run. -/
theorem Runs.mono {s t : State} {actions : List Action} (run : Runs step ok s actions t)
    (h : ∀ s a, ok s a → ok' s a) : Runs step ok' s actions t := by
  induction run with
  | nil => exact .nil _
  | snoc prior admitted last ih => exact .snoc ih (h _ _ admitted) last

/-- One admitted step is a run. -/
theorem Runs.single {s t : State} {a : Action} (admitted : ok s a) (h : step s a = some t) :
    Runs step ok s [a] t := by
  have hRun := Runs.snoc (.nil s) admitted h
  simpa using hRun

/-- Runs compose, and their action lists concatenate. -/
theorem Runs.trans {s t u : State} {first second : List Action}
    (left : Runs step ok s first t) (right : Runs step ok t second u) :
    Runs step ok s (first ++ second) u := by
  induction right with
  | nil => simpa using left
  | snoc prior admitted last ih =>
      rw [← List.append_assoc]
      exact .snoc ih admitted last

/-- The run through no action stays where it is. -/
theorem Runs.eq_of_nil {s t : State} (run : Runs step ok s [] t) : t = s := by
  generalize hNone : ([] : List Action) = actions at run
  cases run with
  | nil => rfl
  | snoc _ _ _ => simp at hNone

/-- The first action of a nonempty run is a step of its own. -/
theorem Runs.cons_inv {s t : State} {a : Action} {rest : List Action}
    (run : Runs step ok s (a :: rest) t) :
    ∃ middle, ok s a ∧ step s a = some middle ∧ Runs step ok middle rest t := by
  generalize hAll : a :: rest = actions at run
  induction run generalizing rest with
  | nil => cases hAll
  | @snoc middle finish prefixed b prior admitted last ih =>
      cases prefixed with
      | nil =>
          obtain ⟨rfl, rfl⟩ : a = b ∧ rest = [] := by simpa using hAll
          obtain rfl := prior.eq_of_nil
          exact ⟨finish, admitted, last, .nil _⟩
      | cons first others =>
          obtain ⟨rfl, rfl⟩ : a = first ∧ rest = others ++ [b] := by simpa using hAll
          obtain ⟨next, hOk, hFirst, hTail⟩ := ih rfl
          exact ⟨next, hOk, hFirst, .snoc hTail admitted last⟩

/-- The last action of a run is a step of its own. -/
theorem Runs.snoc_inv {s u : State} {actions : List Action} {a : Action}
    (run : Runs step ok s (actions ++ [a]) u) :
    ∃ t, Runs step ok s actions t ∧ ok t a ∧ step t a = some u := by
  generalize hAll : actions ++ [a] = all at run
  cases run with
  | nil => simp at hAll
  | snoc prior admitted last =>
      obtain ⟨rfl, hLast⟩ := List.append_inj' hAll rfl
      obtain rfl := List.singleton_inj.mp hLast
      exact ⟨_, prior, admitted, last⟩

/-- A run can be cut anywhere. -/
theorem Runs.split {s u : State} {first second : List Action}
    (run : Runs step ok s (first ++ second) u) :
    ∃ t, Runs step ok s first t ∧ Runs step ok t second u := by
  induction second using List.reverseRecOn generalizing u with
  | nil => exact ⟨u, by simpa using run, .nil u⟩
  | append_singleton second a ih =>
      rw [← List.append_assoc] at run
      obtain ⟨middle, hPrior, hOk, hLast⟩ := run.snoc_inv
      obtain ⟨t, hFirst, hSecond⟩ := ih hPrior
      exact ⟨t, hFirst, .snoc hSecond hOk hLast⟩

/-- The actions determine where a run ends. -/
theorem Runs.unique {s t u : State} {actions : List Action} (left : Runs step ok s actions t)
    (right : Runs step ok' s actions u) : t = u := by
  induction left generalizing u with
  | nil => exact right.eq_of_nil.symm
  | snoc prior admitted last ih =>
      obtain ⟨middle, hPrior, -, hLast⟩ := right.snoc_inv
      obtain rfl := ih hPrior
      exact Option.some.inj (last.symm.trans hLast)

/-- A property that a step keeps just when it is harmless holds all along just when
every step is. -/
theorem always_iff (Holds harmless : ℕ → Prop) {n : ℕ} (hStart : Holds 0)
    (hStep : ∀ k < n, Holds k → (Holds (k + 1) ↔ harmless k)) :
    (∀ k ≤ n, Holds k) ↔ ∀ k < n, harmless k := by
  constructor
  · intro h k hk
    exact (hStep k hk (h k hk.le)).mp (h (k + 1) hk)
  · intro h k hk
    induction k with
    | zero => exact hStart
    | succ k ih => exact (hStep k hk (ih (by omega))).mpr (h k hk)

/-- Run the actions in order, stopping at the first one that is not enabled. -/
def execute (step : State → Action → Option State) : State → List Action → Option State
  | s, [] => some s
  | s, a :: rest => (step s a).bind fun t => execute step t rest

/-- Running through the list by evaluation yields a run. -/
theorem runs_of_execute {s t : State} {actions : List Action}
    (h : execute step s actions = some t) (hOk : ∀ s, ∀ a ∈ actions, ok s a) :
    Runs step ok s actions t := by
  induction actions generalizing s with
  | nil =>
      obtain rfl : s = t := by simpa [execute] using h
      exact .nil s
  | cons a rest ih =>
      obtain ⟨middle, hFirst, hRest⟩ := Option.bind_eq_some_iff.mp h
      exact (Runs.single (hOk s a (by simp)) hFirst).trans
        (ih hRest fun s b hb => hOk s b (List.mem_cons_of_mem a hb))

end Semantics
