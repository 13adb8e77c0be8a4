import Mathlib.Tactic

/-! Logs of enters and exits of keyed contexts. Each key's own marks have to
alternate, an enter first; which keys are open is read off the last mark. -/
namespace Semantics

inductive Mark where
  | enter
  | exit
  deriving DecidableEq

variable {κ : Type*} [DecidableEq κ]

/-- The marks of one key, oldest first. -/
def marks (key : κ) (log : List (κ × Mark)) : List Mark :=
  (log.filter fun entry => entry.1 = key).map Prod.snd

/-- No key is entered twice in a row or exited without having been entered. -/
def Alternates (log : List (κ × Mark)) : Prop :=
  ∀ key, List.IsChain (· ≠ ·) (Mark.exit :: marks key log)

/-- The key was entered and not exited since. -/
def Open (key : κ) (log : List (κ × Mark)) : Prop := (marks key log).getLast? = some .enter

instance (key : κ) (log : List (κ × Mark)) : Decidable (Open key log) :=
  inferInstanceAs (Decidable (_ = _))

theorem marks_append (key : κ) (log later : List (κ × Mark)) :
    marks key (log ++ later) = marks key log ++ marks key later := by
  simp [marks]

theorem marks_singleton (key k : κ) (m : Mark) :
    marks key [(k, m)] = if k = key then [m] else [] := by
  by_cases h : k = key <;> simp [marks, h]

theorem not_open_nil (key : κ) : ¬Open key [] := by
  simp [Open, marks]

theorem alternates_nil : Alternates ([] : List (κ × Mark)) := by
  intro key
  simp [marks]

theorem open_concat (key k : κ) (m : Mark) (log : List (κ × Mark)) :
    Open key (log ++ [(k, m)]) ↔ if k = key then m = .enter else Open key log := by
  rw [Open, marks_append, marks_singleton]
  by_cases h : k = key
  · simp [h]
  · simp [h, Open]

/-- A mark may follow a log exactly when it changes whether its key is open. -/
theorem alternates_concat (k : κ) (m : Mark) (log : List (κ × Mark)) :
    Alternates (log ++ [(k, m)]) ↔ Alternates log ∧ (Open k log ↔ m = .exit) := by
  have hOwn : List.IsChain (· ≠ ·) (Mark.exit :: (marks k log ++ [m])) ↔
      List.IsChain (· ≠ ·) (Mark.exit :: marks k log) ∧ (Open k log ↔ m = .exit) := by
    rw [← List.cons_append, List.isChain_append, Open]
    have hLast : (Mark.exit :: marks k log).getLast? = some ((marks k log).getLast?.getD .exit) := by
      rw [List.getLast?_cons]
    rw [hLast]
    cases hMarks : (marks k log).getLast? with
    | none => cases m <;> simp
    | some last => cases m <;> cases last <;> simp
  constructor
  · intro h
    have hKey := h k
    rw [marks_append, marks_singleton, if_pos rfl, hOwn] at hKey
    refine ⟨fun key => ?_, hKey.2⟩
    by_cases hEq : k = key
    · subst hEq
      exact hKey.1
    · have hOther := h key
      rwa [marks_append, marks_singleton, if_neg hEq, List.append_nil] at hOther
  · rintro ⟨h, hMark⟩ key
    rw [marks_append, marks_singleton]
    by_cases hEq : k = key
    · subst hEq
      rw [if_pos rfl, hOwn]
      exact ⟨h k, hMark⟩
    · rw [if_neg hEq, List.append_nil]
      exact h key

/-- The same mark for every key of a list. -/
def marked (m : Mark) (keys : List κ) : List (κ × Mark) := keys.map fun k => (k, m)

omit [DecidableEq κ] in
theorem marked_cons (m : Mark) (k : κ) (rest : List κ) (log : List (κ × Mark)) :
    log ++ marked m (k :: rest) = (log ++ [(k, m)]) ++ marked m rest := by
  simp [marked]

theorem open_marked (key : κ) (m : Mark) (keys : List κ) (log : List (κ × Mark)) :
    Open key (log ++ marked m keys) ↔ if key ∈ keys then m = .enter else Open key log := by
  induction keys generalizing log with
  | nil => simp [marked]
  | cons k rest ih =>
      rw [marked_cons, ih, open_concat]
      by_cases hRest : key ∈ rest
      · simp [hRest]
      · by_cases hEq : k = key
        · simp [hEq]
        · simp [hRest, hEq, Ne.symm hEq]

/-- Marking a list keeps the alternation exactly when its keys are distinct and
the mark changes whether each of them is open. -/
theorem alternates_marked (m : Mark) (keys : List κ) (log : List (κ × Mark)) :
    Alternates (log ++ marked m keys) ↔
      Alternates log ∧ keys.Nodup ∧ ∀ k ∈ keys, (Open k log ↔ m = .exit) := by
  induction keys generalizing log with
  | nil => simp [marked]
  | cons k rest ih =>
      rw [marked_cons, ih, alternates_concat, List.nodup_cons, List.forall_mem_cons]
      simp only [open_concat]
      constructor
      · rintro ⟨⟨hLog, hFirst⟩, hRest, hOthers⟩
        refine ⟨hLog, ⟨?_, hRest⟩, hFirst, ?_⟩
        · intro hMem
          have hAgain := hOthers k hMem
          cases m <;> simp at hAgain
        · intro key hKey
          have hOther := hOthers key hKey
          split at hOther
          · cases m <;> simp at hOther
          · exact hOther
      · rintro ⟨hLog, ⟨hNew, hRest⟩, hFirst, hOthers⟩
        refine ⟨⟨hLog, hFirst⟩, hRest, fun key hKey => ?_⟩
        have hNe : k ≠ key := by
          rintro rfl
          exact hNew hKey
        rw [if_neg hNe]
        exact hOthers key hKey

end Semantics
