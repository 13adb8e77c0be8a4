import MirCi.Semantics.Run

/-! Systems with sessions that are opened and closed, and that work in their first
session only. Whether every opening of a run is good can be read off the order of its
actions. Nothing here knows any program. -/
namespace Semantics

open scoped List

/-- What an action is to the session. -/
inductive SessionAction where
  | opens
  | closes
  | within
  deriving DecidableEq, Repr

section Order

variable {actions : List SessionAction} {a : SessionAction}

theorem opened_snoc : .opens ∈ actions ++ [a] ↔ .opens ∈ actions ∨ a = .opens := by
  simp [eq_comm]

theorem closed_snoc : [.opens, .closes] <+ actions ++ [a] ↔
    [.opens, .closes] <+ actions ∨ .opens ∈ actions ∧ a = .closes := by
  constructor
  · intro h
    obtain ⟨first, last, hSplit, hFirst, hLast⟩ := List.sublist_append_iff.mp h
    rcases List.sublist_singleton.mp hLast with rfl | rfl
    · rw [List.append_nil] at hSplit
      exact .inl (hSplit ▸ hFirst)
    · obtain ⟨rfl, hClose⟩ : [SessionAction.opens] = first ∧ [SessionAction.closes] = [a] :=
        List.append_inj' hSplit rfl
      exact .inr ⟨List.singleton_sublist.mp hFirst, (List.singleton_inj.mp hClose).symm⟩
  · rintro (h | ⟨hOpened, rfl⟩)
    · exact h.trans (List.sublist_append_left _ _)
    · exact (List.singleton_sublist.mpr hOpened).append (List.Sublist.refl [SessionAction.closes])

/-- A session is opened behind the end of another. -/
theorem reopened_iff : [.opens, .closes, .opens] <+ actions ↔
    ∃ before after, actions = before ++ .opens :: after ∧ [.opens, .closes] <+ before := by
  constructor
  · intro h
    have hSplit : [SessionAction.opens, .closes] ++ [.opens] <+ actions := h
    obtain ⟨first, rest, rfl, hFirst, hRest⟩ := List.append_sublist_iff.mp hSplit
    obtain ⟨middle, after, rfl⟩ := List.append_of_mem (List.singleton_sublist.mp hRest)
    exact ⟨first ++ middle, after, by simp, hFirst.trans (List.sublist_append_left _ _)⟩
  · rintro ⟨before, after, rfl, hBefore⟩
    exact hBefore.append (List.singleton_sublist.mpr List.mem_cons_self)

end Order

variable {State Action : Type*}

/-- The first session, and what comes behind it: an opening in the first session is good, and
one behind it is not. -/
structure Sessions (step : State → Action → Option State) (kind : Action → SessionAction) (start : State)
    (Good : State → State → Prop) where
  Live : State → Prop
  Dead : State → Prop
  start_opens : ∀ a t, kind a = .opens → step start a = some t → Good start t ∧ Live t
  start_stays : ∀ a t, kind a ≠ .opens → step start a = some t → t = start
  live_opens : ∀ s a t, Live s → kind a = .opens → step s a = some t → Good s t ∧ Live t
  live_closes : ∀ s a t, Live s → kind a = .closes → step s a = some t → Dead t
  live_within : ∀ s a t, Live s → kind a = .within → step s a = some t → Live t
  dead_opens : ∀ s a t, Dead s → kind a = .opens → step s a = some t → ¬ Good s t ∧ Dead t
  dead_stays : ∀ s a t, Dead s → kind a ≠ .opens → step s a = some t → Dead t

section Sessions

variable {step : State → Action → Option State} {kind : Action → SessionAction} {start s t : State}
  {Good : State → State → Prop} {actions : List Action}

/-- Where the actions so far have led. -/
structure Sessions.At (S : Sessions step kind start Good) (actions : List SessionAction) (s : State) : Prop where
  before : .opens ∉ actions → s = start
  live : .opens ∈ actions → ¬ [.opens, .closes] <+ actions → S.Live s
  dead : [.opens, .closes] <+ actions → S.Dead s

theorem Sessions.at_run (S : Sessions step kind start Good) (run : Runs step Any start actions s) :
    S.At (actions.map kind) s := by
  induction run with
  | nil => exact ⟨fun _ => rfl, by simp, by simp⟩
  | @snoc s t actions a prior admitted last ih =>
      rw [List.map_append, List.map_singleton]
      have hOpened : ∀ {k : SessionAction}, [.opens, k] <+ actions.map kind → .opens ∈ actions.map kind :=
        fun h => h.subset List.mem_cons_self
      refine ⟨fun hNot => ?_, fun hIs hNot => ?_, fun h => ?_⟩
      · rw [opened_snoc, not_or] at hNot
        have hStart := ih.before hNot.1
        subst hStart
        exact S.start_stays a t hNot.2 last
      · rw [opened_snoc] at hIs
        rw [closed_snoc, not_or, not_and] at hNot
        by_cases hBefore : .opens ∈ actions.map kind
        · cases hKind : kind a with
          | opens => exact (S.live_opens s a t (ih.live hBefore hNot.1) hKind last).2
          | closes => exact absurd hKind (hNot.2 hBefore)
          | within => exact S.live_within s a t (ih.live hBefore hNot.1) hKind last
        · have hStart := ih.before hBefore
          subst hStart
          exact (S.start_opens a t (hIs.resolve_left hBefore) last).2
      · rw [closed_snoc] at h
        by_cases hBefore : [.opens, .closes] <+ actions.map kind
        · by_cases hKind : kind a = .opens
          · exact (S.dead_opens s a t (ih.dead hBefore) hKind last).2
          · exact S.dead_stays s a t (ih.dead hBefore) hKind last
        · obtain ⟨hIs, hKind⟩ := h.resolve_left hBefore
          exact S.live_closes s a t (ih.live hIs hBefore) hKind last

/-- Every opening is good just when none comes behind the end of a session. -/
theorem Sessions.good_iff (S : Sessions step kind start Good) (run : Runs step Any start actions t) :
    (∀ before a after s u, actions = before ++ a :: after → kind a = .opens →
        Runs step Any start before s → step s a = some u → Good s u) ↔
      ¬ [.opens, .closes, .opens] <+ actions.map kind := by
  rw [reopened_iff]
  constructor
  · rintro hGood ⟨before, after, hActions, hClosed⟩
    obtain ⟨first, rest, rfl, rfl, hRest⟩ := List.map_eq_append_iff.mp hActions
    obtain ⟨a, last, rfl, hKind, -⟩ := List.map_eq_cons_iff.mp hRest
    obtain ⟨s, hFirst, hLast⟩ := run.split
    obtain ⟨u, -, hStep, -⟩ := hLast.cons_inv
    exact (S.dead_opens s a u ((S.at_run hFirst).dead hClosed) hKind hStep).1
      (hGood first a last s u rfl hKind hFirst hStep)
  · rintro hNever before a after s u rfl hKind hBefore hStep
    have hAt := S.at_run hBefore
    by_cases hIs : .opens ∈ before.map kind
    · refine (S.live_opens s a u (hAt.live hIs fun hClosed => hNever ?_) hKind hStep).1
      exact ⟨before.map kind, after.map kind, by simp [hKind], hClosed⟩
    · have hStart := hAt.before hIs
      subst hStart
      exact (S.start_opens a u hKind hStep).1

end Sessions

end Semantics
