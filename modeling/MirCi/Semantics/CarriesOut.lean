import MirCi.Semantics.Effect

/-! A program that carries out what another one only records. It may stop at any moment, and what
it has done by then is part of what the other records. -/
namespace Semantics.Effect

variable {ε σ τ α β ι : Type}

/-- How the states of both programs belong together while they run, and when the first has stopped.
What the second has recorded is `Before` what it records later. -/
structure Correspondence (σ τ : Type) where
  Related : σ → τ → Prop
  Stopped : σ → τ → Prop
  Before : τ → τ → Prop
  stopped_of_related : ∀ s t, Related s t → Stopped s t
  stopped_later : ∀ s t u, Stopped s t → Before t u → Stopped s u
  before_refl : ∀ t, Before t t

variable {M : Correspondence σ τ}

/-- When the first program returns so does the second, and when it stops it has done no more than the second. -/
structure CarriesOut (M : Correspondence σ τ) (x : EStateM ε σ α) (y : EStateM ε τ α) : Prop where
  follows : Follows M.Related x y
  stops : ∀ s t, M.Related s t → ∀ e s', x.run s = .error e s' → M.Stopped s' (state (y.run t))
  grows : ∀ t, Keeps (M.Before t) y

theorem carriesOut_pure (a : α) : CarriesOut M (pure a : EStateM ε σ α) (pure a) := by
  refine ⟨follows_pure a, fun s t _ e s' hRun => ?_, fun t => keeps_pure a⟩
  cases hRun

theorem carriesOut_throw (e : ε) : CarriesOut M (throw e : EStateM ε σ α) (throw e) := by
  refine ⟨follows_throw e _, fun s t hRelated e' s' hRun => ?_, fun t => keeps_throw e⟩
  cases hRun
  exact M.stopped_of_related s t hRelated

/-- What the rest records comes after what was recorded before it. The rest is only one after such values
as the second program returns. -/
theorem carriesOut_bind_of {x : EStateM ε σ α} {y : EStateM ε τ α} {f : α → EStateM ε σ β}
    {g : α → EStateM ε τ β} {P : α → Prop} (hFirst : CarriesOut M x y)
    (hValue : ∀ s t, M.Related s t → ∀ a t', y.run t = .ok a t' → P a)
    (hNext : ∀ a, P a → CarriesOut M (f a) (g a)) (hGrows : ∀ a t, Keeps (M.Before t) (g a)) :
    CarriesOut M (x >>= f) (y >>= g) where
  follows s t hRelated b s' hRun := by
    obtain ⟨a, u, hx, hf⟩ := run_bind_ok.mp hRun
    obtain ⟨v, hy, hMiddle⟩ := hFirst.follows s t hRelated a u hx
    obtain ⟨t', hg, hEnd⟩ := (hNext a (hValue s t hRelated a v hy)).follows u v hMiddle b s' hf
    exact ⟨t', run_bind_ok.mpr ⟨a, v, hy, hg⟩, hEnd⟩
  grows t := keeps_bind (hFirst.grows t) fun a => hGrows a t
  stops s t hRelated e s' hRun := by
    rcases run_bind_error.mp hRun with hStop | ⟨a, u, hOk, hStop⟩
    · have hHere := hFirst.stops s t hRelated e s' hStop
      rw [EStateM.run_bind]
      cases hy : y.run t with
      | ok b v =>
          rw [hy] at hHere
          exact M.stopped_later s' v _ hHere (hGrows b v v (M.before_refl v))
      | error e' v =>
          rw [hy] at hHere
          exact hHere
    · obtain ⟨v, hy, hMiddle⟩ := hFirst.follows s t hRelated a u hOk
      rw [EStateM.run_bind, hy]
      exact (hNext a (hValue s t hRelated a v hy)).stops u v hMiddle e s' hStop

theorem carriesOut_bind {x : EStateM ε σ α} {y : EStateM ε τ α} {f : α → EStateM ε σ β}
    {g : α → EStateM ε τ β} (hFirst : CarriesOut M x y) (hNext : ∀ a, CarriesOut M (f a) (g a)) :
    CarriesOut M (x >>= f) (y >>= g) :=
  carriesOut_bind_of (P := fun _ => True) hFirst (fun _ _ _ _ _ _ => trivial) (fun a _ => hNext a)
    fun a => (hNext a).grows

theorem carriesOut_ite {p : Prop} [Decidable p] {x x' : EStateM ε σ α} {y y' : EStateM ε τ α}
    (h : CarriesOut M x y) (hElse : CarriesOut M x' y') :
    CarriesOut M (if p then x else x') (if p then y else y') := by
  split
  · exact h
  · exact hElse

theorem carriesOut_get_bind {f : σ → EStateM ε σ α} {g : τ → EStateM ε τ α}
    (h : ∀ s t, M.Related s t → CarriesOut M (f s) (g t)) (hGrows : ∀ t u, Keeps (M.Before t) (g u)) :
    CarriesOut M (get >>= f) (get >>= g) where
  follows := follows_get_bind fun s t hRelated => (h s t hRelated).follows
  stops s t hRelated := (h s t hRelated).stops s t hRelated
  grows t := keeps_get_bind fun u => hGrows t u

/-- A program of which only the outcome is known carries out an update. -/
theorem carriesOut_modify {x : EStateM ε σ Unit} {update : τ → τ}
    (h : ∀ t, Triple (M.Related · t) x (fun _ s => M.Related s (update t)) (M.Stopped · (update t)))
    (hGrows : ∀ t u, M.Before t u → M.Before t (update u)) : CarriesOut M x (modify update) where
  follows _ t hRelated _ _ hRun := ⟨update t, rfl, (h t).of_ok hRelated hRun⟩
  stops _ t hRelated _ _ hRun := (h t).of_error hRelated hRun
  grows t := keeps_modify (hGrows t)

theorem carriesOut_foldlM {f : α → ι → EStateM ε σ α} {g : α → ι → EStateM ε τ α}
    (h : ∀ a i, CarriesOut M (f a i) (g a i)) (items : List ι) (a : α) :
    CarriesOut M (items.foldlM f a) (items.foldlM g a) := by
  induction items generalizing a with
  | nil => exact carriesOut_pure a
  | cons item rest ih => exact carriesOut_bind (h a item) fun b => ih b

theorem carriesOut_forM {f : ι → EStateM ε σ Unit} {g : ι → EStateM ε τ Unit} {items : List ι}
    (h : ∀ i ∈ items, CarriesOut M (f i) (g i)) : CarriesOut M (forM items f) (forM items g) := by
  induction items with
  | nil => exact carriesOut_pure ()
  | cons item rest ih =>
      rw [List.forM_cons, List.forM_cons]
      exact carriesOut_bind (h item (by simp)) fun _ => ih fun i hi => h i (by simp [hi])

/-- Two states that belong together, from which both start: the outcomes belong together. -/
theorem CarriesOut.outcome {x : EStateM ε σ α} {y : EStateM ε τ α} (h : CarriesOut M x y) {s : σ} {t : τ}
    (hRelated : M.Related s t) :
    Triple (· = s) x (fun a s' => ∃ t', y.run t = .ok a t' ∧ M.Related s' t')
      fun s' => M.Stopped s' (state (y.run t)) := by
  intro s₀ hStart
  rw [hStart]
  cases hRun : x.run s with
  | ok a s' => exact h.follows s t hRelated a s' hRun
  | error e s' => exact h.stops s t hRelated e s' hRun

end Semantics.Effect
