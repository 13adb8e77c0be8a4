import Mathlib.Tactic

/-! Programs that change a state and may stop with an error, the state kept as it
was left: `EStateM` without rollback. How sequences end, what they keep, and when
one program follows another step by step. -/
namespace Semantics.Effect

variable {ε σ τ α β ι : Type}

/-- The state in which a program ends, whichever way. -/
def state : EStateM.Result ε σ α → σ
  | .ok _ s => s
  | .error _ s => s

@[simp] theorem state_ok (a : α) (s : σ) : state (.ok a s : EStateM.Result ε σ α) = s := rfl

@[simp] theorem state_error (e : ε) (s : σ) :
    state (.error e s : EStateM.Result ε σ α) = s := rfl

/-- What a program returns. -/
def value : EStateM.Result ε σ α → Option α
  | .ok a _ => some a
  | .error _ _ => none

theorem run_of_value {x : EStateM ε σ α} {s : σ} {a : α} (h : value (x.run s) = some a) :
    x.run s = .ok a (state (x.run s)) := by
  cases hRun : x.run s with
  | ok b t =>
      rw [hRun] at h
      cases h
      rfl
  | error e t =>
      rw [hRun] at h
      cases h

/-- What a program raises. -/
def raised : EStateM.Result ε σ α → Option ε
  | .ok _ _ => none
  | .error e _ => some e

/-- What raises returns nothing. -/
theorem value_of_raised {r : EStateM.Result ε σ α} {e : ε} (h : raised r = some e) : value r = none := by
  cases r with
  | ok a t => cases h
  | error e' t => rfl

theorem run_of_raised {x : EStateM ε σ α} {s : σ} {e : ε} (h : raised (x.run s) = some e) :
    x.run s = .error e (state (x.run s)) := by
  cases hRun : x.run s with
  | ok b t =>
      rw [hRun] at h
      cases h
  | error e' t =>
      rw [hRun] at h
      cases h
      rfl

/-- A sequence returns when both parts do. -/
theorem run_bind_ok {x : EStateM ε σ α} {f : α → EStateM ε σ β} {s t : σ} {b : β} :
    (x >>= f).run s = .ok b t ↔ ∃ a u, x.run s = .ok a u ∧ (f a).run u = .ok b t := by
  rw [EStateM.run_bind]
  cases x.run s <;> simp

/-- A sequence stops where one of the parts does. -/
theorem run_bind_error {x : EStateM ε σ α} {f : α → EStateM ε σ β} {s t : σ} {e : ε} :
    (x >>= f).run s = .error e t ↔
      x.run s = .error e t ∨ ∃ a u, x.run s = .ok a u ∧ (f a).run u = .error e t := by
  rw [EStateM.run_bind]
  cases x.run s <;> simp

/-- The handler starts from the state in which the program stopped. -/
theorem run_tryCatch (x : EStateM ε σ α) (handler : ε → EStateM ε σ α) (s : σ) :
    (tryCatch x handler).run s = match x.run s with
      | .ok a t => .ok a t
      | .error e t => (handler e).run t := by
  change EStateM.tryCatch x handler s = _
  simp only [EStateM.tryCatch, EStateM.run]
  cases x s <;> rfl

/-! ### What a program keeps -/

section Keeps

variable {Inv : σ → Prop}

/-- Whether the program returns or stops, it leaves a state as it found it in this respect. -/
def Keeps (Inv : σ → Prop) (x : EStateM ε σ α) : Prop := ∀ s, Inv s → Inv (state (x.run s))

theorem keeps_pure (a : α) : Keeps Inv (pure a : EStateM ε σ α) := fun _ h => h

theorem keeps_throw (e : ε) : Keeps Inv (throw e : EStateM ε σ α) := fun _ h => h

theorem keeps_modify {f : σ → σ} (h : ∀ s, Inv s → Inv (f s)) :
    Keeps Inv (modify f : EStateM ε σ Unit) := h

theorem keeps_bind {x : EStateM ε σ α} {f : α → EStateM ε σ β} (hFirst : Keeps Inv x)
    (hNext : ∀ a, Keeps Inv (f a)) : Keeps Inv (x >>= f) := by
  intro s hInv
  have hMiddle := hFirst s hInv
  rw [EStateM.run_bind]
  cases hRun : x.run s with
  | ok a t =>
      rw [hRun] at hMiddle
      exact hNext a t hMiddle
  | error e t =>
      rw [hRun] at hMiddle
      exact hMiddle

theorem keeps_get_bind {f : σ → EStateM ε σ α} (h : ∀ s, Keeps Inv (f s)) :
    Keeps Inv (get >>= f) := fun s => h s s

/-- The state that was read is one that satisfies the invariant. -/
theorem keeps_get_bind_of {f : σ → EStateM ε σ α} (h : ∀ s, Inv s → Keeps Inv (f s)) :
    Keeps Inv (get >>= f) := fun s hInv => h s hInv s hInv

theorem keeps_ite {p : Prop} [Decidable p] {x y : EStateM ε σ α} (hx : p → Keeps Inv x)
    (hy : ¬p → Keeps Inv y) : Keeps Inv (if p then x else y) := by
  split
  · exact hx ‹_›
  · exact hy ‹_›

theorem keeps_tryCatch {x : EStateM ε σ α} {handler : ε → EStateM ε σ α} (hBody : Keeps Inv x)
    (hHandler : ∀ e, Keeps Inv (handler e)) : Keeps Inv (tryCatch x handler) := by
  intro s hInv
  have hMiddle := hBody s hInv
  rw [run_tryCatch]
  cases hRun : x.run s with
  | ok a t =>
      rw [hRun] at hMiddle
      exact hMiddle
  | error e t =>
      rw [hRun] at hMiddle
      exact hHandler e t hMiddle

theorem keeps_forM {f : ι → EStateM ε σ Unit} {items : List ι} (h : ∀ i ∈ items, Keeps Inv (f i)) :
    Keeps Inv (forM items f) := by
  induction items with
  | nil => exact keeps_pure ()
  | cons item rest ih =>
      rw [List.forM_cons]
      exact keeps_bind (h item (by simp)) fun _ => ih fun i hi => h i (by simp [hi])

end Keeps

/-! ### What a program leaves -/

section Triple

variable {Pre Middle : σ → Prop} {Post : α → σ → Prop} {Stop : σ → Prop}

/-- From a state of the first kind the program returns in one of the second kind or
stops in one of the third. -/
def Triple (Pre : σ → Prop) (x : EStateM ε σ α) (Post : α → σ → Prop) (Stop : σ → Prop) : Prop :=
  ∀ s, Pre s → match x.run s with
    | .ok a t => Post a t
    | .error _ t => Stop t

theorem triple_bind {x : EStateM ε σ α} {f : α → EStateM ε σ β} {Last : β → σ → Prop}
    (hFirst : Triple Pre x Post Stop) (hNext : ∀ a, Triple (Post a) (f a) Last Stop) :
    Triple Pre (x >>= f) Last Stop := by
  intro s hPre
  have hMiddle := hFirst s hPre
  rw [EStateM.run_bind]
  cases hRun : x.run s with
  | ok a t =>
      rw [hRun] at hMiddle
      exact hNext a t hMiddle
  | error e t =>
      rw [hRun] at hMiddle
      exact hMiddle

theorem Triple.mono {x : EStateM ε σ α} {Last : α → σ → Prop} {End : σ → Prop}
    (h : Triple Pre x Post Stop) (hPost : ∀ a s, Post a s → Last a s) (hStop : ∀ s, Stop s → End s) :
    Triple Pre x Last End := by
  intro s hPre
  have hEnd := h s hPre
  cases hRun : x.run s with
  | ok a t =>
      rw [hRun] at hEnd
      exact hPost a t hEnd
  | error e t =>
      rw [hRun] at hEnd
      exact hStop t hEnd

/-- A program that keeps the precondition goes before one that relies on it. -/
theorem triple_after_keeps {x : EStateM ε σ α} {f : α → EStateM ε σ β} {Last : β → σ → Prop}
    (hFirst : Keeps Pre x) (hStop : ∀ s, Pre s → Stop s) (hNext : ∀ a, Triple Pre (f a) Last Stop) :
    Triple Pre (x >>= f) Last Stop := by
  have hKeeps : Triple Pre x (fun _ => Pre) Stop := by
    intro s hPre
    have hKept := hFirst s hPre
    cases hRun : x.run s with
    | ok a t =>
        rw [hRun] at hKept
        exact hKept
    | error e t =>
        rw [hRun] at hKept
        exact hStop t hKept
  exact triple_bind hKeeps hNext

theorem triple_get_bind {f : σ → EStateM ε σ α} (h : ∀ s, Triple Pre (f s) Post Stop) :
    Triple Pre (get >>= f) Post Stop := fun s => h s s

/-- The state that was read is one of the first kind. -/
theorem triple_get_bind_of {f : σ → EStateM ε σ α} (h : ∀ s, Pre s → Triple Pre (f s) Post Stop) :
    Triple Pre (get >>= f) Post Stop := fun s hPre => h s hPre s hPre

/-- The rest starts from the state that was read. -/
theorem triple_get_bind_eq {f : σ → EStateM ε σ α}
    (h : ∀ s, Pre s → Triple (fun t => t = s) (f s) Post Stop) : Triple Pre (get >>= f) Post Stop :=
  fun s hPre => h s hPre s rfl

theorem triple_modify {f : σ → σ} {Last : Unit → σ → Prop} (h : ∀ s, Pre s → Last () (f s)) :
    Triple Pre (modify f : EStateM ε σ Unit) Last Stop := h

/-- An assignment does not stop. -/
theorem triple_after_modify {f : σ → σ} {x : EStateM ε σ α} (h : ∀ s, Pre s → Pre (f s))
    (hNext : Triple Pre x Post Stop) : Triple Pre (modify f >>= fun _ => x) Post Stop :=
  triple_bind (triple_modify h : Triple _ _ (fun _ => Pre) _) fun _ => hNext

theorem triple_of_keeps {x : EStateM ε σ α} (h : Keeps Pre x) (hPost : ∀ a s, Pre s → Post a s)
    (hStop : ∀ s, Pre s → Stop s) : Triple Pre x Post Stop := by
  intro s hPre
  have hKept := h s hPre
  cases hRun : x.run s with
  | ok a t =>
      rw [hRun] at hKept
      exact hPost a t hKept
  | error e t =>
      rw [hRun] at hKept
      exact hStop t hKept

theorem triple_pure (a : α) (h : ∀ s, Pre s → Post a s) :
    Triple Pre (pure a : EStateM ε σ α) Post Stop := h

theorem triple_throw (e : ε) (h : ∀ s, Pre s → Stop s) :
    Triple Pre (throw e : EStateM ε σ α) Post Stop := h

/-- A choice of what the precondition speaks of is made before the program runs. -/
theorem triple_exists {P : ι → σ → Prop} {x : EStateM ε σ α} (h : ∀ i, Triple (P i) x Post Stop) :
    Triple (fun s => ∃ i, P i s) x Post Stop := by
  intro s hPre
  obtain ⟨i, hi⟩ := hPre
  exact h i s hi

/-- A condition that does not depend on the state is one on all of the program. -/
theorem triple_and {p : Prop} {x : EStateM ε σ α} (h : p → Triple Pre x Post Stop) :
    Triple (fun s => p ∧ Pre s) x Post Stop := fun s hPre => h hPre.1 s hPre.2

theorem triple_true (x : EStateM ε σ α) : Triple Pre x (fun _ _ => True) fun _ => True := by
  intro s _
  cases x.run s <;> trivial

theorem triple_tryCatch {x : EStateM ε σ α} {handler : ε → EStateM ε σ α}
    (hBody : Triple Pre x Post Middle) (hHandler : ∀ e, Triple Middle (handler e) Post Stop) :
    Triple Pre (tryCatch x handler) Post Stop := by
  intro s hPre
  have hMiddle := hBody s hPre
  rw [run_tryCatch]
  cases hRun : x.run s with
  | ok a t =>
      rw [hRun] at hMiddle
      exact hMiddle
  | error e t =>
      rw [hRun] at hMiddle
      exact hHandler e t hMiddle

theorem Triple.returns {x : EStateM ε σ α} (h : Triple Pre x Post fun _ => False) {s : σ} (hPre : Pre s) :
    ∃ a t, x.run s = .ok a t ∧ Post a t := by
  have hEnd := h s hPre
  cases hRun : x.run s with
  | ok a t =>
      rw [hRun] at hEnd
      exact ⟨a, t, rfl, hEnd⟩
  | error e t =>
      rw [hRun] at hEnd
      exact hEnd.elim

theorem Triple.of_ok {x : EStateM ε σ α} (h : Triple Pre x Post Stop) {s t : σ} {a : α} (hPre : Pre s)
    (hRun : x.run s = .ok a t) : Post a t := by
  have hEnd := h s hPre
  rw [hRun] at hEnd
  exact hEnd

theorem Triple.of_error {x : EStateM ε σ α} (h : Triple Pre x Post Stop) {s t : σ} {e : ε} (hPre : Pre s)
    (hRun : x.run s = .error e t) : Stop t := by
  have hEnd := h s hPre
  rw [hRun] at hEnd
  exact hEnd

theorem triple_forM {f : ι → EStateM ε σ Unit} {items : List ι}
    (h : ∀ i ∈ items, Triple Pre (f i) (fun _ => Pre) Stop) :
    Triple Pre (forM items f) (fun _ => Pre) Stop := by
  induction items with
  | nil => exact triple_pure () fun _ hStart => hStart
  | cons item rest ih =>
      rw [List.forM_cons]
      exact triple_bind (h item (by simp)) fun _ => ih fun i hi => h i (by simp [hi])

/-- A loop over the first numbers, with an invariant that says how far it came. -/
theorem triple_forM_range {Inv : ℕ → σ → Prop} {f : ℕ → EStateM ε σ Unit} {n : ℕ}
    (h : ∀ k < n, Triple (Inv k) (f k) (fun _ => Inv (k + 1)) Stop) :
    Triple (Inv 0) (forM (List.range n) f) (fun _ => Inv n) Stop := by
  induction n with
  | zero => exact triple_pure () fun _ hStart => hStart
  | succ n ih =>
      rw [List.range_succ, List.forM_append]
      refine triple_bind (ih fun k hk => h k (by omega)) fun _ => ?_
      rw [List.forM_cons]
      exact triple_bind (h n (by omega)) fun _ => triple_pure () fun _ hEnd => hEnd

/-- When both ways of ending say the same, it holds of the state left. -/
theorem Triple.state {x : EStateM ε σ α} (h : Triple Pre x (fun _ => Stop) Stop) {s : σ} (hPre : Pre s) :
    Stop (state (x.run s)) := by
  have hEnd := h s hPre
  cases hRun : x.run s with
  | ok a t =>
      rw [hRun] at hEnd
      exact hEnd
  | error e t =>
      rw [hRun] at hEnd
      exact hEnd

end Triple

/-! ### What a program may raise -/

section Throws

variable {P : ε → Prop}

/-- Whatever the program stops with is such an error. -/
def Throws (P : ε → Prop) (x : EStateM ε σ α) : Prop := ∀ s e t, x.run s = .error e t → P e

theorem throws_pure (a : α) : Throws P (pure a : EStateM ε σ α) := by
  intro s e t h
  cases h

theorem throws_throw {e : ε} (h : P e) : Throws P (throw e : EStateM ε σ α) := by
  intro s e' t hRun
  cases hRun
  exact h

theorem throws_modify (f : σ → σ) : Throws P (modify f : EStateM ε σ Unit) := by
  intro s e t h
  cases h

theorem throws_bind {x : EStateM ε σ α} {f : α → EStateM ε σ β} (hFirst : Throws P x)
    (hNext : ∀ a, Throws P (f a)) : Throws P (x >>= f) := by
  intro s e t hRun
  rcases run_bind_error.mp hRun with hRun | ⟨a, u, -, hRun⟩
  · exact hFirst s e t hRun
  · exact hNext a u e t hRun

theorem throws_get_bind {f : σ → EStateM ε σ α} (h : ∀ s, Throws P (f s)) :
    Throws P (get >>= f) := fun s => h s s

theorem throws_ite {p : Prop} [Decidable p] {x y : EStateM ε σ α} (hx : p → Throws P x)
    (hy : ¬p → Throws P y) : Throws P (if p then x else y) := by
  split
  · exact hx ‹_›
  · exact hy ‹_›

/-- What the body raises the handler gets. -/
theorem throws_tryCatch {Q : ε → Prop} {x : EStateM ε σ α} {handler : ε → EStateM ε σ α}
    (hBody : Throws Q x) (hHandler : ∀ e, Q e → Throws P (handler e)) :
    Throws P (tryCatch x handler) := by
  intro s e t hRun
  rw [run_tryCatch] at hRun
  cases hFirst : x.run s with
  | ok a u =>
      rw [hFirst] at hRun
      cases hRun
  | error e' u =>
      rw [hFirst] at hRun
      exact hHandler e' (hBody s e' u hFirst) u e t hRun

end Throws

/-! ### One program follows another -/

section Follows

variable {R : σ → τ → Prop}

/-- From related states, whenever the first program returns the second returns the
same value, and the states are related again. -/
def Follows (R : σ → τ → Prop) (x : EStateM ε σ α) (y : EStateM ε τ α) : Prop :=
  ∀ s t, R s t → ∀ a s', x.run s = .ok a s' → ∃ t', y.run t = .ok a t' ∧ R s' t'

theorem follows_pure (a : α) : Follows R (pure a : EStateM ε σ α) (pure a : EStateM ε τ α) := by
  intro s t hRelated b s' hRun
  obtain ⟨rfl, rfl⟩ : a = b ∧ s = s' := by simpa using hRun
  exact ⟨t, rfl, hRelated⟩

theorem follows_bind {x : EStateM ε σ α} {y : EStateM ε τ α} {f : α → EStateM ε σ β}
    {g : α → EStateM ε τ β} (hFirst : Follows R x y) (hNext : ∀ a, Follows R (f a) (g a)) :
    Follows R (x >>= f) (y >>= g) := by
  intro s t hRelated b s' hRun
  obtain ⟨a, u, hx, hf⟩ := run_bind_ok.mp hRun
  obtain ⟨v, hy, hMiddle⟩ := hFirst s t hRelated a u hx
  obtain ⟨t', hg, hEnd⟩ := hNext a u v hMiddle b s' hf
  exact ⟨t', run_bind_ok.mpr ⟨a, v, hy, hg⟩, hEnd⟩

theorem follows_get_bind {f : σ → EStateM ε σ α} {g : τ → EStateM ε τ α}
    (h : ∀ s t, R s t → Follows R (f s) (g t)) : Follows R (get >>= f) (get >>= g) :=
  fun s t hRelated => h s t hRelated s t hRelated

theorem follows_modify {f : σ → σ} {g : τ → τ} (h : ∀ s t, R s t → R (f s) (g t)) :
    Follows R (modify f : EStateM ε σ Unit) (modify g) := by
  intro s t hRelated a s' hRun
  cases hRun
  exact ⟨g t, rfl, h s t hRelated⟩

theorem follows_throw (e : ε) (y : EStateM ε τ α) : Follows R (throw e : EStateM ε σ α) y := by
  intro s t _ a s' hRun
  cases hRun

/-- A first step of the second program that changes nothing has no counterpart. -/
theorem follows_after {x : EStateM ε σ α} {y : EStateM ε τ β} {f : β → EStateM ε τ α} {b : β}
    (hStays : ∀ s t, R s t → y.run t = .ok b t) (hRest : Follows R x (f b)) :
    Follows R x (y >>= f) := by
  intro s t hRelated a s' hRun
  obtain ⟨t', hNext, hEnd⟩ := hRest s t hRelated a s' hRun
  exact ⟨t', run_bind_ok.mpr ⟨b, t, hStays s t hRelated, hNext⟩, hEnd⟩

theorem follows_mapM {f : ι → EStateM ε σ α} {g : ι → EStateM ε τ α} {items : List ι}
    (h : ∀ i ∈ items, Follows R (f i) (g i)) : Follows R (items.mapM f) (items.mapM g) := by
  induction items with
  | nil => exact follows_pure []
  | cons item rest ih =>
      rw [List.mapM_cons, List.mapM_cons]
      refine follows_bind (h item (by simp)) fun _ => ?_
      exact follows_bind (ih fun i hi => h i (by simp [hi])) fun _ => follows_pure _

theorem follows_forM {f : ι → EStateM ε σ Unit} {g : ι → EStateM ε τ Unit} {items : List ι}
    (h : ∀ i ∈ items, Follows R (f i) (g i)) : Follows R (forM items f) (forM items g) := by
  induction items with
  | nil => exact follows_pure ()
  | cons item rest ih =>
      rw [List.forM_cons, List.forM_cons]
      exact follows_bind (h item (by simp)) fun _ => ih fun i hi => h i (by simp [hi])

end Follows

end Semantics.Effect
