import MirCi.Semantics.Effect

/-! Triples that also say which error a program stops with. -/
namespace Semantics.Effect

variable {ε σ α β ι : Type} {Pre : σ → Prop} {Post : α → σ → Prop} {Stop : ε → σ → Prop}

/-- From a state of the first kind the program returns as the second says or stops as the third says. -/
def Contract (Pre : σ → Prop) (x : EStateM ε σ α) (Post : α → σ → Prop) (Stop : ε → σ → Prop) : Prop :=
  ∀ s, Pre s → match x.run s with
    | .ok a t => Post a t
    | .error e t => Stop e t

theorem Contract.mono {x : EStateM ε σ α} {Last : α → σ → Prop} {End : ε → σ → Prop}
    (h : Contract Pre x Post Stop) (hPost : ∀ a s, Post a s → Last a s) (hStop : ∀ e s, Stop e s → End e s) :
    Contract Pre x Last End := by
  intro s hPre
  have hEnd := h s hPre
  cases hRun : x.run s with
  | ok a t =>
      rw [hRun] at hEnd
      exact hPost a t hEnd
  | error e t =>
      rw [hRun] at hEnd
      exact hStop e t hEnd

/-- A triple says the same of every error. -/
theorem Triple.contract {x : EStateM ε σ α} {Last : α → σ → Prop} {Middle : σ → Prop}
    (h : Triple Pre x Last Middle) (hPost : ∀ a s, Last a s → Post a s) (hStop : ∀ e s, Middle s → Stop e s) :
    Contract Pre x Post Stop := by
  intro s hPre
  have hEnd := h s hPre
  cases hRun : x.run s with
  | ok a t =>
      rw [hRun] at hEnd
      exact hPost a t hEnd
  | error e t =>
      rw [hRun] at hEnd
      exact hStop e t hEnd

end Semantics.Effect
