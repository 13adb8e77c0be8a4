import MirCi.Semantics.Effect

/-! Loops that may run for ever. A turn yields the state the loop goes on from or
the result it ends with; `while` in a program that may stop is the case in which a
turn runs a program. -/
namespace Semantics.Loop

variable {σ ρ : Type}

/-- At most so many turns: where the loop stands, or how it ended. -/
def turns (turn : σ → σ ⊕ ρ) (s : σ) : ℕ → σ ⊕ ρ
  | 0 => .inl s
  | n + 1 => match turns turn s n with
    | .inl t => turn t
    | .inr r => .inr r

/-- The loop ends, with this result. -/
def Ends (turn : σ → σ ⊕ ρ) (s : σ) (r : ρ) : Prop := ∃ n, turns turn s n = .inr r

variable {turn : σ → σ ⊕ ρ} {s t : σ} {r : ρ} {n m : ℕ}

theorem turns_of_le (h : turns turn s n = .inr r) (hLe : n ≤ m) : turns turn s m = .inr r := by
  induction m, hLe using Nat.le_induction with
  | base => exact h
  | succ m _ ih => simp [turns, ih]

theorem Ends.unique {r' : ρ} (h : Ends turn s r) (h' : Ends turn s r') : r = r' := by
  obtain ⟨n, hn⟩ := h
  obtain ⟨m, hm⟩ := h'
  have hBoth := (turns_of_le hn (le_max_left n m)).symm.trans (turns_of_le hm (le_max_right n m))
  exact Sum.inr.inj hBoth

/-- A loop that ends has a last turn. -/
theorem ends_iff : Ends turn s r ↔ ∃ n t, turns turn s n = .inl t ∧ turn t = .inr r := by
  constructor
  · rintro ⟨n, hn⟩
    induction n with
    | zero => cases hn
    | succ n ih =>
        cases hPrior : turns turn s n with
        | inl t => exact ⟨n, t, hPrior, by simpa [turns, hPrior] using hn⟩
        | inr r' =>
            have hSame : r' = r := by simpa [turns, hPrior] using hn
            exact ih (hSame ▸ hPrior)
  · rintro ⟨n, t, hn, hLast⟩
    exact ⟨n + 1, by simp [turns, hn, hLast]⟩

/-- What the start satisfies and a turn that goes on keeps holds wherever the loop stands. -/
theorem invariant (Inv : ℕ → σ → Prop) (hStart : Inv 0 s)
    (hTurn : ∀ n t u, Inv n t → turn t = .inl u → Inv (n + 1) u) (h : turns turn s n = .inl t) :
    Inv n t := by
  induction n generalizing t with
  | zero =>
      cases h
      exact hStart
  | succ n ih =>
      cases hPrior : turns turn s n with
      | inl u => exact hTurn n u t (ih hPrior) (by simpa [turns, hPrior] using h)
      | inr r => simp [turns, hPrior] at h

/-- A turn that runs a program over local variables: the loop goes on with new ones,
returns, or stops where the program does. -/
def ofProgram {ε L W α : Type} (body : L → EStateM ε W (L ⊕ α)) :
    L × W → (L × W) ⊕ EStateM.Result ε W α
  | (l, w) => match (body l).run w with
    | .ok (.inl l') w' => .inl (l', w')
    | .ok (.inr a) w' => .inr (.ok a w')
    | .error e w' => .inr (.error e w')

/-- The world after so many turns, the loop standing or ended. -/
def worldAt {ε L W α : Type} (body : L → EStateM ε W (L ⊕ α)) (start : L × W) (n : ℕ) : W :=
  match turns (ofProgram body) start n with
  | .inl w => w.2
  | .inr r => Effect.state r

section World

variable {ε L W α : Type} {body : L → EStateM ε W (L ⊕ α)} {start w w' : L × W}
  {r : EStateM.Result ε W α}

theorem ofProgram_inl (h : ofProgram body w = .inl w') : (body w.1).run w.2 = .ok (.inl w'.1) w'.2 := by
  unfold ofProgram at h
  dsimp only at h
  cases hRun : (body w.1).run w.2 with
  | ok next world =>
      rw [hRun] at h
      cases next with
      | inl l =>
          cases h
          rfl
      | inr b => cases h
  | error e world =>
      rw [hRun] at h
      cases h

theorem worldAt_succ (h : turns (ofProgram body) start n = .inl w) :
    worldAt body start (n + 1) = Effect.state ((body w.1).run w.2) := by
  simp only [worldAt, turns, h, ofProgram]
  cases (body w.1).run w.2 with
  | ok next world => cases next <;> rfl
  | error e world => rfl

theorem worldAt_of_ended (h : turns (ofProgram body) start n = .inr r) (hLe : n ≤ m) :
    worldAt body start m = worldAt body start n := by
  simp only [worldAt, turns_of_le h hLe, h]

end World

end Semantics.Loop
