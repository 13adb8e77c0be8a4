import MirCi.Python.Double

/-! Whole numbers as doubles: below 2 to the 53rd they are exact. -/
namespace Python

/-- A computation in steps has a result when every step has. -/
theorem except_bind_ok {ε α β : Type} {x : Except ε α} {f : α → Except ε β} {b : β} :
    x >>= f = .ok b ↔ ∃ a, x = .ok a ∧ f a = .ok b := by
  cases x with
  | ok a =>
      constructor
      · intro h
        exact ⟨a, rfl, h⟩
      · rintro ⟨_, ⟨⟩, h⟩
        exact h
  | error e =>
      constructor
      · intro h
        cases h
      · rintro ⟨_, ⟨⟩, -⟩

/-- A whole number of at most 53 bits is nearest to itself. -/
theorem nearest_whole {n : ℤ} (h : |n| < 2 ^ 53) : nearest n = n := by
  have hBits := nearest_of_bits (n := n) (k := 0) (by norm_num) h
  simpa using hBits

/-- Such a number is a double, and its conversion is exact. -/
theorem toDouble_whole {n : ℤ} (h : |n| < 2 ^ 53) : toDouble n = some (n : ℚ) := by
  refine toDouble_eq_some.mpr ⟨nearest_whole h, ?_⟩
  have hCast : |(n : ℚ)| < 2 ^ 53 := by exact_mod_cast h
  exact hCast.trans_le (pow_le_pow_right₀ one_le_two (by norm_num))

/-- Rounding is monotone and one is a double, so nothing falls below it. -/
theorem one_le_nearest {q : ℚ} (h : 1 ≤ q) : 1 ≤ nearest q := by
  have hOne : nearest 1 = 1 := by simpa using nearest_whole (n := 1) (by norm_num)
  exact hOne ▸ nearest_mono zero_le_one h

theorem truncate_whole (n : ℤ) : truncate n = n := by
  unfold truncate
  split <;> simp

/-- Nothing but zero divided by itself is one. -/
theorem trueDiv_self {n : ℤ} {quotient : ℚ} (h : trueDiv n n = .ok quotient) : quotient = 1 := by
  by_cases hZero : n = 0
  · rw [trueDiv, if_pos hZero] at h
    cases h
  · have hOne : toDouble ((n : ℚ) / n) = some 1 := by
      rw [div_self (Int.cast_ne_zero.mpr hZero)]
      simpa using toDouble_whole (n := 1) (by norm_num)
    rw [trueDiv, if_neg hZero, hOne] at h
    exact (Except.ok.inj h).symm

namespace Double

/-- Small whole numbers are doubles. The bound is not sharp: many larger ones are doubles too. -/
theorem round_whole {n : ℤ} (h : |n| < 2 ^ 53) : round n = .finite n (toDouble_whole h) := by
  rw [round_of_some (toDouble_whole h)]

/-- An integer that a double holds is converted to that double, however large it is. -/
theorem ofInt_exact {n : ℤ} (h : toDouble n = some (n : ℚ)) : ofInt n = .ok (.finite n h) := by
  rw [ofInt, h, Option.isSome_some, if_pos rfl, round_of_some h]

theorem ofInt_whole {n : ℤ} (h : |n| < 2 ^ 53) : ofInt n = .ok (round n) := by
  rw [ofInt, toDouble_whole h, Option.isSome_some, if_pos rfl]

/-- A conversion that succeeds is to the nearest double. It fails only for integers too large
for any. -/
theorem ofInt_ok {n : ℤ} {x : Double} (h : ofInt n = .ok x) : ∃ exact, x = .finite (nearest n) exact := by
  unfold ofInt at h
  split at h
  · rename_i hSome
    obtain ⟨a, ha⟩ := Option.isSome_iff_exists.mp hSome
    obtain rfl := (toDouble_eq_some.mp ha).1
    cases h
    exact ⟨_, round_of_some ha⟩
  · cases h

/-- A comparison with a small whole number survives rounding, overflow to infinity included. -/
theorem ge_round {q : ℚ} {n : ℤ} (hn : |n| < 2 ^ 53) (hNonneg : 0 ≤ n) (h : n ≤ q) : (round q).ge n = true := by
  have hNearest : (n : ℚ) ≤ nearest q := by
    rw [← nearest_whole hn]
    exact nearest_mono (by exact_mod_cast hNonneg) h
  cases hRange : toDouble q with
  | some a =>
      obtain rfl := (toDouble_eq_some.mp hRange).1
      rw [round_of_some hRange]
      exact decide_eq_true hNearest
  | none =>
      have hPos : ¬q < 0 := not_lt.mpr ((Int.cast_nonneg hNonneg).trans h)
      rw [round_of_none hRange, decide_eq_false hPos]
      rfl

theorem zero_whole : |(0 : ℤ)| < 2 ^ 53 := by norm_num

theorem one_whole : |(1 : ℤ)| < 2 ^ 53 := by norm_num

theorem round_zero : round 0 = .finite ((0 : ℤ) : ℚ) (toDouble_whole zero_whole) := by
  simpa using round_whole zero_whole

theorem round_one : round 1 = .finite ((1 : ℤ) : ℚ) (toDouble_whole one_whole) := by
  simpa using round_whole one_whole

variable {a : ℚ} (ha : toDouble a = some a)

/-- What is finite already is not rounded again. -/
theorem round_finite : round a = .finite a ha := round_of_some ha

theorem zero_add_finite : (round 0).add (.finite a ha) = .finite a ha := by
  rw [round_zero, add, Int.cast_zero, zero_add, round_finite ha]

theorem one_mul_finite : (round 1).mul (.finite a ha) = .finite a ha := by
  rw [round_one, mul, Int.cast_one, one_mul, round_finite ha]

/-- The factor of the start vanishes at the end of a walk, and does so exactly. -/
theorem one_sub_one_mul : ((round 1).sub (round 1)).mul (.finite a ha) = round 0 := by
  have hMinus : round (-1) = .finite ((-1 : ℤ) : ℚ) (toDouble_whole (by norm_num)) := by
    simpa using round_whole (n := -1) (by norm_num)
  have hNeg : (round 1).neg = round (-1) := by
    rw [round_one, neg]
    simp
  have hNothing : (round 1).sub (round 1) = round 0 := by
    rw [sub, hNeg, round_one, hMinus, add]
    norm_num
  rw [hNothing]
  conv_lhs => rw [round_zero]
  rw [mul, Int.cast_zero, zero_mul]

end Double

end Python
