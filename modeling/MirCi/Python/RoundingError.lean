import MirCi.Python.WholeDouble

/-! What operations on doubles are off by, when their results are not large. -/
namespace Python

theorem nearest_zero : nearest 0 = 0 := by
  simp [nearest, roundHalfEven]

theorem ulp_neg (q : ℚ) : ulp (-q) = ulp q := by
  rw [ulp_eq, ulp_eq, place, place, abs_neg]

theorem nearest_neg (q : ℚ) : nearest (-q) = -nearest q := by
  rw [nearest, nearest, ulp_neg, neg_div, roundHalfEven_neg]
  push_cast
  ring

/-- Up to a power of two the last place is known. -/
theorem ulp_le {q : ℚ} {m : ℤ} (hm : -1022 ≤ m) (hq : q ≠ 0) (h : |q| ≤ 2 ^ m) : ulp q ≤ 2 ^ (m - 52) := by
  have hPos : 0 < |q| := abs_pos.mpr hq
  have hLog : Int.log 2 |q| ≤ m := by
    rw [← Int.log_zpow (R := ℚ) (b := 2) (by norm_num) m]
    exact Int.log_mono_right hPos (by exact_mod_cast h)
  rw [ulp_eq, place]
  exact zpow_le_zpow_right₀ (by norm_num) (by omega)

theorem abs_nearest_sub_le_zpow {q : ℚ} {m : ℤ} (hm : -1022 ≤ m) (h : |q| ≤ 2 ^ m) :
    |nearest q - q| ≤ 2 ^ (m - 53) := by
  rcases eq_or_ne q 0 with rfl | hq
  · rw [nearest_zero, sub_zero, abs_zero]
    positivity
  · have hHalf : (2 : ℚ) ^ (m - 52) / 2 = 2 ^ (m - 53) := by
      rw [div_eq_mul_inv, ← zpow_neg_one, ← zpow_add₀ two_ne_zero]
      congr 1
      ring
    have hError := abs_nearest_sub_le q
    have hUlp := ulp_le hm hq h
    rw [← hHalf]
    linarith

theorem nearest_le_whole {q : ℚ} {n : ℤ} (hNonneg : 0 ≤ q) (hn : |n| < 2 ^ 53) (h : q ≤ n) : nearest q ≤ n :=
  (nearest_mono hNonneg h).trans (nearest_whole hn).le

/-- What is below 2 to the 200th is in range. -/
theorem toDouble_of_abs_le {q : ℚ} (h : |q| ≤ 2 ^ 200) : toDouble q = some (nearest q) := by
  have hTop : (2 : ℚ) ^ 201 < 2 ^ 1024 := pow_lt_pow_right₀ one_lt_two (by norm_num)
  have hError := abs_nearest_sub_le_zpow (m := 200) (by norm_num) (by exact_mod_cast h)
  have hTriangle := abs_add_le (nearest q - q) q
  rw [sub_add_cancel] at hTriangle
  refine toDouble_eq_some.mpr ⟨rfl, (hTriangle.trans (add_le_add hError h)).trans_lt (lt_trans ?_ hTop)⟩
  norm_num

/-! ### Relative to the number -/

theorem ulp_le_mul {q : ℚ} (h : 2 ^ (-1022 : ℤ) ≤ |q|) : ulp q ≤ |q| * 2 ^ (-52 : ℤ) := by
  have hPos : 0 < |q| := lt_of_lt_of_le (by positivity) h
  have hLog : -1022 ≤ Int.log 2 |q| := (Int.zpow_le_iff_le_log (b := 2) (by norm_num) hPos).mp (by exact_mod_cast h)
  have hPower : (2 : ℚ) ^ Int.log 2 |q| ≤ |q| := by
    exact_mod_cast Int.zpow_log_le_self (b := 2) (by norm_num) hPos
  have hPlace : place q = Int.log 2 |q| + -52 := by
    rw [place]
    omega
  rw [ulp_eq, hPlace, zpow_add₀ two_ne_zero]
  exact mul_le_mul_of_nonneg_right hPower (by positivity)

/-- A number that is not subnormal is rounded by a part in 2 to the 53rd at most. -/
theorem abs_nearest_sub_le_mul {q : ℚ} (h : 2 ^ (-1022 : ℤ) ≤ |q|) : |nearest q - q| ≤ |q| * 2 ^ (-53 : ℤ) := by
  have hHalf : (2 : ℚ) ^ (-53 : ℤ) = 2 ^ (-52 : ℤ) / 2 := by norm_num
  calc |nearest q - q| ≤ ulp q / 2 := abs_nearest_sub_le q
    _ ≤ |q| * 2 ^ (-52 : ℤ) / 2 := div_le_div_of_nonneg_right (ulp_le_mul h) zero_le_two
    _ = |q| * 2 ^ (-53 : ℤ) := by rw [hHalf, mul_div_assoc]

/-- A double is a multiple of its last place, and of any smaller power of two. -/
theorem exists_eq_mul_zpow {a : ℚ} {k : ℤ} (ha : nearest a = a) (hk : k ≤ place a) : ∃ m : ℤ, a = m * 2 ^ k := by
  refine ⟨roundHalfEven (a / ulp a) * 2 ^ (place a - k).toNat, ?_⟩
  have hSplit : (2 : ℚ) ^ place a = 2 ^ (place a - k).toNat * 2 ^ k := by
    rw [← zpow_natCast, ← zpow_add₀ two_ne_zero]
    congr 1
    omega
  push_cast
  rw [mul_assoc, ← hSplit, ← ulp_eq]
  exact ha.symm

theorem le_place_of_zpow_le {a : ℚ} {m : ℤ} (h : 2 ^ m ≤ a) : m - 52 ≤ place a := by
  have hPos : 0 < a := lt_of_lt_of_le (by positivity) h
  have hLog : m ≤ Int.log 2 a := (Int.zpow_le_iff_le_log (b := 2) (by norm_num) hPos).mp (by exact_mod_cast h)
  rw [place_of_pos hPos]
  omega

/-- The next double after one. -/
theorem one_add_le_of_lt {a : ℚ} (ha : nearest a = a) (h : 1 < a) : 1 + 2 ^ (-52 : ℤ) ≤ a := by
  have hPlace : -52 ≤ place a := by simpa using le_place_of_zpow_le (m := 0) (by simpa using h.le)
  obtain ⟨m, hm⟩ := exists_eq_mul_zpow ha hPlace
  have hScale : (2 : ℚ) ^ (-52 : ℤ) * 2 ^ 52 = 1 := by norm_num
  have hLess : ((2 ^ 52 : ℤ) : ℚ) < m := by
    push_cast
    nlinarith
  have hNext : ((2 ^ 52 + 1 : ℤ) : ℚ) ≤ m := Int.cast_le.mpr (Int.add_one_le_of_lt (Int.cast_lt.mp hLess))
  push_cast at hNext
  rw [hm]
  nlinarith

/-- The last double before one. -/
theorem le_one_sub_of_lt {a : ℚ} (ha : nearest a = a) (hHalf : 1 / 2 ≤ a) (h : a < 1) : a ≤ 1 - 2 ^ (-53 : ℤ) := by
  have hPower : (2 : ℚ) ^ (-1 : ℤ) ≤ a := by
    norm_num
    linarith
  obtain ⟨m, hm⟩ := exists_eq_mul_zpow (k := -53) ha (by simpa using le_place_of_zpow_le hPower)
  have hScale : (2 : ℚ) ^ (-53 : ℤ) * 2 ^ 53 = 1 := by norm_num
  have hLess : (m : ℚ) < (2 ^ 53 : ℤ) := by
    push_cast
    nlinarith
  have hPrevious : (m : ℚ) ≤ (2 ^ 53 - 1 : ℤ) := Int.cast_le.mpr (Int.le_sub_one_of_lt (Int.cast_lt.mp hLess))
  push_cast at hPrevious
  rw [hm]
  nlinarith

section Whole

variable {a : ℚ} {n : ℤ} (ha : nearest a = a) (hn : 1 ≤ n)

include ha hn

/-- Less than all of a whole number is still less when it is rounded. -/
theorem nearest_mul_lt (hWhole : |n| < 2 ^ 53) (hNonneg : 0 ≤ a) (h : a < 1) : nearest (a * n) < n := by
  have hCast : (1 : ℚ) ≤ n := by exact_mod_cast hn
  rcases lt_or_ge a (1 / 2) with hSmall | hHalf
  · have hMiddle : nearest (n * 2 ^ (-1 : ℤ)) = n * 2 ^ (-1 : ℤ) := nearest_of_bits (by norm_num) hWhole
    have hLess : a * n ≤ n * 2 ^ (-1 : ℤ) := by
      norm_num
      nlinarith
    have hMono := nearest_mono (mul_nonneg hNonneg (by linarith)) hLess
    rw [hMiddle] at hMono
    norm_num at hMono
    linarith
  · have hLast := le_one_sub_of_lt ha hHalf h
    have hPos : 0 ≤ a * n := by positivity
    have hNormal : (2 : ℚ) ^ (-1022 : ℤ) ≤ |a * n| := by
      rw [abs_of_nonneg hPos]
      calc (2 : ℚ) ^ (-1022 : ℤ) ≤ 2 ^ (-1 : ℤ) := zpow_le_zpow_right₀ one_le_two (by norm_num)
        _ = 1 / 2 := by norm_num
        _ ≤ a * n := by nlinarith
    have hError := abs_nearest_sub_le_mul hNormal
    rw [abs_of_nonneg hPos, abs_le] at hError
    norm_num at hError hLast
    nlinarith

/-- More than all of a whole number is still more when it is rounded. -/
theorem lt_nearest_mul (h : 1 < a) : n < nearest (a * n) := by
  have hCast : (1 : ℚ) ≤ n := by exact_mod_cast hn
  have hNext := one_add_le_of_lt ha h
  have hPos : 0 ≤ a * n := by positivity
  have hNormal : (2 : ℚ) ^ (-1022 : ℤ) ≤ |a * n| := by
    rw [abs_of_nonneg hPos]
    calc (2 : ℚ) ^ (-1022 : ℤ) ≤ 2 ^ (0 : ℤ) := zpow_le_zpow_right₀ one_le_two (by norm_num)
      _ = 1 := zpow_zero 2
      _ ≤ a * n := by nlinarith
  have hError := abs_nearest_sub_le_mul hNormal
  rw [abs_of_nonneg hPos, abs_le] at hError
  norm_num at hError hNext
  nlinarith

/-- A negative product does not vanish. -/
theorem nearest_mul_neg (h : a < 0) : nearest (a * n) < 0 := by
  have hCast : (1 : ℚ) ≤ n := by exact_mod_cast hn
  have hMono := nearest_mono (p := -a) (q := -(a * n)) (by linarith) (by nlinarith)
  rw [nearest_neg, nearest_neg, ha] at hMono
  linarith

end Whole

namespace Double

/-- The double denotes this number. -/
def Holds (x : Double) (a : ℚ) : Prop := ∃ exact, x = .finite a exact

variable {x y : Double} {a b : ℚ}

theorem holds_round {q : ℚ} (h : |q| ≤ 2 ^ 200) : (round q).Holds (nearest q) :=
  ⟨_, round_of_some (toDouble_of_abs_le h)⟩

theorem Holds.nearest_eq (h : x.Holds a) : nearest a = a := by
  obtain ⟨exact, -⟩ := h
  exact (toDouble_eq_some.mp exact).1

theorem holds_ofInt {n : ℤ} (h : |n| ≤ 2 ^ 200) : ∃ x, ofInt n = .ok x ∧ x.Holds (nearest n) := by
  have hRange : |(n : ℚ)| ≤ 2 ^ 200 := by exact_mod_cast h
  refine ⟨round n, ?_, holds_round hRange⟩
  rw [ofInt, toDouble_of_abs_le hRange, Option.isSome_some, if_pos rfl]

theorem holds_whole {n : ℤ} (h : |n| < 2 ^ 53) : ∃ x, ofInt n = .ok x ∧ x.Holds n :=
  ⟨round n, ofInt_whole h, _, round_whole h⟩

theorem Holds.add (hx : x.Holds a) (hy : y.Holds b) (h : |a + b| ≤ 2 ^ 200) : (x.add y).Holds (nearest (a + b)) := by
  obtain ⟨_, rfl⟩ := hx
  obtain ⟨_, rfl⟩ := hy
  exact holds_round h

theorem Holds.mul (hx : x.Holds a) (hy : y.Holds b) (h : |a * b| ≤ 2 ^ 200) : (x.mul y).Holds (nearest (a * b)) := by
  obtain ⟨_, rfl⟩ := hx
  obtain ⟨_, rfl⟩ := hy
  exact holds_round h

theorem Holds.neg (hx : x.Holds a) (h : |a| ≤ 2 ^ 200) : x.neg.Holds (-a) := by
  have hEq := hx.nearest_eq
  obtain ⟨_, rfl⟩ := hx
  have hRound := holds_round (q := -a) (by rwa [abs_neg])
  rwa [nearest_neg, hEq] at hRound

theorem Holds.sub (hx : x.Holds a) (hy : y.Holds b) (hb : |b| ≤ 2 ^ 200) (h : |a - b| ≤ 2 ^ 200) :
    (x.sub y).Holds (nearest (a - b)) := by
  have hSum := hx.add (hy.neg hb) (by rwa [← sub_eq_add_neg])
  rwa [← sub_eq_add_neg] at hSum

end Double

end Python
