import MirCi.Python.Float

/-! Rounding to doubles. A number with 53 significant bits above the smallest
subnormal is rounded to itself, rounding is monotone on nonnegative numbers, and
the error is at most half the distance between neighbours. -/
namespace Python

/-! ### To an integer -/

/-- The rounded integer is within one half, and even if exactly one half away. -/
theorem roundHalfEven_spec (q : ℚ) :
    |(roundHalfEven q : ℚ) - q| ≤ 1 / 2 ∧
      (|(roundHalfEven q : ℚ) - q| = 1 / 2 → roundHalfEven q % 2 = 0) := by
  have hLow := Int.floor_le q
  have hHigh := Int.lt_floor_add_one q
  unfold roundHalfEven
  dsimp only
  split_ifs with hBelow hAbove hEven
  · rw [abs_of_nonpos (by linarith)]
    exact ⟨by linarith, fun h => by linarith⟩
  · rw [abs_of_nonneg (by push_cast; linarith)]
    push_cast
    exact ⟨by linarith, fun h => by linarith⟩
  · rw [abs_of_nonpos (by linarith)]
    exact ⟨by linarith, fun _ => hEven⟩
  · rw [abs_of_nonneg (by push_cast; linarith)]
    push_cast
    exact ⟨by linarith, fun _ => by omega⟩

/-- There is no other such integer. -/
theorem roundHalfEven_eq {q : ℚ} {n : ℤ} (hNear : |(n : ℚ) - q| ≤ 1 / 2)
    (hTie : |(n : ℚ) - q| = 1 / 2 → n % 2 = 0) : roundHalfEven q = n := by
  obtain ⟨hRounded, hRoundedTie⟩ := roundHalfEven_spec q
  generalize roundHalfEven q = m at hRounded hRoundedTie
  rw [abs_le] at hNear hRounded
  have hCast : (m : ℚ) - n ≤ 1 ∧ (n : ℚ) - m ≤ 1 := ⟨by linarith, by linarith⟩
  have hClose : m - n ≤ 1 ∧ n - m ≤ 1 := by exact_mod_cast hCast
  rcases (by omega : m = n ∨ m = n + 1 ∨ n = m + 1) with hSame | rfl | rfl
  · exact hSame
  · push_cast at hRounded hRoundedTie
    have hMiddle : q = n + 1 / 2 := by linarith
    have hOne := hRoundedTie (by rw [hMiddle, abs_of_nonneg] <;> linarith)
    have hOther := hTie (by rw [hMiddle, abs_of_nonpos] <;> linarith)
    omega
  · push_cast at hNear hTie
    have hMiddle : q = m + 1 / 2 := by linarith
    have hOne := hRoundedTie (by rw [hMiddle, abs_of_nonpos] <;> linarith)
    have hOther := hTie (by rw [hMiddle, abs_of_nonneg] <;> linarith)
    omega

theorem roundHalfEven_intCast (n : ℤ) : roundHalfEven n = n :=
  roundHalfEven_eq (by simp) (by simp)

theorem roundHalfEven_neg (q : ℚ) : roundHalfEven (-q) = -roundHalfEven q := by
  obtain ⟨hNear, hTie⟩ := roundHalfEven_spec q
  have hAbs : |((-roundHalfEven q : ℤ) : ℚ) - -q| = |(roundHalfEven q : ℚ) - q| := by
    push_cast
    rw [← abs_neg]
    congr 1
    ring
  exact roundHalfEven_eq (hAbs ▸ hNear) fun h => by
    have hEven := hTie (hAbs ▸ h)
    omega

theorem roundHalfEven_mono {p q : ℚ} (h : p ≤ q) : roundHalfEven p ≤ roundHalfEven q := by
  obtain ⟨hp, -⟩ := roundHalfEven_spec p
  obtain ⟨hq, -⟩ := roundHalfEven_spec q
  rw [abs_le] at hp hq
  by_contra hLess
  have hInt : roundHalfEven q + 1 ≤ roundHalfEven p := by omega
  have hCast : (roundHalfEven q : ℚ) + 1 ≤ roundHalfEven p := by exact_mod_cast hInt
  obtain rfl : p = q := by linarith
  omega

/-- The tie above an even integer still goes down to it. -/
theorem roundHalfEven_le_iff {q : ℚ} {n : ℤ} (hEven : n % 2 = 0) :
    roundHalfEven q ≤ n ↔ q ≤ n + 1 / 2 := by
  obtain ⟨hNear, hTie⟩ := roundHalfEven_spec q
  rw [abs_le] at hNear
  constructor
  · intro h
    have hCast : (roundHalfEven q : ℚ) ≤ n := by exact_mod_cast h
    linarith
  · intro h
    by_contra hAbove
    have hCast : (n : ℚ) + 1 ≤ roundHalfEven q := by exact_mod_cast not_le.mp hAbove
    have hSame : (roundHalfEven q : ℚ) = n + 1 := by linarith
    have hOdd := hTie (by rw [abs_of_nonneg] <;> linarith)
    have hInt : roundHalfEven q = n + 1 := by exact_mod_cast hSame
    omega

/-- The tie below an even integer already goes up to it. -/
theorem roundHalfEven_lt_iff {q : ℚ} {n : ℤ} (hEven : n % 2 = 0) :
    roundHalfEven q < n ↔ q < n - 1 / 2 := by
  obtain ⟨hNear, hTie⟩ := roundHalfEven_spec q
  rw [abs_le] at hNear
  constructor
  · intro h
    have hCast : (roundHalfEven q : ℚ) + 1 ≤ n := by exact_mod_cast h
    by_contra hAbove
    have hSame : (roundHalfEven q : ℚ) + 1 = n := by linarith
    have hOdd := hTie (by rw [abs_of_nonpos] <;> linarith)
    have hInt : roundHalfEven q + 1 = n := by exact_mod_cast hSame
    omega
  · intro h
    have hCast : (roundHalfEven q : ℚ) < n := by linarith
    exact_mod_cast hCast

/-! ### To a double -/

/-- The nearest number of the form of a double, whatever its size. -/
def nearest (q : ℚ) : ℚ := roundHalfEven (q / ulp q) * ulp q

theorem toDouble_eq_some {q r : ℚ} : toDouble q = some r ↔ nearest q = r ∧ |r| < 2 ^ 1024 := by
  change (if |nearest q| < 2 ^ 1024 then some (nearest q) else none) = some r ↔ _
  split_ifs with hRange
  · simp only [Option.some.injEq]
    exact ⟨fun h => ⟨h, h ▸ hRange⟩, And.left⟩
  · simp only [false_iff, not_and]
    rintro rfl
    exact hRange

theorem toDouble_eq_none {q : ℚ} : toDouble q = none ↔ 2 ^ 1024 ≤ |nearest q| := by
  change (if |nearest q| < 2 ^ 1024 then some (nearest q) else none) = none ↔ _
  split_ifs with hRange
  · simpa using hRange
  · simpa using hRange

/-- The exponent of the last place of `q`. -/
def place (q : ℚ) : ℤ := max (Int.log 2 |q| - 52) (-1074)

theorem place_of_pos {q : ℚ} (h : 0 < q) : place q = max (Int.log 2 q - 52) (-1074) := by
  rw [place, abs_of_pos h]

theorem ulp_eq (q : ℚ) : ulp q = 2 ^ place q := rfl

theorem ulp_pos (q : ℚ) : 0 < ulp q := by
  rw [ulp_eq]
  positivity

theorem abs_nearest_sub_le (q : ℚ) : |nearest q - q| ≤ ulp q / 2 := by
  have hPos := ulp_pos q
  have hScaled : nearest q - q = (roundHalfEven (q / ulp q) - q / ulp q) * ulp q := by
    rw [nearest, sub_mul, div_mul_cancel₀ _ hPos.ne']
  rw [hScaled, abs_mul, abs_of_pos hPos]
  have hError := (roundHalfEven_spec (q / ulp q)).1
  nlinarith

theorem nearest_nonneg {q : ℚ} (h : 0 ≤ q) : 0 ≤ nearest q := by
  have hRound := roundHalfEven_mono (div_nonneg h (ulp_pos q).le)
  rw [← Int.cast_zero, roundHalfEven_intCast] at hRound
  exact mul_nonneg (by exact_mod_cast hRound) (ulp_pos q).le

/-- Rounding does not cross a multiple of the last place. -/
theorem nearest_le_of_le {q : ℚ} {n : ℤ} (h : q ≤ n * ulp q) : nearest q ≤ n * ulp q := by
  have hPos := ulp_pos q
  have hRound := roundHalfEven_mono ((div_le_iff₀ hPos).mpr h)
  rw [roundHalfEven_intCast] at hRound
  exact mul_le_mul_of_nonneg_right (by exact_mod_cast hRound) hPos.le

theorem le_nearest_of_le {q : ℚ} {n : ℤ} (h : n * ulp q ≤ q) : n * ulp q ≤ nearest q := by
  have hPos := ulp_pos q
  have hRound := roundHalfEven_mono ((le_div_iff₀ hPos).mpr h)
  rw [roundHalfEven_intCast] at hRound
  exact mul_le_mul_of_nonneg_right (by exact_mod_cast hRound) hPos.le

theorem nearest_of_eq_mul {q : ℚ} {n : ℤ} (h : q = n * ulp q) : nearest q = q :=
  le_antisymm ((nearest_le_of_le h.le).trans h.ge) (h.le.trans (le_nearest_of_le h.ge))

theorem abs_lt_zpow_place (q : ℚ) : |q| < 2 ^ (place q + 53) := by
  have hLog := Int.lt_zpow_succ_log_self (b := 2) (by norm_num) |q|
  refine hLog.trans_le (zpow_le_zpow_right₀ (by norm_num) ?_)
  have hPlace := le_max_left (Int.log 2 |q| - 52) (-1074)
  rw [place]
  omega

/-- What has at most 53 significant bits is rounded to itself. -/
theorem nearest_of_bits {n k : ℤ} (hk : -1074 ≤ k) (hn : |n| < 2 ^ 53) :
    nearest (n * 2 ^ k) = n * 2 ^ k := by
  rcases eq_or_ne n 0 with rfl | hne
  · simp [nearest, roundHalfEven]
  have hPos : (0 : ℚ) < |(n : ℚ) * 2 ^ k| := by
    rw [abs_pos]
    exact mul_ne_zero (by exact_mod_cast hne) (by positivity)
  have hSmall : |(n : ℚ) * 2 ^ k| < 2 ^ (53 + k) := by
    rw [abs_mul, abs_of_pos (by positivity : (0 : ℚ) < 2 ^ k), zpow_add₀ (by norm_num)]
    have hCast : |(n : ℚ)| < 2 ^ (53 : ℤ) := by exact_mod_cast hn
    exact mul_lt_mul_of_pos_right hCast (by positivity)
  have hLog := (Int.lt_zpow_iff_log_lt (b := 2) (by norm_num) hPos).mp (by exact_mod_cast hSmall)
  have hPlace : place (n * 2 ^ k) ≤ k := max_le (by omega) hk
  apply nearest_of_eq_mul (n := n * 2 ^ (k - place (n * 2 ^ k)).toNat)
  have hSplit : (2 : ℚ) ^ k = 2 ^ (k - place (n * 2 ^ k)).toNat * 2 ^ place (n * 2 ^ k) := by
    rw [← zpow_natCast, ← zpow_add₀ (by norm_num)]
    congr 1
    omega
  rw [ulp_eq]
  push_cast
  rw [mul_assoc, ← hSplit]

/-- Rounding twice is rounding once. -/
theorem nearest_nearest (q : ℚ) : nearest (nearest q) = nearest q := by
  have hPos := ulp_pos q
  have hBound : |q / ulp q| ≤ ((2 ^ 53 : ℤ) : ℚ) := by
    rw [abs_div, abs_of_pos hPos, div_le_iff₀ hPos]
    have hPlace := (abs_lt_zpow_place q).le
    rw [add_comm, zpow_add₀ (by norm_num), ← ulp_eq] at hPlace
    exact_mod_cast hPlace
  rw [abs_le] at hBound
  have hUpper := roundHalfEven_mono hBound.2
  have hLower := roundHalfEven_mono hBound.1
  rw [roundHalfEven_neg, roundHalfEven_intCast] at hLower
  rw [roundHalfEven_intCast] at hUpper
  have hPlace : -1074 ≤ place q := le_max_right _ _
  have hForm : nearest q = roundHalfEven (q / ulp q) * 2 ^ place q := rfl
  rw [hForm]
  rcases (abs_le.mpr ⟨hLower, hUpper⟩).lt_or_eq with hLess | hCarry
  · exact nearest_of_bits hPlace hLess
  · -- the rounding carried into the next binade, where half the significand will do
    obtain ⟨half, hHalf, hBits⟩ : ∃ half : ℤ, roundHalfEven (q / ulp q) = half * 2 ∧ |half| < 2 ^ 53 := by
      rcases (abs_eq (by norm_num)).mp hCarry with hTop | hTop
      · exact ⟨2 ^ 52, by rw [hTop]; norm_num, by norm_num⟩
      · exact ⟨-2 ^ 52, by rw [hTop]; norm_num, by norm_num⟩
    have hEq : (roundHalfEven (q / ulp q) : ℚ) * 2 ^ place q = half * 2 ^ (place q + 1) := by
      rw [hHalf, zpow_add_one₀ (by norm_num)]
      push_cast
      ring
    rw [hEq]
    exact nearest_of_bits (by omega) hBits

theorem toDouble_of_toDouble {q r : ℚ} (h : toDouble q = some r) : toDouble r = some r := by
  obtain ⟨rfl, hRange⟩ := toDouble_eq_some.mp h
  exact toDouble_eq_some.mpr ⟨nearest_nearest q, hRange⟩

theorem nearest_mono {p q : ℚ} (hNonneg : 0 ≤ p) (h : p ≤ q) : nearest p ≤ nearest q := by
  rcases hNonneg.eq_or_lt with rfl | hPos
  · have hZero : nearest 0 = 0 := by simp [nearest, roundHalfEven]
    rw [hZero]
    exact nearest_nonneg h
  have hq : 0 < q := hPos.trans_le h
  have hLog := Int.log_mono_right (b := 2) hPos h
  have hPlace : place p ≤ place q := by
    rw [place_of_pos hPos, place_of_pos hq]
    omega
  rcases hPlace.eq_or_lt with hSame | hLess
  · rw [nearest, nearest, ulp_eq, ulp_eq, hSame]
    have hRound := roundHalfEven_mono (div_le_div_of_nonneg_right h (by positivity : (0:ℚ) ≤ 2 ^ place q))
    exact mul_le_mul_of_nonneg_right (by exact_mod_cast hRound) (by positivity)
  · -- a power of two lies between them, on both grids
    have hTop : place q = Int.log 2 q - 52 := by
      have hLow : -1074 ≤ place p := le_max_right _ _
      rw [place_of_pos hq] at hLess ⊢
      omega
    have hPower (r : ℚ) (hr : place r ≤ place q) :
        ((2 ^ (Int.log 2 q - place r).toNat : ℤ) : ℚ) * ulp r = 2 ^ Int.log 2 q := by
      rw [ulp_eq]
      push_cast
      rw [← zpow_natCast, ← zpow_add₀ (by norm_num)]
      congr 1
      omega
    have hBelow : p < 2 ^ Int.log 2 q := by
      have hLogLess : Int.log 2 p < Int.log 2 q := by
        rw [place_of_pos hPos] at hLess
        omega
      exact_mod_cast (Int.lt_zpow_iff_log_lt (b := 2) (by norm_num) hPos).mpr hLogLess
    have hAbove : (2 : ℚ) ^ Int.log 2 q ≤ q := by
      exact_mod_cast Int.zpow_log_le_self (b := 2) (by norm_num) hq
    calc nearest p ≤ 2 ^ Int.log 2 q := by
          rw [← hPower p hPlace] at hBelow ⊢
          exact nearest_le_of_le hBelow.le
      _ ≤ nearest q := by
          rw [← hPower q le_rfl] at hAbove ⊢
          exact le_nearest_of_le hAbove

end Python
