import MirCi.Wayland.ScreencopyTracker

/-! When `percent_damage` stays within 0 and 100. The total is multiplied by a
hundred before it is divided, and the product is rounded: rounded up far enough,
a tracker whose every pixel was damaged reports more than a hundred percent. -/
namespace MirCi.Wayland

open Python

/-! ### Doubles near a number -/

/-- From here on rounding leaves the range of doubles: half a unit in the last place
below `2 ^ 1024`. -/
def doubleLimit : ℚ := (2 ^ 53 - 1 / 2) * 2 ^ (971 : ℤ)

theorem ulp_of_bounds {q : ℚ} {e : ℤ} (hExponent : -1022 ≤ e) (hLower : 2 ^ e ≤ q)
    (hUpper : q < 2 ^ (e + 1)) : ulp q = 2 ^ (e - 52) := by
  have hPos : 0 < q := lt_of_lt_of_le (by positivity) hLower
  have hBelow := (Int.zpow_le_iff_le_log (b := 2) (by norm_num) hPos).mp (by exact_mod_cast hLower)
  have hAbove := (Int.lt_zpow_iff_log_lt (b := 2) (by norm_num) hPos).mp (by exact_mod_cast hUpper)
  rw [ulp_eq, place_of_pos hPos]
  congr 1
  omega

theorem nearest_two_zpow {e : ℤ} (h : -1022 ≤ e) : nearest (2 ^ e) = 2 ^ e := by
  have hBits := nearest_of_bits (n := 1) (k := e) (by omega) (by norm_num)
  simpa using hBits

theorem nearest_lt_limit_iff {q : ℚ} (h : 0 ≤ q) : nearest q < 2 ^ 1024 ↔ q < doubleLimit := by
  have hTop : (2 : ℚ) ^ 1024 = 2 ^ (1024 : ℤ) := (zpow_natCast 2 1024).symm
  have hSplit : (2 : ℚ) ^ (1024 : ℤ) = 2 ^ 53 * 2 ^ (971 : ℤ) := by
    rw [← zpow_natCast, ← zpow_add₀ (by norm_num)]
    rfl
  have hHalf : (2 : ℚ) ^ (1023 : ℤ) = 2 ^ 52 * 2 ^ (971 : ℤ) := by
    rw [← zpow_natCast, ← zpow_add₀ (by norm_num)]
    rfl
  have hPos : (0 : ℚ) < 2 ^ (971 : ℤ) := by positivity
  rw [hTop, doubleLimit]
  rcases lt_or_ge q (2 ^ (1023 : ℤ)) with hSmall | hLarge
  · have hNearest := nearest_mono h hSmall.le
    rw [nearest_two_zpow (by norm_num), hHalf] at hNearest
    rw [hHalf] at hSmall
    rw [hSplit]
    clear hTop hSplit hHalf
    generalize (2 : ℚ) ^ (971 : ℤ) = unit at *
    constructor <;> intro _ <;> linarith
  rcases lt_or_ge q (2 ^ (1024 : ℤ)) with hInside | hOutside
  · have hUlp : ulp q = 2 ^ (971 : ℤ) := ulp_of_bounds (e := 1023) (by norm_num) hLarge hInside
    have hRounded := roundHalfEven_lt_iff (q := q / ulp q) (n := 2 ^ 53) (by norm_num)
    have hCast : ((2 ^ 53 : ℤ) : ℚ) = 2 ^ 53 := by norm_num
    rw [hUlp, div_lt_iff₀ hPos, hCast] at hRounded
    rw [nearest, hUlp, hSplit, mul_lt_mul_iff_left₀ hPos, ← hRounded, ← hCast, Int.cast_lt]
  · have hNearest := nearest_mono (by positivity) hOutside
    rw [nearest_two_zpow (by norm_num)] at hNearest
    rw [hSplit] at hNearest hOutside ⊢
    clear hTop hSplit hHalf hLarge
    generalize (2 : ℚ) ^ (971 : ℤ) = unit at *
    constructor <;> intro _ <;> linarith

/-- A hundred is the nearest double up to half a unit above it, the tie included. -/
theorem nearest_le_hundred_iff {q : ℚ} (h : 0 ≤ q) :
    nearest q ≤ 100 ↔ q * 2 ^ 47 ≤ 100 * 2 ^ 47 + 1 := by
  rcases lt_or_ge q 64 with hSmall | hLarge
  · have hNearest := nearest_mono h hSmall.le
    have hTop : nearest 64 = 64 := by
      have hZpow := nearest_two_zpow (e := 6) (by norm_num)
      norm_num at hZpow
      exact hZpow
    rw [hTop] at hNearest
    constructor <;> intro _ <;> linarith
  rcases lt_or_ge q 128 with hInside | hOutside
  · have hUlp : ulp q = 2 ^ (-46 : ℤ) := by
      have hBounds := ulp_of_bounds (q := q) (e := 6) (by norm_num) (by norm_num; linarith)
        (by norm_num; linarith)
      simpa using hBounds
    have hScale : (2 : ℚ) ^ (-46 : ℤ) * 2 ^ 46 = 1 := by norm_num
    have hPos : (0 : ℚ) < 2 ^ (-46 : ℤ) := by positivity
    have hRounded := roundHalfEven_le_iff (q := q / ulp q) (n := 100 * 2 ^ 46) (by norm_num)
    have hGrid : (100 : ℚ) = (100 * 2 ^ 46 : ℤ) * 2 ^ (-46 : ℤ) := by norm_num
    have hNearest : nearest q ≤ 100 ↔ roundHalfEven (q / ulp q) ≤ 100 * 2 ^ 46 := by
      rw [nearest, hUlp, hGrid, mul_le_mul_iff_left₀ hPos]
      exact Int.cast_le
    rw [hNearest, hRounded, hUlp, div_le_iff₀ hPos]
    norm_num
    constructor <;> intro _ <;> linarith
  · have hNearest := nearest_mono (by norm_num) hOutside
    have hTop : nearest 128 = 128 := by
      have hZpow := nearest_two_zpow (e := 7) (by norm_num)
      norm_num at hZpow
      exact hZpow
    rw [hTop] at hNearest
    constructor <;> intro _ <;> linarith

/-! ### The significand of a total -/

/-- The 53 bits of the double nearest to an integer. -/
def significand (n : ℕ) : ℕ := (roundHalfEven (nearest n / ulp (nearest n))).toNat

theorem significand_spec {n : ℕ} (h : 0 < n) :
    ∃ s : ℤ, -52 ≤ s ∧ 2 ^ 52 ≤ significand n ∧ significand n < 2 ^ 53 ∧
      nearest n = significand n * 2 ^ s := by
  have hOne : (1 : ℚ) ≤ nearest n := by
    have hMono := nearest_mono (p := 1) (q := n) (by norm_num) (by exact_mod_cast h)
    have hFixed := nearest_two_zpow (e := 0) (by norm_num)
    rw [zpow_zero] at hFixed
    rwa [hFixed] at hMono
  have hPos : 0 < nearest (n : ℚ) := by linarith
  have hLog : 0 ≤ Int.log 2 (nearest (n : ℚ)) :=
    (Int.zpow_le_iff_le_log (b := 2) (by norm_num) hPos).mp (by simpa using hOne)
  have hPlace : place (nearest n) = Int.log 2 (nearest (n : ℚ)) - 52 := by
    rw [place_of_pos hPos]
    omega
  have hValue : nearest (n : ℚ) =
      roundHalfEven (nearest n / ulp (nearest n)) * 2 ^ place (nearest n) :=
    (nearest_nearest n).symm
  have hLower := Int.zpow_log_le_self (b := 2) (by norm_num) hPos
  have hUpper := Int.lt_zpow_succ_log_self (b := 2) (by norm_num) (nearest (n : ℚ))
  rw [Nat.cast_ofNat] at hLower hUpper
  unfold significand
  generalize roundHalfEven (nearest n / ulp (nearest n)) = m at hValue ⊢
  generalize place (nearest n) = s at hValue hPlace
  have hUnit : (0 : ℚ) < 2 ^ s := by positivity
  rw [(by omega : Int.log 2 (nearest (n : ℚ)) = 52 + s), zpow_add₀ (by norm_num), hValue] at hLower
  rw [(by omega : Int.log 2 (nearest (n : ℚ)) + 1 = 53 + s), zpow_add₀ (by norm_num), hValue] at hUpper
  have hLowerInt : (2 ^ 52 : ℤ) ≤ m := by exact_mod_cast le_of_mul_le_mul_right hLower hUnit
  have hUpperInt : m < (2 ^ 53 : ℤ) := by exact_mod_cast lt_of_mul_lt_mul_right hUpper hUnit.le
  have hNat : ((m.toNat : ℤ) : ℚ) = m := by rw [Int.toNat_of_nonneg (by linarith)]
  refine ⟨s, by omega, by omega, by omega, ?_⟩
  rw [hValue, ← hNat, Int.cast_natCast]

/-- The product with a hundred is rounded up by more than the quotient can absorb. It
takes 59 or 60 bits, of which the last 6 or 7 are rounded away: only 7 bits can do it. -/
def Overshoots (m : ℕ) : Prop :=
  2 ^ 59 ≤ 100 * m ∧
    (64 < 100 * m % 128 ∨ 100 * m % 128 = 64 ∧ 100 * m / 128 % 2 = 1) ∧
    m < 2 ^ 47 * (128 - 100 * m % 128)

instance : DecidablePred Overshoots := fun _ => inferInstanceAs (Decidable (_ ∧ _ ∧ _))

section Product

variable {m : ℕ} {s : ℤ}

theorem ulp_hundred (hs : -52 ≤ s) (hLower : 2 ^ 52 ≤ m) (hUpper : m < 2 ^ 53) :
    ulp (m * 2 ^ s * 100) = (if 100 * m < 2 ^ 59 then 64 else 128) * 2 ^ s := by
  have hUnit : (0 : ℚ) < 2 ^ s := by positivity
  have hScale (k : ℤ) : (2 : ℚ) ^ (s + k) = 2 ^ k * 2 ^ s := by
    rw [add_comm, zpow_add₀ (by norm_num)]
  have hForm : (m * 2 ^ s * 100 : ℚ) = (100 * m : ℕ) * 2 ^ s := by
    push_cast
    ring
  have hUlp (k : ℤ) (hk : 0 ≤ k) (hBelow : 2 ^ (k + 52) ≤ ((100 * m : ℕ) : ℚ))
      (hAbove : ((100 * m : ℕ) : ℚ) < 2 ^ (k + 53)) : ulp (m * 2 ^ s * 100) = 2 ^ k * 2 ^ s := by
    rw [hForm, ← hScale]
    have hBounds := ulp_of_bounds (q := (100 * m : ℕ) * 2 ^ s) (e := s + (k + 52)) (by omega)
      (by rw [hScale]; exact mul_le_mul_of_nonneg_right hBelow hUnit.le)
      (by rw [add_assoc, add_assoc, hScale]; exact mul_lt_mul_of_pos_right hAbove hUnit)
    rw [hBounds]
    congr 1
    omega
  split_ifs with hSmall
  · rw [hUlp 6 (by norm_num)]
    · norm_num
    · norm_num
      exact_mod_cast (by omega : 2 ^ 58 ≤ 100 * m)
    · norm_num
      exact_mod_cast (by omega : 100 * m < 2 ^ 59)
  · rw [hUlp 7 (by norm_num)]
    · norm_num
    · norm_num
      exact_mod_cast (by omega : 2 ^ 59 ≤ 100 * m)
    · norm_num
      exact_mod_cast (by omega : 100 * m < 2 ^ 60)

theorem nearest_hundred_le (hs : -52 ≤ s) (hLower : 2 ^ 52 ≤ m) (hUpper : m < 2 ^ 53) :
    nearest (m * 2 ^ s * 100) ≤ (100 * m + if 100 * m < 2 ^ 59 then 32 else 64) * 2 ^ s := by
  have hError := (abs_le.mp (abs_nearest_sub_le (m * 2 ^ s * 100))).2
  rw [ulp_hundred hs hLower hUpper] at hError
  split_ifs at hError ⊢ <;> linarith

/-- The seven bits of the product that are lost decide which way it is rounded. -/
theorem roundHalfEven_div_128 (n : ℕ) :
    roundHalfEven (n / 128) =
      ((n / 128 + if 64 < n % 128 ∨ n % 128 = 64 ∧ n / 128 % 2 = 1 then 1 else 0 : ℕ) : ℤ) := by
  have hSplit := Nat.div_add_mod n 128
  have hRest := Nat.mod_lt n (by norm_num : 0 < 128)
  generalize n / 128 = k at hSplit ⊢
  generalize n % 128 = rest at hSplit hRest ⊢
  subst hSplit
  have hRat : ((128 * k + rest : ℕ) : ℚ) / 128 = k + rest / 128 := by
    push_cast
    ring
  rw [hRat]
  split_ifs with hUp
  · have hHalf : (64 : ℚ) ≤ rest := by exact_mod_cast (by omega : 64 ≤ rest)
    have hWhole : (rest : ℚ) < 128 := by exact_mod_cast hRest
    have hDiff : |(((k + 1 : ℕ) : ℤ) : ℚ) - (k + rest / 128)| = 1 - rest / 128 := by
      rw [abs_of_nonneg] <;> push_cast <;> linarith
    apply roundHalfEven_eq
    · rw [hDiff]
      linarith
    · rw [hDiff]
      intro hTie
      have hExact : rest = 64 := by
        have hCast : (rest : ℚ) = 64 := by linarith
        exact_mod_cast hCast
      omega
  · have hHalf : (rest : ℚ) ≤ 64 := by exact_mod_cast (by omega : rest ≤ 64)
    have hDiff : |(((k + 0 : ℕ) : ℤ) : ℚ) - (k + rest / 128)| = rest / 128 := by
      have hNonneg : (0 : ℚ) ≤ rest := by positivity
      rw [abs_of_nonpos] <;> push_cast <;> linarith
    apply roundHalfEven_eq
    · rw [hDiff]
      linarith
    · rw [hDiff]
      intro hTie
      have hExact : rest = 64 := by
        have hCast : (rest : ℚ) = 64 := by linarith
        exact_mod_cast hCast
      omega

/-- Whether the rounded product is more than a hundred times the factor, by more than
the quotient's own rounding takes back. -/
theorem nearest_hundred_le_iff (hs : -52 ≤ s) (hLower : 2 ^ 52 ≤ m) (hUpper : m < 2 ^ 53) :
    nearest (m * 2 ^ s * 100) * 2 ^ 47 ≤ (100 * 2 ^ 47 + 1) * (m * 2 ^ s) ↔ ¬Overshoots m := by
  have hUnit : (0 : ℚ) < 2 ^ s := by positivity
  by_cases hSmall : 100 * m < 2 ^ 59
  · have hNot : ¬Overshoots m := fun h => by
      have hLarge := h.1
      omega
    have hProduct := nearest_hundred_le hs hLower hUpper
    rw [if_pos hSmall] at hProduct
    have hCast : (2 ^ 52 : ℚ) ≤ m := by exact_mod_cast hLower
    have hGrow := mul_le_mul_of_nonneg_right hCast hUnit.le
    refine iff_of_true ?_ hNot
    linarith
  · have hUlp := ulp_hundred hs hLower hUpper
    rw [if_neg hSmall] at hUlp
    have hQuotient : (m * 2 ^ s * 100 : ℚ) / (128 * 2 ^ s) = (100 * m : ℕ) / 128 := by
      field_simp
      push_cast
      ring
    have hLeft : nearest (m * 2 ^ s * 100) * 2 ^ 47 =
        (roundHalfEven ((100 * m : ℕ) / 128) * 128 * 2 ^ 47) * 2 ^ s := by
      rw [nearest, hUlp, hQuotient]
      ring
    have hRight : ((100 * 2 ^ 47 + 1) * (m * 2 ^ s) : ℚ) = ((100 * 2 ^ 47 + 1) * m) * 2 ^ s := by ring
    rw [hLeft, hRight, mul_le_mul_iff_left₀ hUnit, roundHalfEven_div_128, Int.cast_natCast]
    have hSplit := Nat.div_add_mod (100 * m) 128
    have hRest := Nat.mod_lt (100 * m) (by norm_num : 0 < 128)
    rw [Overshoots]
    generalize 100 * m / 128 = k at hSplit ⊢
    generalize 100 * m % 128 = rest at hSplit hRest ⊢
    norm_cast
    split_ifs <;> omega

end Product

/-- Two totals with different doubles are at least a unit apart. -/
theorem unit_le_of_nearest_lt {n t m : ℕ} {s : ℤ} (hLower : 2 ^ 52 ≤ m) (hUpper : m < 2 ^ 53)
    (hValue : nearest n = m * 2 ^ s) (hPos : 0 < t) (hLess : nearest n < nearest t) :
    (m + 1) * 2 ^ s ≤ nearest t := by
  obtain ⟨s', -, hLower', hUpper', hValue'⟩ := significand_spec hPos
  have hUnit : (0 : ℚ) < 2 ^ s := by positivity
  have hUnit' : (0 : ℚ) < 2 ^ s' := by positivity
  have hm : ((m + 1 : ℕ) : ℚ) ≤ 2 ^ 53 := by exact_mod_cast hUpper
  have hm' : (significand t : ℚ) ≤ 2 ^ 53 := by exact_mod_cast hUpper'.le
  have hLowerCast : (2 ^ 52 : ℚ) ≤ m := by exact_mod_cast hLower
  have hLowerCast' : (2 ^ 52 : ℚ) ≤ significand t := by exact_mod_cast hLower'
  push_cast at hm
  rw [hValue, hValue'] at hLess
  rw [hValue']
  rcases lt_trichotomy s' s with hBelow | rfl | hAbove
  · have hUnits : (2 : ℚ) ^ s' * 2 ≤ 2 ^ s := by
      rw [← zpow_add_one₀ (by norm_num)]
      exact zpow_le_zpow_right₀ (by norm_num) (by omega)
    exfalso
    nlinarith
  · have hNat : m < significand t := by exact_mod_cast lt_of_mul_lt_mul_right hLess hUnit.le
    exact mul_le_mul_of_nonneg_right (by exact_mod_cast hNat) hUnit.le
  · have hUnits : (2 : ℚ) ^ s * 2 ≤ 2 ^ s' := by
      rw [← zpow_add_one₀ (by norm_num)]
      exact zpow_le_zpow_right₀ (by norm_num) (by omega)
    nlinarith

/-! ### The percentage -/

/-- The figure is a float between 0 and 100. -/
def InPercent (x : Except Exc Double) : Prop :=
  ∃ d, x = .ok d ∧ d.ge 0 = true ∧ d.le 100 = true

/-- The totals are small enough for doubles, and either fewer pixels were damaged than
there were or the product with a hundred does not overshoot. -/
def PercentFits (pixels damage : ℕ) : Prop :=
  ((max pixels damage : ℕ) : ℚ) < doubleLimit ∧ nearest damage * 100 < doubleLimit ∧
    ¬(nearest pixels ≤ nearest damage ∧ Overshoots (significand damage))

theorem toDouble_of_lt {q : ℚ} (hNonneg : 0 ≤ q) (h : q < doubleLimit) :
    toDouble q = some (nearest q) :=
  toDouble_eq_some.mpr ⟨rfl, by
    rw [abs_of_nonneg (nearest_nonneg hNonneg)]
    exact (nearest_lt_limit_iff hNonneg).mpr h⟩

theorem toDouble_of_ge {q : ℚ} (hNonneg : 0 ≤ q) (h : doubleLimit ≤ q) : toDouble q = none := by
  rw [toDouble_eq_none, abs_of_nonneg (nearest_nonneg hNonneg)]
  by_contra hLess
  exact absurd ((nearest_lt_limit_iff hNonneg).mp (not_le.mp hLess)) (not_lt.mpr h)

theorem hundred_lt_limit : (100 : ℚ) < doubleLimit := by
  have hUnit : (1 : ℚ) ≤ 2 ^ (971 : ℤ) := one_le_zpow₀ (by norm_num) (by norm_num)
  rw [doubleLimit]
  generalize (2 : ℚ) ^ (971 : ℤ) = unit at hUnit ⊢
  linarith

theorem round_in_percent_iff {q : ℚ} (h : 0 ≤ q) :
    ((Double.round q).ge 0 = true ∧ (Double.round q).le 100 = true) ↔ nearest q ≤ 100 := by
  rcases lt_or_ge q doubleLimit with hInside | hOutside
  · rw [Double.round_of_some (toDouble_of_lt h hInside)]
    simp [Double.ge, Double.le, nearest_nonneg h]
  · rw [Double.round_of_none (toDouble_of_ge h hOutside)]
    have hLarge : ¬nearest q < 2 ^ 1024 := by
      rw [nearest_lt_limit_iff h]
      exact not_lt.mpr hOutside
    have hHundred : (100 : ℚ) < 2 ^ 1024 :=
      (by norm_num : (100 : ℚ) < 2 ^ 7).trans_le (pow_le_pow_right₀ (by norm_num) (by norm_num))
    simp only [Double.ge, Double.le]
    constructor
    · intro hInfinite
      simp [not_lt.mpr h] at hInfinite
    · intro hSmall
      exact absurd (hSmall.trans_lt hHundred) hLarge

theorem ofInt_of_lt {n : ℕ} (h : (n : ℚ) < doubleLimit) :
    Double.ofInt n = .ok (Double.round n) := by
  have hSome := toDouble_of_lt (Nat.cast_nonneg n) h
  simp [Double.ofInt, hSome]

theorem ofInt_of_ge {n : ℕ} (h : doubleLimit ≤ n) : ∃ e, Double.ofInt n = .error e := by
  have hNone := toDouble_of_ge (Nat.cast_nonneg n) h
  simp [Double.ofInt, hNone]

theorem ofInt_hundred : Double.ofInt 100 = .ok (Double.round 100) := by
  have hInside := ofInt_of_lt (n := 100) (by exact_mod_cast hundred_lt_limit)
  exact_mod_cast hInside

theorem nearest_hundred : nearest 100 = 100 := by
  have hBits := nearest_of_bits (n := 100) (k := 0) (by norm_num) (by norm_num)
  simpa using hBits

theorem nearest_pos {n : ℕ} (h : 0 < n) : 0 < nearest n := by
  obtain ⟨s, -, hLower, -, hValue⟩ := significand_spec h
  rw [hValue]
  have hBits : (0 : ℚ) < significand n := by exact_mod_cast (by omega : 0 < significand n)
  positivity

section Figure

variable {damage pixels : ℕ}

theorem percentDamage_of_ge (h : doubleLimit ≤ pixels) :
    ∃ e, ScreencopyTracker.percentDamage damage pixels = .error e := by
  obtain ⟨e, hPixels⟩ := ofInt_of_ge h
  rcases lt_or_ge (damage : ℚ) doubleLimit with hInside | hOutside
  · exact ⟨e, by simp [ScreencopyTracker.percentDamage, ofInt_of_lt hInside, ofInt_hundred, hPixels,
      bind, Except.bind]⟩
  · obtain ⟨e', hDamage⟩ := ofInt_of_ge hOutside
    exact ⟨e', by simp [ScreencopyTracker.percentDamage, hDamage, bind, Except.bind]⟩

/-- The product is divided by the nearest double of the pixels. -/
theorem percentDamage_of_lt (hLe : damage ≤ pixels) (h : (pixels : ℚ) < doubleLimit) :
    ScreencopyTracker.percentDamage damage pixels =
      (Double.round (nearest damage * 100)).div (Double.round pixels) := by
  have hDamage : (damage : ℚ) < doubleLimit := lt_of_le_of_lt (by exact_mod_cast hLe) h
  have hHundred := toDouble_of_lt (by norm_num) hundred_lt_limit
  rw [nearest_hundred] at hHundred
  simp only [ScreencopyTracker.percentDamage, ofInt_of_lt hDamage, ofInt_of_lt h, ofInt_hundred, bind,
    Except.bind, Double.round_of_some (toDouble_of_lt (Nat.cast_nonneg damage) hDamage),
    Double.round_of_some hHundred, Double.mul]

theorem in_percent_iff (hPos : 0 < pixels) (hLe : damage ≤ pixels) :
    InPercent (ScreencopyTracker.percentDamage damage pixels) ↔
      (pixels : ℚ) < doubleLimit ∧ nearest damage * 100 < doubleLimit ∧
        nearest (nearest damage * 100) * 2 ^ 47 ≤ (100 * 2 ^ 47 + 1) * nearest pixels := by
  have hDamage : 0 ≤ nearest (damage : ℚ) := nearest_nonneg (Nat.cast_nonneg damage)
  have hProduct : 0 ≤ nearest (damage : ℚ) * 100 := by linarith
  have hDivisor := nearest_pos hPos
  rcases lt_or_ge (pixels : ℚ) doubleLimit with hInside | hOutside
  · have hPixels := Double.round_of_some (toDouble_of_lt (Nat.cast_nonneg pixels) hInside)
    rw [InPercent, percentDamage_of_lt hLe hInside, hPixels]
    rcases lt_or_ge (nearest (damage : ℚ) * 100) doubleLimit with hSmall | hLarge
    · have hQuotient : 0 ≤ nearest (nearest (damage : ℚ) * 100) / nearest pixels :=
        div_nonneg (nearest_nonneg hProduct) hDivisor.le
      have hScale : nearest (nearest (damage : ℚ) * 100) / nearest pixels * 2 ^ 47 ≤ 100 * 2 ^ 47 + 1 ↔
          nearest (nearest (damage : ℚ) * 100) * 2 ^ 47 ≤ (100 * 2 ^ 47 + 1) * nearest pixels := by
        rw [div_mul_eq_mul_div, div_le_iff₀ hDivisor]
      rw [Double.round_of_some (toDouble_of_lt hProduct hSmall)]
      simp only [Double.div, hDivisor.ne', if_false, Except.ok.injEq, exists_eq_left', hInside,
        hSmall, true_and]
      rw [round_in_percent_iff hQuotient, nearest_le_hundred_iff hQuotient, hScale]
    · rw [Double.round_of_none (toDouble_of_ge hProduct hLarge)]
      simp [Double.div, hDivisor.ne', Double.le, not_lt.mpr hProduct, not_lt.mpr hDivisor.le,
        not_lt.mpr hLarge]
  · obtain ⟨e, hError⟩ := @percentDamage_of_ge damage pixels hOutside
    simp [InPercent, hError, not_lt.mpr hOutside]

end Figure

/-- `percent_damage` lies between 0 and 100 in just these cases. -/
theorem percentDamage_iff (pixels damage : ℕ) :
    InPercent (ScreencopyTracker.percentDamage damage (max (max pixels damage) 1)) ↔
      PercentFits pixels damage := by
  have hPos : 0 < max (max pixels damage) 1 := by omega
  rw [in_percent_iff hPos (by omega), PercentFits]
  have hLimit : ((max (max pixels damage) 1 : ℕ) : ℚ) < doubleLimit ↔
      ((max pixels damage : ℕ) : ℚ) < doubleLimit := by
    rw [Nat.cast_max (max pixels damage), max_lt_iff, Nat.cast_one]
    exact and_iff_left ((by norm_num : (1 : ℚ) < 100).trans hundred_lt_limit)
  rw [hLimit]
  refine and_congr_right fun hInside => and_congr_right fun hProduct => ?_
  rcases Nat.eq_zero_or_pos damage with rfl | hDamage
  · have hZero : nearest ((0 : ℕ) : ℚ) = 0 := by simp [nearest, roundHalfEven]
    have hNone : ¬Overshoots (significand 0) := by
      rw [significand, hZero]
      simp [Overshoots, roundHalfEven]
    have hRight := nearest_pos hPos
    simp only [hNone, and_false, not_false_eq_true, iff_true]
    rw [hZero, zero_mul, ← Nat.cast_zero, hZero, zero_mul]
    positivity
  obtain ⟨s, hs, hLower, hUpper, hValue⟩ := significand_spec hDamage
  have hMono : nearest (damage : ℚ) ≤ nearest ((max (max pixels damage) 1 : ℕ) : ℚ) :=
    nearest_mono (Nat.cast_nonneg damage) (by exact_mod_cast (by omega : damage ≤ _))
  rcases hMono.eq_or_lt with hSame | hLess
  · have hAll : nearest (pixels : ℚ) ≤ nearest damage := by
      rw [hSame]
      exact nearest_mono (Nat.cast_nonneg pixels) (by exact_mod_cast (by omega : pixels ≤ _))
    rw [← hSame, hValue, nearest_hundred_le_iff hs hLower hUpper]
    simp [← hValue, hAll]
  · -- more pixels than damage: a whole unit covers what rounding adds
    have hGap := unit_le_of_nearest_lt hLower hUpper hValue hPos hLess
    have hRounded := nearest_hundred_le hs hLower hUpper
    have hUnit : (0 : ℚ) < 2 ^ s := by positivity
    have hMore : damage < pixels := by
      by_contra hFew
      rw [(by omega : max (max pixels damage) 1 = damage)] at hLess
      exact lt_irrefl _ hLess
    rw [(by omega : max (max pixels damage) 1 = pixels)] at hLess hGap ⊢
    simp only [not_le.mpr hLess, false_and, not_false_eq_true, iff_true]
    have hProductLe : nearest (nearest damage * 100) ≤ 100 * nearest pixels := by
      rw [hValue]
      split_ifs at hRounded <;> linarith
    have hPixels := nearest_nonneg (Nat.cast_nonneg (α := ℚ) pixels)
    linarith

end MirCi.Wayland
