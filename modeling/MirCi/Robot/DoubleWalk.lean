import MirCi.Python.RoundingError
import MirCi.Robot.StraightWalk
import MirCi.Robot.TrackedPosition
import MirCi.Robot.WalkArrives

/-! Walks between pixels, in doubles: no assertion on the range fails, and every motion
is next to that of exact arithmetic. Along a far edge neither need hold. -/
namespace MirCi.Robot.WaylandHid

open Python Semantics Effect Wayland VirtualPointer

/-- Of `x ** 0.5`: the root of what is not negative is a number. -/
structure FiniteRoots (sqrt : Double → Double) : Prop extends Rooted sqrt where
  finite : ∀ (x : Double) (a : ℚ), x.Holds a → 0 ≤ a → ∃ b, (sqrt x).Holds b

/-- The position is that of a pixel, so that the far edges are left out. -/
def OnPixels (width height : ℤ) (p : Position) : Prop :=
  (0 ≤ p.1 ∧ p.1 < width) ∧ 0 ≤ p.2 ∧ p.2 < height

instance (width height : ℤ) (p : Position) : Decidable (OnPixels width height p) :=
  inferInstanceAs (Decidable ((0 ≤ p.1 ∧ p.1 < width) ∧ 0 ≤ p.2 ∧ p.2 < height))

/-- The positions are at most one pixel apart, either way. -/
def Beside (p q : Position) : Prop := |p.1 - q.1| ≤ 1 ∧ |p.2 - q.2| ≤ 1

theorem OnPixels.pixels {width height : ℤ} {p : Position} (h : OnPixels width height p) (hWidth : width ≤ 2 ^ 50)
    (hHeight : height ≤ 2 ^ 50) : Pixels p := by
  obtain ⟨⟨hLeft, hRight⟩, hTop, hBottom⟩ := h
  constructor
  · rw [abs_of_nonneg hLeft]
    omega
  · rw [abs_of_nonneg hTop]
    omega

/-! ### Between two coordinates -/

/-- What is interpolated, every result rounded. -/
def interpolated (p q : ℤ) (τ : ℚ) : ℚ :=
  nearest (nearest (nearest (1 - nearest τ) * p) + nearest (nearest τ * q))

section Between

variable {p q size : ℤ} {τ : ℚ}

theorem abs_floor_sub_floor_le {a b : ℚ} (h : |a - b| < 1) : |⌊a⌋ - ⌊b⌋| ≤ 1 := by
  rw [abs_lt] at h
  have hUp : ⌊a⌋ ≤ ⌊b + 1⌋ := Int.floor_le_floor (by linarith)
  have hDown : ⌊b⌋ ≤ ⌊a + 1⌋ := Int.floor_le_floor (by linarith)
  rw [Int.floor_add_one] at hUp hDown
  rw [abs_le]
  omega

/-- A fraction stays one when it is rounded. -/
theorem nearest_fraction {a : ℚ} (h : 0 ≤ a ∧ a ≤ 1) :
    (0 ≤ nearest a ∧ nearest a ≤ 1) ∧ |nearest a - a| ≤ 1 / 2 ^ 53 := by
  have hAbs : |a| ≤ 2 ^ (0 : ℤ) := by
    rw [abs_of_nonneg h.1]
    simpa using h.2
  have hError := abs_nearest_sub_le_zpow (m := 0) (by norm_num) hAbs
  have hTop := nearest_le_whole (n := 1) h.1 (by norm_num) (by simpa using h.2)
  exact ⟨⟨nearest_nonneg h.1, by simpa using hTop⟩, by norm_num at hError ⊢; exact hError⟩

theorem rest_fraction (h : 0 ≤ τ ∧ τ ≤ 1) : 0 ≤ 1 - nearest τ ∧ 1 - nearest τ ≤ 1 := by
  obtain ⟨⟨hLow, hHigh⟩, -⟩ := nearest_fraction h
  exact ⟨by linarith, by linarith⟩

theorem coordinate_bounds (hSize : size ≤ 2 ^ 50) (h : 0 ≤ p ∧ p < size) :
    |p| < 2 ^ 53 ∧ (0 : ℚ) ≤ p ∧ (p : ℚ) ≤ 2 ^ 50 := by
  refine ⟨?_, by exact_mod_cast h.1, by exact_mod_cast h.2.le.trans hSize⟩
  rw [abs_of_nonneg h.1]
  omega

/-- The share of a coordinate, off by an eighth at most. -/
theorem nearest_share {a : ℚ} (hSize : size ≤ 2 ^ 50) (hp : 0 ≤ p ∧ p < size) (ha : 0 ≤ a ∧ a ≤ 1) :
    (0 ≤ a * p ∧ a * p ≤ 2 ^ 50) ∧ (0 ≤ nearest (a * p) ∧ nearest (a * p) ≤ p) ∧
      |nearest (a * p) - a * p| ≤ 1 / 8 := by
  obtain ⟨hWhole, hNonneg, hLarge⟩ := coordinate_bounds hSize hp
  have hProduct : 0 ≤ a * p := mul_nonneg ha.1 hNonneg
  have hLess : a * p ≤ p := mul_le_of_le_one_left hNonneg ha.2
  have hAbs : |a * p| ≤ 2 ^ (50 : ℤ) := by
    rw [abs_of_nonneg hProduct]
    exact_mod_cast hLess.trans hLarge
  have hError := abs_nearest_sub_le_zpow (m := 50) (by norm_num) hAbs
  refine ⟨⟨hProduct, hLess.trans hLarge⟩, ⟨nearest_nonneg hProduct, nearest_le_whole hProduct hWhole hLess⟩, ?_⟩
  norm_num at hError ⊢
  exact hError

/-- The sum of the two shares, before it is rounded. -/
theorem shares_le (hSize : size ≤ 2 ^ 50) (hp : 0 ≤ p ∧ p < size) (hq : 0 ≤ q ∧ q < size) (hτ : 0 ≤ τ ∧ τ ≤ 1) :
    0 ≤ nearest (nearest (1 - nearest τ) * p) + nearest (nearest τ * q) ∧
      |nearest (nearest (1 - nearest τ) * p) + nearest (nearest τ * q)| ≤ 2 ^ (51 : ℤ) := by
  obtain ⟨-, ⟨haNonneg, haLess⟩, -⟩ := nearest_share hSize hp (nearest_fraction (rest_fraction hτ)).1
  obtain ⟨-, ⟨hbNonneg, hbLess⟩, -⟩ := nearest_share hSize hq (nearest_fraction hτ).1
  obtain ⟨-, -, hpLarge⟩ := coordinate_bounds hSize hp
  obtain ⟨-, -, hqLarge⟩ := coordinate_bounds hSize hq
  have hNonneg := add_nonneg haNonneg hbNonneg
  refine ⟨hNonneg, ?_⟩
  rw [abs_of_nonneg hNonneg]
  norm_num
  linarith

/-- Interpolation between pixels is off by less than one, and does not leave the output. -/
theorem interpolated_near (hSize : size ≤ 2 ^ 50) (hp : 0 ≤ p ∧ p < size) (hq : 0 ≤ q ∧ q < size)
    (hτ : 0 ≤ τ ∧ τ ≤ 1) : (0 ≤ interpolated p q τ ∧ interpolated p q τ < size) ∧
      |interpolated p q τ - ((1 - τ) * p + τ * q)| < 1 := by
  obtain ⟨-, hpNonneg, hpLarge⟩ := coordinate_bounds hSize hp
  obtain ⟨-, hqNonneg, hqLarge⟩ := coordinate_bounds hSize hq
  obtain ⟨hFraction, hFractionError⟩ := nearest_fraction hτ
  obtain ⟨hRest, hRestError⟩ := nearest_fraction (rest_fraction hτ)
  obtain ⟨-, -, hStartError⟩ := nearest_share hSize hp hRest
  obtain ⟨-, -, hTargetError⟩ := nearest_share hSize hq hFraction
  obtain ⟨hNonneg, hSum⟩ := shares_le hSize hp hq hτ
  have hSumError := abs_nearest_sub_le_zpow (m := 51) (by norm_num) hSum
  have hQuarter : (2 : ℚ) ^ ((51 : ℤ) - 53) = 1 / 4 := by norm_num
  rw [hQuarter] at hSumError
  have hStartShare : |(nearest (1 - nearest τ) - (1 - τ)) * p| ≤ 1 / 4 := by
    have hTwice : |nearest (1 - nearest τ) - (1 - τ)| ≤ 2 / 2 ^ 53 := by
      rw [abs_le] at hFractionError hRestError ⊢
      constructor <;> linarith
    rw [abs_mul, abs_of_nonneg hpNonneg]
    exact (mul_le_mul hTwice hpLarge hpNonneg (by positivity)).trans (by norm_num)
  have hTargetShare : |(nearest τ - τ) * q| ≤ 1 / 8 := by
    rw [abs_mul, abs_of_nonneg hqNonneg]
    exact (mul_le_mul hFractionError hqLarge hqNonneg (by positivity)).trans (by norm_num)
  have hError : |interpolated p q τ - ((1 - τ) * p + τ * q)| < 1 := by
    rw [abs_le] at hStartError hTargetError hSumError hStartShare hTargetShare
    rw [interpolated, abs_lt]
    constructor <;> linarith
  have hInside : (1 - τ) * p + τ * q ≤ size - 1 := by
    have hpEnd : (p : ℚ) ≤ size - 1 := by exact_mod_cast Int.le_sub_one_of_lt hp.2
    have hqEnd : (q : ℚ) ≤ size - 1 := by exact_mod_cast Int.le_sub_one_of_lt hq.2
    nlinarith
  exact ⟨⟨nearest_nonneg hNonneg, by linarith [(abs_lt.mp hError).2]⟩, hError⟩

theorem interpolated_zero (hp : |p| < 2 ^ 53) : interpolated p q 0 = p := by
  have hOne : nearest 1 = 1 := by simpa using nearest_whole (n := 1) (by norm_num)
  simp [interpolated, nearest_zero, hOne, nearest_whole hp]

theorem interpolated_one (hq : |q| < 2 ^ 53) : interpolated p q 1 = q := by
  have hOne : nearest 1 = 1 := by simpa using nearest_whole (n := 1) (by norm_num)
  simp [interpolated, nearest_zero, hOne, nearest_whole hq]

/-- It is what the code interpolates. -/
theorem between_doubles (sqrt : Double → Double) {t : Double} (hSize : size ≤ 2 ^ 50) (hp : 0 ≤ p ∧ p < size)
    (hq : 0 ≤ q ∧ q < size) (hτ : 0 ≤ τ ∧ τ ≤ 1) (ht : t.Holds (nearest τ)) :
    ∃ y, between (doubles sqrt) t p q = .ok y ∧ y.Holds (interpolated p q τ) := by
  obtain ⟨one, hOne, hOneHolds⟩ := Double.holds_whole (n := 1) (by norm_num)
  obtain ⟨start, hStart, hStartHolds⟩ := Double.holds_whole (coordinate_bounds hSize hp).1
  obtain ⟨target, hTarget, hTargetHolds⟩ := Double.holds_whole (coordinate_bounds hSize hq).1
  have hRange {a : ℚ} {m : ℤ} (hm : m ≤ 200) (h : |a| ≤ 2 ^ m) : |a| ≤ 2 ^ 200 := by
    have hPower : (2 : ℚ) ^ m ≤ 2 ^ (200 : ℤ) := zpow_le_zpow_right₀ one_le_two hm
    exact_mod_cast h.trans hPower
  have hUnit {a : ℚ} (h : 0 ≤ a ∧ a ≤ 1) : |a| ≤ 2 ^ 200 :=
    hRange (m := 0) (by norm_num) (by rw [abs_of_nonneg h.1]; simpa using h.2)
  have hShare {a : ℚ} {r : ℤ} (hr : 0 ≤ r ∧ r < size) (h : 0 ≤ a ∧ a ≤ 1) : |a * r| ≤ 2 ^ 200 := by
    obtain ⟨⟨hLow, hHigh⟩, -⟩ := nearest_share hSize hr h
    exact hRange (m := 50) (by norm_num) (by rw [abs_of_nonneg hLow]; exact_mod_cast hHigh)
  have hFraction := (nearest_fraction hτ).1
  have hRest : (one.sub t).Holds (nearest (1 - nearest τ)) := by
    have hOne : one.Holds 1 := by simpa using hOneHolds
    exact hOne.sub ht (hUnit hFraction) (hUnit (rest_fraction hτ))
  have hRestShare := hRest.mul hStartHolds (hShare hp (nearest_fraction (rest_fraction hτ)).1)
  have hTargetShare := ht.mul hTargetHolds (hShare hq hFraction)
  refine ⟨_, ?_, hRestShare.add hTargetShare (hRange (m := 51) (by norm_num) (shares_le hSize hp hq hτ).2)⟩
  exact except_bind_ok.mpr ⟨one, hOne, except_bind_ok.mpr ⟨start, hStart, except_bind_ok.mpr ⟨target, hTarget, rfl⟩⟩⟩

end Between

/-! ### A step -/

/-- The pixel a step moves to. -/
def doublePixel (p q : Position) (n k : ℕ) : Position :=
  (⌊interpolated p.1 q.1 (k / n)⌋, ⌊interpolated p.2 q.2 (k / n)⌋)

section Step

variable (sqrt : Double → Double) {p q : Position} {width height : ℤ} {n k : ℕ}

theorem unit_fraction (hk : k ≤ n) : (0 : ℚ) ≤ (k : ℚ) / n ∧ (k : ℚ) / n ≤ 1 :=
  ⟨by positivity, div_le_one_of_le₀ (by exact_mod_cast hk) (by positivity)⟩

theorem divInt_fraction (hn : 0 < n) (hk : k ≤ n) :
    ∃ t, (doubles sqrt).divInt k n = .ok t ∧ t.Holds (nearest ((k : ℚ) / n)) := by
  obtain ⟨⟨hLow, hHigh⟩, -⟩ := nearest_fraction (unit_fraction hk)
  have hRange : |nearest ((k : ℚ) / n)| < 2 ^ 1024 := by
    rw [abs_of_nonneg hLow]
    exact hHigh.trans_lt (one_lt_pow₀ one_lt_two (by norm_num))
  have hQuotient : trueDiv k n = .ok (nearest ((k : ℚ) / n)) := by
    have hSome : toDouble ((k : ℚ) / n) = some (nearest ((k : ℚ) / n)) := toDouble_eq_some.mpr ⟨rfl, hRange⟩
    have hNonzero : (n : ℤ) ≠ 0 := by omega
    rw [trueDiv, if_neg hNonzero]
    simp only [Int.cast_natCast, hSome]
  have hAgain : toDouble (nearest ((k : ℚ) / n)) = some (nearest ((k : ℚ) / n)) :=
    toDouble_eq_some.mpr ⟨nearest_nearest _, hRange⟩
  refine ⟨Double.round (nearest ((k : ℚ) / n)), ?_, _, Double.round_of_some hAgain⟩
  simp only [doubles, hQuotient]

/-- A coordinate of the exact point. -/
theorem floor_point (a b : ℤ) (n k : ℕ) :
    ⌊Segment.point (a : ℝ) b n k⌋ = ⌊(1 - (k : ℚ) / n) * a + (k : ℚ) / n * b⌋ := by
  rw [Segment.point_eq, ← Rat.floor_cast (α := ℝ)]
  push_cast
  rfl

theorem doublePixel_zero (hp : Pixels p) : doublePixel p q n 0 = p := by
  simp [doublePixel, interpolated_zero hp.1, interpolated_zero hp.2]

theorem doublePixel_last (hn : 0 < n) (hq : Pixels q) : doublePixel p q n n = q := by
  have hSelf : (n : ℚ) / n = 1 := div_self (by positivity)
  simp [doublePixel, hSelf, interpolated_one hq.1, interpolated_one hq.2]

variable (hWidth : width ≤ 2 ^ 50) (hHeight : height ≤ 2 ^ 50) (hp : OnPixels width height p)
  (hq : OnPixels width height q)

include hWidth hHeight hp hq

theorem doublePixel_onPixels (hk : k ≤ n) : OnPixels width height (doublePixel p q n k) := by
  obtain ⟨⟨hLeft, hRight⟩, -⟩ := interpolated_near hWidth hp.1 hq.1 (unit_fraction hk)
  obtain ⟨⟨hTop, hBottom⟩, -⟩ := interpolated_near hHeight hp.2 hq.2 (unit_fraction hk)
  exact ⟨⟨Int.floor_nonneg.mpr hLeft, Int.floor_lt.mpr hRight⟩, Int.floor_nonneg.mpr hTop, Int.floor_lt.mpr hBottom⟩

/-- It is next to the pixel of the exact point. -/
theorem doublePixel_beside (hk : k ≤ n) : Beside (doublePixel p q n k) (pixel p q n k) := by
  have hAcross := abs_floor_sub_floor_le (interpolated_near hWidth hp.1 hq.1 (unit_fraction hk)).2
  have hDown := abs_floor_sub_floor_le (interpolated_near hHeight hp.2 hq.2 (unit_fraction hk)).2
  rw [← floor_point] at hAcross hDown
  exact ⟨hAcross, hDown⟩

/-- No assertion on the range fails, and the motion goes there. -/
theorem landing_doublePixel (hn : 0 < n) (hk : k ≤ n) {s : Screen Double} (hsWidth : s.width = width)
    (hsHeight : s.height = height) : ∃ point, walkPoint (doubles sqrt) p q n k = .ok point ∧
      s.landing (doubles sqrt) (.float point.1) (.float point.2) = some (doublePixel p q n k) := by
  subst hsWidth hsHeight
  have hUnit := unit_fraction hk
  obtain ⟨t, hFraction, ht⟩ := divInt_fraction sqrt hn hk
  obtain ⟨_, hx, _, rfl⟩ := between_doubles sqrt hWidth hp.1 hq.1 hUnit ht
  obtain ⟨_, hy, _, rfl⟩ := between_doubles sqrt hHeight hp.2 hq.2 hUnit ht
  obtain ⟨⟨hLeft, hRight⟩, -⟩ := interpolated_near hWidth hp.1 hq.1 hUnit
  obtain ⟨⟨hTop, hBottom⟩, -⟩ := interpolated_near hHeight hp.2 hq.2 hUnit
  have hPoint : walkPoint (doubles sqrt) p q n k = .ok (_, _) :=
    except_bind_ok.mpr ⟨t, hFraction, except_bind_ok.mpr ⟨_, hx, except_bind_ok.mpr ⟨_, hy, rfl⟩⟩⟩
  refine ⟨_, hPoint, landing_eq_some.mpr ⟨⟨?_, ?_, ?_, ?_⟩, ?_, ?_⟩⟩
  · exact hp.1.1.trans_lt hp.1.2
  · exact hp.2.1.trans_lt hp.2.2
  · simp [Number.within, doubles, Double.ge, Double.le, hLeft, hRight.le]
  · simp [Number.within, doubles, Double.ge, Double.le, hTop, hBottom.le]
  · simp [Number.toInt, doubles, Double.toInteger, truncate, hLeft, doublePixel]
  · simp [Number.toInt, doubles, Double.toInteger, truncate, hTop, doublePixel]

end Step

/-! ### How many steps -/

section Count

variable (sqrt : Double → Double) {p q : Position} {stepDistance : ℤ}

theorem nearest_pos {a : ℚ} (h : 2 ^ (-1074 : ℤ) ≤ a) : 0 < nearest a := by
  have hLeast : nearest (2 ^ (-1074 : ℤ)) = 2 ^ (-1074 : ℤ) := by
    simpa using nearest_of_bits (n := 1) (k := -1074) le_rfl (by norm_num)
  have hMono := nearest_mono (by positivity) h
  rw [hLeast] at hMono
  exact lt_of_lt_of_le (by positivity) hMono

/-- A step distance that is a float makes for some number of steps, which is at least one. -/
theorem stepCount_pos {d : Double} {b : ℚ} (hPositive : 0 < stepDistance) (hFloat : (toDouble stepDistance).isSome)
    (hd : d.Holds b) (hb : 1 ≤ b) : ∃ n : ℕ, 0 < n ∧ stepCount (doubles sqrt) d stepDistance = .ok n := by
  obtain ⟨exact, rfl⟩ := hd
  obtain ⟨s, hs⟩ := Option.isSome_iff_exists.mp hFloat
  obtain ⟨rfl, hRange⟩ := toDouble_eq_some.mp hs
  have hOne : 1 ≤ nearest stepDistance := one_le_nearest (by exact_mod_cast hPositive)
  rw [abs_of_pos (by linarith)] at hRange
  obtain ⟨hSame, hbRange⟩ := toDouble_eq_some.mp exact
  rw [abs_of_pos (by linarith)] at hbRange
  have hLess : b / nearest stepDistance ≤ b := div_le_self (by linarith) hOne
  have hNonneg : 0 ≤ b / nearest stepDistance := by positivity
  have hPos : 0 < nearest (b / nearest stepDistance) := by
    refine nearest_pos ?_
    calc (2 : ℚ) ^ (-1074 : ℤ) ≤ 2 ^ (-1024 : ℤ) := zpow_le_zpow_right₀ one_le_two (by norm_num)
      _ = 1 / 2 ^ 1024 := by rw [zpow_neg, one_div]; rfl
      _ ≤ b / nearest stepDistance := div_le_div₀ (by linarith) hb (by linarith) hRange.le
  have hQuotient : toDouble (b / nearest stepDistance) = some (nearest (b / nearest stepDistance)) := by
    refine toDouble_eq_some.mpr ⟨rfl, ?_⟩
    rw [abs_of_pos hPos]
    exact ((nearest_mono hNonneg hLess).trans hSame.le).trans_lt hbRange
  have hCeil : 0 < ⌈nearest (b / nearest stepDistance)⌉ := Int.ceil_pos.mpr hPos
  refine ⟨⌈nearest (b / nearest stepDistance)⌉.toNat, by omega, ?_⟩
  have hStep : Double.ofInt stepDistance = .ok (.finite (nearest stepDistance) (toDouble_of_toDouble hs)) := by
    rw [Double.ofInt, hFloat, if_pos rfl, Double.round_of_some hs]
  have hNonzero : nearest stepDistance ≠ 0 := by positivity
  refine except_bind_ok.mpr ⟨_, hStep, except_bind_ok.mpr ⟨Double.round (b / nearest stepDistance), ?_, ?_⟩⟩
  · exact if_neg hNonzero
  · rw [Double.round_of_some hQuotient, Int.toNat_of_nonneg hCeil.le]
    rfl

/-- Two pixels have a distance, and some number of steps between them. -/
theorem steps_doubles {sqrt : Double → Double} (hSqrt : FiniteRoots sqrt) {width height : ℤ}
    (hWidth : width ≤ 2 ^ 50) (hHeight : height ≤ 2 ^ 50) (hp : OnPixels width height p)
    (hq : OnPixels width height q) (hApart : p ≠ q) (hPositive : 0 < stepDistance)
    (hFloat : (toDouble stepDistance).isSome) : ∃ (d : Double) (n : ℕ), 0 < n ∧
      distance (doubles sqrt) p q = .ok d ∧ isZero (doubles sqrt) d = false ∧
        stepCount (doubles sqrt) d stepDistance = .ok n := by
  have hSquare {a b size : ℤ} (hSize : size ≤ 2 ^ 50) (ha : 0 ≤ a ∧ a < size) (hb : 0 ≤ b ∧ b < size) :
      (a - b) ^ 2 ≤ 2 ^ 100 := by
    have hBelow : |a - b| ≤ |2 ^ 50| := by
      rw [abs_le, abs_of_nonneg (by norm_num)]
      omega
    exact (sq_le_sq.mpr hBelow).trans (by norm_num)
  have hSum : |(p.1 - q.1) ^ 2 + (p.2 - q.2) ^ 2| ≤ 2 ^ 200 := by
    have hFirst := hSquare hWidth hp.1 hq.1
    have hSecond := hSquare hHeight hp.2 hq.2
    rw [abs_of_nonneg (by positivity)]
    omega
  obtain ⟨x, hx, hHolds⟩ := Double.holds_ofInt hSum
  have hNonneg : (0 : ℚ) ≤ ((p.1 - q.1) ^ 2 + (p.2 - q.2) ^ 2 : ℤ) := by
    push_cast
    positivity
  obtain ⟨b, hb⟩ := hSqrt.finite x _ hHolds (nearest_nonneg hNonneg)
  have hDistance : distance (doubles sqrt) p q = .ok (sqrt x) := distance_eq_ok.mpr ⟨x, hx, rfl⟩
  obtain ⟨hSame, -⟩ | ⟨-, hAtLeast⟩ := distance_doubles hSqrt.toRooted hDistance
  · exact absurd hSame hApart
  have hOne : 1 ≤ b := by
    obtain ⟨_, hb⟩ := hb
    rw [hb] at hAtLeast
    exact of_decide_eq_true hAtLeast
  obtain ⟨n, hn, hCount⟩ := stepCount_pos sqrt hPositive hFloat hb hOne
  exact ⟨sqrt x, n, hn, hDistance, not_isZero hAtLeast, hCount⟩

end Count

/-! ### The walk -/

section Walk

variable {F : Type} {A : Arithmetic F} {v : View F (Option Position)} {answers : Answers F} (delay : F)
  {p q : Position} {stepDistance : ℤ} {n : ℕ}

/-- A client that walks from `p` and has sent these motions. -/
def Walking (v : View F (Option Position)) (p : Position) (sent : List Position) (c : Self F) : Prop :=
  c.attributes.view = { v with extra := some p, motions := sent }

theorem size_of_view {c : Self F} (hView : c.attributes.view = v) :
    c.attributes.outputWidth = v.screen.width ∧ c.attributes.outputHeight = v.screen.height :=
  ⟨congrArg (fun v => v.screen.width) hView, congrArg (fun v => v.screen.height) hView⟩

/-- A walk from nowhere first moves to the origin. -/
theorem triple_locate_quiet (hPointer : v.pointer ≠ none) (hSteady : answers.Steady A v.screen)
    (hQuiet : answers.Quiet) (hw : 0 < v.screen.width) (hh : 0 < v.screen.height) :
    Triple (fun c : Self F => c.attributes.view = v) (locate (hand A delay answers))
      (fun _ => Walking v (v.extra.getD (0, 0)) (v.motions ++ originMotions v.extra)) fun _ => False := by
  refine triple_get_bind_of fun c hView => ?_
  have hPosition : c.attributes.extra = v.extra := congrArg View.extra hView
  refine triple_when (fun hNone => ?_) fun hKnown c hView => ?_
  · have hExtra : v.extra = none := hPosition.symm.trans hNone
    have hSet : Triple (fun c : Self F => c.attributes.view = v)
        (modify (setPosition (0, 0)) : Method (Self F) Unit)
        (fun _ c => c.attributes.view = { v with extra := some (0, 0) }) fun _ => False := by
      refine triple_modify fun c hView => ?_
      subst hView
      rfl
    have hLands : v.screen.landing A (.int 0) (.int 0) = some (0, 0) :=
      landing_eq_some.mpr ⟨⟨hw, hh, by simpa [Number.within] using hw.le,
        by simpa [Number.within] using hh.le⟩, rfl, rfl⟩
    have hMove := triple_moveToAbsolute_quiet (v := ({ v with extra := some (0, 0) } : View F (Option Position)))
      (x := .int 0) (y := .int 0) hPointer hSteady.move hQuiet.move hLands
    refine triple_bind hSet fun _ => hMove.mono (fun _ c hMoved => ?_) fun _ h => h
    rw [Walking, hMoved, hExtra]
    rfl
  · obtain ⟨p, hExtra⟩ := Option.ne_none_iff_exists'.mp fun hNone => hKnown (hPosition.trans hNone)
    rw [Walking, hView, hExtra, originMotions, List.append_nil, Option.getD_some, ← hExtra]

/-- A walk all of whose points land on the output sends a motion to each of them. -/
theorem triple_landing_walk {d : F} {points : ℕ → F × F} {pixels : ℕ → Position} (hPointer : v.pointer ≠ none)
    (hSteady : answers.Steady A v.screen) (hQuiet : answers.Quiet) (hw : 0 < v.screen.width)
    (hh : 0 < v.screen.height) (hStart : v.extra.getD (0, 0) = p) (hPositive : 0 < stepDistance)
    (hDistance : distance A p q = .ok d) (hApart : isZero A d = false)
    (hSteps : stepCount A d stepDistance = .ok n)
    (hPoints : ∀ k ≤ n, walkPoint A p q n k = .ok (points k))
    (hLands : ∀ k ≤ n, v.screen.landing A (.float (points k).1) (.float (points k).2) = some (pixels k)) :
    Triple (fun c : Self F => c.attributes.view = v) (walk A (hand A delay answers) q stepDistance)
      (fun _ => Walking v q (v.motions ++ originMotions v.extra ++ (List.range (n + 1)).map pixels))
      fun _ => False := by
  have hCount : ((n : ℤ) + 1).toNat = n + 1 := by omega
  let before := v.motions ++ originMotions v.extra
  let Inv (k : ℕ) : Self F → Prop := Walking v p (before ++ (List.range k).map pixels)
  have hStep (k : ℕ) (hk : k < ((n : ℤ) + 1).toNat) : Triple (Inv k)
      ((hand A delay answers).step k (points k)) (fun _ => Inv (k + 1)) fun _ => False := by
    let soFar : View F (Option Position) :=
      { v with extra := some p, motions := before ++ (List.range k).map pixels }
    have hMove := triple_moveToAbsolute_quiet (v := soFar) hPointer (hSteady.send k) (hQuiet.send k)
      (hLands k (by omega))
    have hMoved : soFar.moved (pixels k) =
        { v with extra := some p, motions := before ++ (List.range (k + 1)).map pixels } := by
      simp [soFar, View.moved, List.range_succ]
    rw [hMoved] at hMove
    have hSleep := triple_sleep_view
      (v := ({ v with extra := some p, motions := before ++ (List.range (k + 1)).map pixels } :
        View F (Option Position))) (hSteady.sleep delay k)
    exact triple_bind hMove fun _ => hSleep.mono (fun _ c hEnd => hEnd.2)
      fun c hCut => hCut.1 (hQuiet.sleep delay k)
  have hLocate : Triple (fun c : Self F => c.attributes.view = v) (locate (hand A delay answers))
      (fun _ => Inv 0) fun _ => False := by
    have hOrigin := triple_locate_quiet delay hPointer hSteady hQuiet hw hh
    rw [hStart] at hOrigin
    simpa [Inv, before] using hOrigin
  have hWalk := triple_walk Inv hPositive hDistance hApart hSteps (fun k hk => hPoints k (by omega)) hLocate
    (fun k c hView => congrArg View.extra hView) hStep
  refine hWalk.mono (fun _ c hEnd => ?_) fun _ h => h
  obtain ⟨t, hView, rfl⟩ := hEnd
  rw [hCount] at hView
  exact congrArg (fun w : View F (Option Position) => { w with extra := some q }) hView

end Walk

/-- A walk from one pixel to another never leaves the pixels of the output, for all that it
computes in doubles: it begins at the one, ends at the other, and each of its motions is next
to that of exact arithmetic. -/
theorem double_walk {sqrt : Double → Double} (hSqrt : FiniteRoots sqrt) {c : Self Double} {answers : Answers Double}
    (hPointer : c.attributes.pointer ≠ none) (hWidth : c.attributes.outputWidth ≤ 2 ^ 50)
    (hHeight : c.attributes.outputHeight ≤ 2 ^ 50) (p q : Position) (hStart : c.attributes.extra.getD (0, 0) = p)
    (hp : OnPixels c.attributes.outputWidth c.attributes.outputHeight p)
    (hq : OnPixels c.attributes.outputWidth c.attributes.outputHeight q) (hApart : p ≠ q) (stepDistance : ℤ)
    (hPositive : 0 < stepDistance) (hFloat : (toDouble stepDistance).isSome)
    (hSteady : answers.Steady (doubles sqrt) c.attributes.screen) (hQuiet : answers.Quiet) (delay : Double) :
    ∃ n c' sent, 0 < n ∧
      (walkPointerToAbsolute (doubles sqrt) q stepDistance delay answers).run c = .ok () c' ∧
      c'.attributes.extra = some q ∧
      motions c'.attributes.sent = motions c.attributes.sent ++ originMotions c.attributes.extra ++ sent ∧
      sent.head? = some p ∧ sent.getLast? = some q ∧ List.Forall₂ Beside sent (pixels p q n) ∧
      ∀ r ∈ sent, OnPixels c.attributes.outputWidth c.attributes.outputHeight r := by
  obtain ⟨d, n, hn, hDistance, hNotZero, hCount⟩ :=
    steps_doubles hSqrt hWidth hHeight hp hq hApart hPositive hFloat
  have hPoint (k : ℕ) : ∃ point, k ≤ n → walkPoint (doubles sqrt) p q n k = .ok point ∧
      c.attributes.screen.landing (doubles sqrt) (.float point.1) (.float point.2) = some (doublePixel p q n k) := by
    by_cases hk : k ≤ n
    · obtain ⟨point, hLands⟩ := landing_doublePixel sqrt hWidth hHeight hp hq hn hk
        (s := c.attributes.screen) rfl rfl
      exact ⟨point, fun _ => hLands⟩
    · exact ⟨(.nan, .nan), fun h => absurd h hk⟩
  choose points hPoints using hPoint
  have hWalk := triple_landing_walk delay (v := c.attributes.view) hPointer hSteady hQuiet
    (hp.1.1.trans_lt hp.1.2) (hp.2.1.trans_lt hp.2.2) hStart hPositive hDistance hNotZero hCount
    (fun k hk => (hPoints k hk).1) fun k hk => (hPoints k hk).2
  obtain ⟨_, c', hRun, hEnd⟩ := hWalk.returns rfl
  refine ⟨n, c', (List.range (n + 1)).map (doublePixel p q n), hn, ?_, congrArg View.extra hEnd,
    congrArg View.motions hEnd, ?_, ?_, ?_, fun r hr => ?_⟩
  · exact run_bind_ok.mpr ⟨(), c, connect_run_of_pointer hPointer, hRun⟩
  · rw [List.range_succ_eq_map, List.map_cons, List.head?_cons,
      doublePixel_zero (hp.pixels hWidth hHeight)]
  · rw [List.range_succ, List.map_append, List.map_singleton, List.getLast?_concat,
      doublePixel_last hn (hq.pixels hWidth hHeight)]
  · rw [pixels, List.forall₂_map_left_iff, List.forall₂_map_right_iff, List.forall₂_same]
    intro k hk
    exact doublePixel_beside hWidth hHeight hp hq (Nat.lt_succ_iff.mp (List.mem_range.mp hk))
  · obtain ⟨k, hk, rfl⟩ := List.mem_map.mp hr
    exact doublePixel_onPixels hWidth hHeight hp hq (Nat.lt_succ_iff.mp (List.mem_range.mp hk))

theorem wholeSqrt_le {a : ℚ} (h : 0 ≤ a) : ((Nat.sqrt ⌊a⌋.toNat : ℕ) : ℚ) ≤ a := by
  calc ((Nat.sqrt ⌊a⌋.toNat : ℕ) : ℚ) ≤ (⌊a⌋.toNat : ℕ) := by exact_mod_cast Nat.sqrt_le_self _
    _ = (⌊a⌋ : ℤ) := by exact_mod_cast Int.toNat_of_nonneg (Int.floor_nonneg.mpr h)
    _ ≤ a := Int.floor_le a

theorem finiteRoots_wholeSqrt : FiniteRoots wholeSqrt where
  toRooted := rooted_wholeSqrt
  finite x a hx hNonneg := by
    obtain ⟨exact, rfl⟩ := hx
    obtain ⟨hSame, hRange⟩ := toDouble_eq_some.mp exact
    rw [abs_of_nonneg hNonneg] at hRange
    have hRoot : (0 : ℚ) ≤ (Nat.sqrt ⌊a⌋.toNat : ℕ) := Nat.cast_nonneg _
    have hSome : toDouble (Nat.sqrt ⌊a⌋.toNat : ℕ) = some (nearest (Nat.sqrt ⌊a⌋.toNat : ℕ)) := by
      refine toDouble_eq_some.mpr ⟨rfl, ?_⟩
      rw [abs_of_nonneg (nearest_nonneg hRoot)]
      exact ((nearest_mono hRoot (wholeSqrt_le hNonneg)).trans hSame.le).trans_lt hRange
    exact ⟨_, _, Double.round_of_some hSome⟩

/-- A new client walks to a pixel on the last row, in steps of seven. -/
theorem double_walk_vga : ∃ n c' sent,
    (walkPointerToAbsolute (doubles wholeSqrt) (320, 479) 7 (Double.round 0)
        (walkOf (320, 479) fun _ => none).answers).run vga = .ok () c' ∧
      motions c'.attributes.sent = (0, 0) :: sent ∧ sent.getLast? = some (320, 479) ∧
        List.Forall₂ Beside sent (pixels (0, 0) (320, 479) n) := by
  have hSteady : (walkOf (320, 479) fun _ => none).answers.Steady (doubles wholeSqrt) vga.attributes.screen :=
    ⟨by simp [Sending.Steady, walkOf], by simp [Sending.Steady, walkOf], by simp [SteadySleep, walkOf]⟩
  obtain ⟨n, c', sent, -, hRun, -, hMotions, -, hLast, hBeside, -⟩ :=
    double_walk finiteRoots_wholeSqrt (c := vga) (by decide) (by decide) (by decide) (0, 0) (320, 479) rfl
      (by decide) (by decide) (by decide) 7 (by decide) (by decide +kernel) hSteady
      ⟨⟨rfl, rfl, rfl⟩, fun _ => ⟨rfl, rfl, rfl⟩, fun _ _ => rfl⟩ (Double.round 0)
  exact ⟨n, c', sent, hRun, hMotions, hLast, hBeside⟩

/-- Four steps of thirty along the right edge, of an output that is 640 wide. -/
example : ((between (doubles wholeSqrt) (Double.round (4 / 30)) 640 640).toOption.map fun x => x.le 640) =
    some false := by
  decide +kernel

end MirCi.Robot.WaylandHid
