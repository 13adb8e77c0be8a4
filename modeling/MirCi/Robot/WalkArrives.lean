import MirCi.Python.WholeDouble
import MirCi.Robot.Seat

/-! Walks in doubles. The last step of a walk is exactly its target. -/
namespace MirCi.Robot.WaylandHid

open Python

/-- Of `x ** 0.5`: zero has itself for a root, and the root of what is one or more is one or more. -/
structure Rooted (sqrt : Double → Double) : Prop where
  zero : sqrt (Double.round 0) = Double.round 0
  atLeast : ∀ x, x.ge 1 = true → (sqrt x).ge 1 = true

variable {sqrt : Double → Double} {p q : Position}

theorem distance_eq_ok {d : Double} : distance (doubles sqrt) p q = .ok d ↔
    ∃ x, Double.ofInt ((p.1 - q.1) ^ 2 + (p.2 - q.2) ^ 2) = .ok x ∧ sqrt x = d := by
  rw [distance, except_bind_ok]
  refine exists_congr fun x => and_congr_right fun _ => ?_
  exact ⟨Except.ok.inj, congrArg Except.ok⟩

/-- The distance of a point to itself is zero, and any other is one or more. -/
theorem distance_doubles (hSqrt : Rooted sqrt) {d : Double} (h : distance (doubles sqrt) p q = .ok d) :
    p = q ∧ d = Double.round 0 ∨ p ≠ q ∧ d.ge 1 = true := by
  obtain ⟨x, hx, rfl⟩ := distance_eq_ok.mp h
  by_cases hSame : p = q
  · subst hSame
    have hNothing : (p.1 - p.1) ^ 2 + (p.2 - p.2) ^ 2 = 0 := by ring
    rw [hNothing, Double.ofInt_whole (n := 0) (by norm_num), Int.cast_zero] at hx
    rw [← Except.ok.inj hx]
    exact .inl ⟨rfl, hSqrt.zero⟩
  · obtain ⟨exact, rfl⟩ := Double.ofInt_ok hx
    refine .inr ⟨hSame, hSqrt.atLeast _ (decide_eq_true (one_le_nearest ?_))⟩
    have hApart : 1 ≤ (p.1 - q.1) ^ 2 + (p.2 - q.2) ^ 2 := by
      by_contra hSmall
      have hFirst := sq_nonneg (p.1 - q.1)
      have hSecond := sq_nonneg (p.2 - q.2)
      refine hSame (Prod.ext ?_ ?_)
      · exact sub_eq_zero.mp (pow_eq_zero_iff two_ne_zero |>.mp (by omega))
      · exact sub_eq_zero.mp (pow_eq_zero_iff two_ne_zero |>.mp (by omega))
    exact_mod_cast hApart

theorem not_isZero {d : Double} (h : d.ge 1 = true) : isZero (doubles sqrt) d = false := by
  cases d with
  | finite a exact =>
      have hOne : 1 ≤ a := of_decide_eq_true h
      have hPos : ¬a ≤ 0 := not_le.mpr (zero_lt_one.trans_le hOne)
      simp [isZero, doubles, Double.le, hPos]
  | infinity negative =>
      cases negative
      · rfl
      · cases h
  | nan => cases h

/-- A distance that is not negative takes no negative number of steps. -/
theorem stepCount_doubles {d : Double} {stepDistance n : ℤ} (hPositive : 0 < stepDistance)
    (hNonneg : d.ge 0 = true) (h : stepCount (doubles sqrt) d stepDistance = .ok n) : 0 ≤ n := by
  obtain ⟨s, hs, hRest⟩ := except_bind_ok.mp h
  obtain ⟨quotient, hQuotient, hCeil⟩ := except_bind_ok.mp hRest
  obtain ⟨exact, rfl⟩ := Double.ofInt_ok hs
  have hDivisor : 0 ≤ nearest stepDistance := nearest_nonneg (by exact_mod_cast hPositive.le)
  have hGe : quotient.ge 0 = true := by
    cases d with
    | finite a _ =>
        change (if nearest stepDistance = 0 then _ else _) = _ at hQuotient
        split at hQuotient
        · cases hQuotient
        · obtain rfl := Except.ok.inj hQuotient
          have hNumerator : 0 ≤ a := of_decide_eq_true hNonneg
          simpa using Double.ge_round (n := 0) (by norm_num) le_rfl (by simpa using div_nonneg hNumerator hDivisor)
    | infinity negative =>
        change (if nearest stepDistance = 0 then _ else _) = _ at hQuotient
        split at hQuotient
        · cases hQuotient
        · obtain rfl := Except.ok.inj hQuotient
          have hPositive : negative = false := by simpa [Double.ge] using hNonneg
          simp [hPositive, Double.ge, hDivisor]
    | nan => cases hNonneg
  cases quotient with
  | finite a exact =>
      obtain rfl := Except.ok.inj hCeil
      exact Int.ceil_nonneg (of_decide_eq_true hGe)
  | infinity negative => cases hCeil
  | nan => cases hCeil

/-- Doubles hold both coordinates exactly. They do so for all coordinates below `2 ^ 53`; of the
larger ones they hold some and not others. -/
def Exact (p : Position) : Prop := toDouble p.1 = some (p.1 : ℚ) ∧ toDouble p.2 = some (p.2 : ℚ)

theorem Pixels.exact (h : Pixels p) : Exact p := ⟨toDouble_whole h.1, toDouble_whole h.2⟩

/-- All the way from `p` to `q`. Nothing is lost on it if `q` is a double: what is left of `p` is
multiplied by zero. -/
theorem between_last {p q : ℤ} (exact : toDouble q = some (q : ℚ)) {x : Double}
    (h : between (doubles sqrt) (Double.round 1) p q = .ok x) : x = .finite q exact := by
  obtain ⟨one, hOne, hRest⟩ := except_bind_ok.mp h
  obtain ⟨a, ha, hRest⟩ := except_bind_ok.mp hRest
  obtain ⟨b, hb, hRest⟩ := except_bind_ok.mp hRest
  obtain rfl := Except.ok.inj hRest
  obtain rfl := Except.ok.inj ((Double.ofInt_whole (n := 1) (by norm_num)).symm.trans hOne)
  obtain rfl := Except.ok.inj ((Double.ofInt_exact exact).symm.trans hb)
  obtain ⟨held, rfl⟩ := Double.ofInt_ok ha
  change Double.add (Double.mul (Double.sub (Double.round (1 : ℤ)) (Double.round 1)) _)
    (Double.mul (Double.round 1) _) = _
  rw [Int.cast_one, Double.one_sub_one_mul, Double.one_mul_finite, Double.zero_add_finite]

theorem walkPoint_last {n : ℤ} {point : Double × Double} (hq : Exact q)
    (h : walkPoint (doubles sqrt) p q n n = .ok point) : point = (.finite q.1 hq.1, .finite q.2 hq.2) := by
  obtain ⟨t, ht, hRest⟩ := except_bind_ok.mp h
  obtain ⟨x, hx, hRest⟩ := except_bind_ok.mp hRest
  obtain ⟨y, hy, hRest⟩ := except_bind_ok.mp hRest
  have hOne : t = Double.round 1 := by
    cases hDiv : trueDiv n n with
    | error e =>
        simp only [doubles, hDiv] at ht
        cases ht
    | ok one =>
        have hResult : one = 1 := trueDiv_self hDiv
        simp only [doubles, hDiv] at ht
        rw [← Except.ok.inj ht, hResult]
  rw [hOne] at hx hy
  rw [← between_last hq.1 hx, ← between_last hq.2 hy]
  exact (Except.ok.inj hRest).symm

/-- The last step of a walk is sent to the target itself. -/
theorem toInt_walkPoint_last {n : ℤ} {point : Double × Double} {left top : ℤ} (hq : Exact q)
    (hPoint : walkPoint (doubles sqrt) p q n n = .ok point) (hLeft : (doubles sqrt).toInt point.1 = .ok left)
    (hTop : (doubles sqrt).toInt point.2 = .ok top) : (left, top) = q := by
  obtain rfl := walkPoint_last hq hPoint
  refine Prod.ext ?_ ?_
  · exact (Except.ok.inj hLeft).symm.trans (truncate_whole q.1)
  · exact (Except.ok.inj hTop).symm.trans (truncate_whole q.2)

/-- A walk takes no negative number of steps. -/
theorem steps_nonneg (hSqrt : Rooted sqrt) {stepDistance n : ℤ} {d : Double} (hPositive : 0 < stepDistance)
    (hDistance : distance (doubles sqrt) p q = .ok d) (hSteps : stepCount (doubles sqrt) d stepDistance = .ok n) :
    0 ≤ n := by
  refine stepCount_doubles hPositive ?_ hSteps
  rcases distance_doubles hSqrt hDistance with ⟨-, rfl⟩ | ⟨-, hAtLeast⟩
  · rw [Double.round_zero]
    rfl
  · cases d with
    | finite a exact => exact decide_eq_true (zero_le_one.trans (of_decide_eq_true hAtLeast))
    | infinity negative => exact hAtLeast
    | nan => cases hAtLeast

/-- In doubles every walk arrives. -/
theorem arrives_doubles (hSqrt : Rooted sqrt) {stepDistance : ℤ} (hPositive : 0 < stepDistance) (p q : Position) :
    Arrives (doubles sqrt) stepDistance p q where
  stays d hDistance := by
    rcases distance_doubles hSqrt hDistance with ⟨hSame, rfl⟩ | ⟨hApart, hAtLeast⟩
    · exact iff_of_true (by rw [Double.round_zero]; rfl) hSame
    · exact iff_of_false (by simp [not_isZero hAtLeast]) hApart
  steps d n hDistance hSteps := steps_nonneg hSqrt hPositive hDistance hSteps
  last hq n point left top hPoint hLeft hTop := toInt_walkPoint_last hq.exact hPoint hLeft hTop

theorem rooted_wholeSqrt : Rooted wholeSqrt where
  zero := by decide +kernel
  atLeast x h := by
    cases x with
    | finite a exact =>
        have hOne : 1 ≤ a := of_decide_eq_true h
        have hFloor : 1 ≤ ⌊a⌋.toNat := by
          have hLow : 1 ≤ ⌊a⌋ := Int.le_floor.mpr (by exact_mod_cast hOne)
          omega
        have hRoot : 1 ≤ Nat.sqrt ⌊a⌋.toNat := Nat.le_sqrt.mpr (by omega)
        have hGe := Double.ge_round (n := 1) (q := (Nat.sqrt ⌊a⌋.toNat : ℕ)) (by norm_num) zero_le_one
          (by exact_mod_cast hRoot)
        simpa [wholeSqrt] using hGe
    | infinity negative => exact h
    | nan => cases h

end MirCi.Robot.WaylandHid
