import Mathlib.Analysis.Normed.Affine.AddTorsor
import Mathlib.Analysis.Convex.Segment
import Mathlib.Tactic

/-! Walking a segment in as few equal steps as a bound on their length allows. -/
namespace Semantics.Segment

open AffineMap

section Steps

variable {E : Type*} [MetricSpace E] {p q : E} {d : ℝ}

/-- How many steps there are: the length in units of the bound, rounded up. -/
noncomputable def steps (p q : E) (d : ℝ) : ℕ := ⌈dist p q / d⌉₊

theorem steps_pos (hApart : p ≠ q) (hd : 0 < d) : 0 < steps p q d :=
  Nat.ceil_pos.mpr (div_pos (dist_pos.mpr hApart) hd)

/-- No path of fewer steps gets there. -/
theorem steps_le {path : ℕ → E} {n : ℕ} (hStart : path 0 = p) (hEnd : path n = q) (hd : 0 < d)
    (hNear : ∀ k < n, dist (path k) (path (k + 1)) ≤ d) : steps p q d ≤ n := by
  have hFar : dist p q ≤ n * d := by
    have hSum := dist_le_range_sum_of_dist_le n fun {k} hk => hNear k hk
    simpa [hStart, hEnd] using hSum
  exact Nat.ceil_le.mpr ((div_le_iff₀ hd).mpr hFar)

end Steps

section Points

variable {E : Type*} [NormedAddCommGroup E] [NormedSpace ℝ E] {p q : E} {d : ℝ}

/-- The point after so many steps of all. -/
noncomputable def point (p q : E) (n k : ℕ) : E := lineMap p q ((k : ℝ) / n)

@[simp] theorem point_zero (n : ℕ) : point p q n 0 = p := by
  simp [point]

theorem point_last {n : ℕ} (h : 0 < n) : point p q n n = q := by
  have hn : (n : ℝ) ≠ 0 := by positivity
  simp [point, div_self hn]

/-- The points lie on the segment, which is all that the bounds of an output ask for. -/
theorem point_mem_segment {n k : ℕ} (h : k ≤ n) : point p q n k ∈ segment ℝ p q := by
  rw [segment_eq_image_lineMap]
  refine ⟨(k : ℝ) / n, ⟨by positivity, ?_⟩, rfl⟩
  exact div_le_one_of_le₀ (by exact_mod_cast h) (by positivity)

/-- All steps are of one length. -/
theorem dist_point_succ (n k : ℕ) : dist (point p q n k) (point p q n (k + 1)) = dist p q / n := by
  have hStep : dist ((k : ℝ) / n) (((k + 1 : ℕ) : ℝ) / n) = 1 / n := by
    rw [Real.dist_eq, ← sub_div, abs_div]
    simp
  rw [point, point, dist_lineMap_lineMap, hStep]
  ring

/-- No step is too long. -/
theorem dist_point_succ_le (hApart : p ≠ q) (hd : 0 < d) (k : ℕ) :
    dist (point p q (steps p q d) k) (point p q (steps p q d) (k + 1)) ≤ d := by
  have hPos : (0 : ℝ) < steps p q d := by exact_mod_cast steps_pos hApart hd
  have hEnough : dist p q / d ≤ steps p q d := Nat.le_ceil _
  rw [dist_point_succ, div_le_iff₀ hPos]
  calc dist p q = dist p q / d * d := by field_simp
    _ ≤ steps p q d * d := by gcongr
    _ = d * steps p q d := mul_comm _ _

end Points

section Coordinates

variable {a b : ℝ} {n k m : ℕ}

theorem point_eq (a b : ℝ) (n k : ℕ) :
    point a b n k = (1 - (k : ℝ) / n) * a + (k : ℝ) / n * b := by
  rw [point, lineMap_apply]
  simp
  ring

/-- The points keep to the bounds of the two ends. -/
theorem point_mem_Icc {lo hi : ℝ} (ha : a ∈ Set.Icc lo hi) (hb : b ∈ Set.Icc lo hi) (h : k ≤ n) :
    point a b n k ∈ Set.Icc lo hi :=
  (convex_Icc lo hi).segment_subset ha hb (point_mem_segment h)

/-- The points of a coordinate that grows never turn back. -/
theorem point_mono (hab : a ≤ b) (h : k ≤ m) : point a b n k ≤ point a b n m := by
  have hLe : (k : ℝ) / n ≤ (m : ℝ) / n := by gcongr
  rw [point_eq, point_eq]
  nlinarith

theorem point_anti (hab : b ≤ a) (h : k ≤ m) : point a b n m ≤ point a b n k := by
  have hLe : (k : ℝ) / n ≤ (m : ℝ) / n := by gcongr
  rw [point_eq, point_eq]
  nlinarith

end Coordinates

end Semantics.Segment
