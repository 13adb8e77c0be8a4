import MirCi.Robot.Vnc
import MirCi.Robot.WaylandHid
import MirCi.Semantics.Segment
import Mathlib.Analysis.InnerProductSpace.PiL2

/-! Walks, if arithmetic were exact. -/
namespace MirCi.Robot

open Python Semantics Effect Wayland VirtualPointer Segment

/-- Arithmetic that does not round. -/
noncomputable def exact : Arithmetic ℝ where
  ofInt n := .ok n
  divInt m n :=
    if n = 0 then .error { cls := .zeroDivisionError, text := "division by zero" } else .ok (m / n)
  add x y := x + y
  sub x y := x - y
  mul x y := x * y
  div x y :=
    if y = 0 then .error { cls := .zeroDivisionError, text := "float division by zero" } else .ok (x / y)
  sqrt := Real.sqrt
  leInt x n := decide (x ≤ n)
  geInt x n := decide ((n : ℝ) ≤ x)
  toInt x := .ok (if 0 ≤ x then ⌊x⌋ else ⌈x⌉)
  ceil x := .ok ⌈x⌉

/-- The plane, with its distances. -/
noncomputable def plane (p : ℝ × ℝ) : EuclideanSpace ℝ (Fin 2) := !₂[p.1, p.2]

/-- A position as a point. -/
def Position.point (p : Position) : ℝ × ℝ := (p.1, p.2)

/-- The interpolated point after so many steps of all. -/
noncomputable def pathPoint (p q : Position) (n k : ℕ) : ℝ × ℝ :=
  (point (p.1 : ℝ) q.1 n k, point (p.2 : ℝ) q.2 n k)

/-- How many steps a walk takes. -/
noncomputable def pathSteps (p q : Position) (stepDistance : ℤ) : ℕ :=
  steps (plane p.point) (plane q.point) stepDistance

section Path

variable {p q : Position} {stepDistance : ℤ} {n k : ℕ}

theorem plane_injective : Function.Injective plane := by
  intro a b h
  have hFirst : (plane a) 0 = (plane b) 0 := by rw [h]
  have hSecond : (plane a) 1 = (plane b) 1 := by rw [h]
  exact Prod.ext (by simpa [plane] using hFirst) (by simpa [plane] using hSecond)

theorem plane_ne (h : p ≠ q) : plane p.point ≠ plane q.point := by
  intro hSame
  obtain ⟨hFirst, hSecond⟩ : (p.1 : ℝ) = q.1 ∧ (p.2 : ℝ) = q.2 :=
    Prod.ext_iff.mp (plane_injective hSame)
  exact h (Prod.ext (by exact_mod_cast hFirst) (by exact_mod_cast hSecond))

theorem dist_plane (p q : Position) :
    dist (plane p.point) (plane q.point) = √(((p.1 - q.1) ^ 2 + (p.2 - q.2) ^ 2 : ℤ) : ℝ) := by
  simp [EuclideanSpace.dist_eq, plane, Position.point, Real.dist_eq, sq_abs]

theorem plane_pathPoint (p q : Position) (n k : ℕ) :
    plane (pathPoint p q n k) = point (plane p.point) (plane q.point) n k := by
  ext i
  fin_cases i <;> simp [plane, pathPoint, Position.point, Segment.point, AffineMap.lineMap_apply]

theorem pathPoint_eq (p q : Position) (n k : ℕ) : pathPoint p q n k = point p.point q.point n k := by
  ext <;> simp [pathPoint, Position.point, Segment.point, AffineMap.lineMap_apply]

/-! ### What the code computes -/

theorem distance_exact (p q : Position) :
    distance exact p q = .ok (dist (plane p.point) (plane q.point)) := by
  rw [dist_plane]
  rfl

theorem isZero_exact (h : p ≠ q) : isZero exact (dist (plane p.point) (plane q.point)) = false := by
  simp [isZero, exact, plane_ne h]

theorem stepCount_exact (h : 0 < stepDistance) :
    stepCount exact (dist (plane p.point) (plane q.point)) stepDistance =
      .ok (pathSteps p q stepDistance) := by
  have hPos : (0 : ℝ) < stepDistance := by exact_mod_cast h
  have hCeil : ⌈dist (plane p.point) (plane q.point) / (stepDistance : ℝ)⌉ =
      (pathSteps p q stepDistance : ℤ) := by
    rw [pathSteps, steps, Int.natCast_ceil_eq_ceil (by positivity)]
  simp only [stepCount, exact, hPos.ne', if_false, bind, Except.bind, hCeil]

theorem walkPoint_exact (h : 0 < n) : walkPoint exact p q n k = .ok (pathPoint p q n k) := by
  have hn : (n : ℤ) ≠ 0 := by omega
  simp only [walkPoint, between, exact, hn, if_false, bind, Except.bind, pure, Except.pure, pathPoint,
    point_eq]
  norm_num

end Path

/-! ### On the output -/

section Output

variable {p q : Position} {width height : ℤ} {n k : ℕ}

/-- The position is on the output, its edges included. -/
def OnOutput (width height : ℤ) (p : Position) : Prop :=
  (0 ≤ p.1 ∧ p.1 ≤ width) ∧ 0 ≤ p.2 ∧ p.2 ≤ height

/-- The pixel of an interpolated point. -/
noncomputable def pixel (p q : Position) (n k : ℕ) : Position :=
  (⌊(pathPoint p q n k).1⌋, ⌊(pathPoint p q n k).2⌋)

theorem pathPoint_bounds (hp : OnOutput width height p) (hq : OnOutput width height q) (hk : k ≤ n) :
    (0 ≤ (pathPoint p q n k).1 ∧ (pathPoint p q n k).1 ≤ width) ∧
      0 ≤ (pathPoint p q n k).2 ∧ (pathPoint p q n k).2 ≤ height := by
  have hCoordinate {a b size : ℤ} (ha : 0 ≤ a ∧ a ≤ size) (hb : 0 ≤ b ∧ b ≤ size) :
      point (a : ℝ) b n k ∈ Set.Icc (0 : ℝ) size :=
    point_mem_Icc ⟨by exact_mod_cast ha.1, by exact_mod_cast ha.2⟩
      ⟨by exact_mod_cast hb.1, by exact_mod_cast hb.2⟩ hk
  exact ⟨hCoordinate hp.1 hq.1, hCoordinate hp.2 hq.2⟩

/-- No assertion on the range fails at an interpolated point. -/
theorem landing_pathPoint (hp : OnOutput width height p) (hq : OnOutput width height q) (hk : k ≤ n)
    {s : Screen ℝ} (hWidth : s.width = width) (hHeight : s.height = height) (hw : 0 < width)
    (hh : 0 < height) :
    s.landing exact (.float (pathPoint p q n k).1) (.float (pathPoint p q n k).2) =
      some (pixel p q n k) := by
  obtain ⟨⟨hLeft, hRight⟩, hTop, hBottom⟩ := pathPoint_bounds hp hq hk
  refine landing_eq_some.mpr ⟨⟨?_, ?_, ?_, ?_⟩, ?_, ?_⟩
  · rwa [hWidth]
  · rwa [hHeight]
  · simp [Number.within, exact, hWidth, hLeft, hRight]
  · simp [Number.within, exact, hHeight, hTop, hBottom]
  · simp [Number.toInt, exact, hLeft, pixel]
  · simp [Number.toInt, exact, hTop, pixel]

/-- The motions before those of the walk proper. -/
def originMotions : Option Position → List Position
  | none => [(0, 0)]
  | some _ => []

/-- The motions of the walk proper. -/
noncomputable def pixels (p q : Position) (n : ℕ) : List Position :=
  (List.range (n + 1)).map (pixel p q n)

end Output

/-! ### The walks -/

section Walks

variable {p q : Position} {width height stepDistance : ℤ} (delay : ℝ)

/-- A client during a walk from `p` that has sent these motions. -/
def walkingView (v : View ℝ (Option Position)) (p : Position) (sent : List Position) :
    View ℝ (Option Position) :=
  { v with extra := some p, motions := v.motions ++ sent }

theorem wayland_locate {v : View ℝ (Option Position)} {answers : WaylandHid.Answers ℝ}
    (hPointer : v.pointer ≠ none) (hSteady : answers.Steady exact v.screen) (hQuiet : answers.Quiet)
    (hw : 0 < v.screen.width) (hh : 0 < v.screen.height) (hStart : v.extra.getD (0, 0) = p) :
    Triple (fun c : WaylandHid.Self ℝ => c.attributes.view = v)
      (locate (WaylandHid.hand exact delay answers))
      (fun _ c => c.attributes.view = walkingView v p (originMotions v.extra)) fun _ => False := by
  refine triple_get_bind_of fun c hView => ?_
  have hPosition : c.attributes.extra = v.extra := congrArg View.extra hView
  refine triple_when (fun hNone => ?_) fun hKnown c hView => ?_
  · have hExtra : v.extra = none := hPosition.symm.trans hNone
    obtain rfl : (0, 0) = p := by simpa [hExtra] using hStart
    refine triple_bind (?_ : Triple _ _ (fun _ c => c.attributes.view = walkingView v (0, 0) []) _) fun _ => ?_
    · refine triple_modify fun c hView => ?_
      subst hView
      simp [WaylandHid.hand, WaylandHid.setPosition, walkingView, view, screen]
    have hLands : v.screen.landing exact (.int 0) (.int 0) = some (0, 0) :=
      landing_eq_some.mpr ⟨⟨hw, hh, by simpa [Number.within] using hw.le,
        by simpa [Number.within] using hh.le⟩, rfl, rfl⟩
    have hMove := triple_moveToAbsolute_quiet (v := walkingView v (0, 0) []) (x := .int 0) (y := .int 0)
      hPointer hSteady.move hQuiet.move hLands
    refine hMove.mono (fun _ c hMoved => ?_) fun _ h => h
    rw [hMoved, hExtra]
    simp [walkingView, originMotions, View.moved]
  · obtain ⟨p', hExtra⟩ := Option.ne_none_iff_exists'.mp fun hNone => hKnown (hPosition.trans hNone)
    obtain rfl : p' = p := by simpa [hExtra] using hStart
    rw [hView, hExtra, originMotions, walkingView, List.append_nil, ← hExtra]

theorem wayland_walk {v : View ℝ (Option Position)} {answers : WaylandHid.Answers ℝ}
    (hPointer : v.pointer ≠ none) (hSteady : answers.Steady exact v.screen) (hQuiet : answers.Quiet)
    (hWidth : v.screen.width = width) (hHeight : v.screen.height = height) (hw : 0 < width)
    (hh : 0 < height) (hStart : v.extra.getD (0, 0) = p) (hp : OnOutput width height p)
    (hq : OnOutput width height q) (hApart : p ≠ q) (hPositive : 0 < stepDistance) :
    Triple (fun c : WaylandHid.Self ℝ => c.attributes.view = v)
      (walk exact (WaylandHid.hand exact delay answers) q stepDistance)
      (fun _ c => motions c.attributes.sent =
        v.motions ++ (originMotions v.extra ++ pixels p q (pathSteps p q stepDistance)))
      fun _ => False := by
  let n := pathSteps p q stepDistance
  have hn : 0 < n := steps_pos (plane_ne hApart) (by exact_mod_cast hPositive)
  let Inv (k : ℕ) (c : WaylandHid.Self ℝ) : Prop :=
    c.attributes.view = walkingView v p (originMotions v.extra ++ (List.range k).map (pixel p q n))
  have hCount : ((n : ℤ) + 1).toNat = n + 1 := by omega
  have hStep (k : ℕ) (hk : k < ((n : ℤ) + 1).toNat) : Triple (Inv k)
      ((WaylandHid.hand exact delay answers).step k (pathPoint p q n k)) (fun _ => Inv (k + 1))
      fun _ => False := by
    have hLands := landing_pathPoint hp hq (show k ≤ n by omega) (s := v.screen) hWidth hHeight hw hh
    have hMoved : (walkingView v p (originMotions v.extra ++ (List.range k).map (pixel p q n))).moved
        (pixel p q n k) =
          walkingView v p (originMotions v.extra ++ (List.range (k + 1)).map (pixel p q n)) := by
      simp [walkingView, View.moved, List.range_succ]
    have hMove := triple_moveToAbsolute_quiet (v := walkingView v p (originMotions v.extra ++
      (List.range k).map (pixel p q n))) hPointer (hSteady.send k) (hQuiet.send k) hLands
    rw [hMoved] at hMove
    have hSleep := triple_sleep_view (v := walkingView v p (originMotions v.extra ++
      (List.range (k + 1)).map (pixel p q n))) (hSteady.sleep delay k)
    exact triple_bind hMove fun _ => hSleep.mono (fun _ c hEnd => hEnd.2)
      fun c hCut => hCut.1 (hQuiet.sleep delay k)
  have hLocate : Triple (fun c : WaylandHid.Self ℝ => c.attributes.view = v)
      (locate (WaylandHid.hand exact delay answers)) (fun _ => Inv 0) fun _ => False := by
    have hOrigin := wayland_locate delay hPointer hSteady hQuiet (hWidth ▸ hw) (hHeight ▸ hh) hStart
    simpa [Inv] using hOrigin
  have hWalk := triple_walk Inv hPositive (distance_exact p q) (isZero_exact hApart)
    (stepCount_exact hPositive) (fun k _ => walkPoint_exact hn) hLocate
    (fun k c hView => congrArg View.extra hView) hStep
  refine hWalk.mono (fun _ c hEnd => ?_) fun _ h => h
  obtain ⟨t, hView, rfl⟩ := hEnd
  have hMotions : motions t.attributes.sent = _ := congrArg View.motions hView
  rw [hCount] at hMotions
  exact hMotions

theorem vnc_locate {position : Option Position} (sent : List Position) {answers : Vnc.Answers ℝ}
    (hQuiet : answers.Quiet) (hStart : position.getD (0, 0) = p) :
    Triple (Vnc.At position sent) (locate (Vnc.hand exact delay answers))
      (fun _ => Vnc.At (some p) (sent ++ originMotions position)) fun _ => False := by
  refine triple_get_bind_of fun v hAt => ?_
  have hPosition : v.pointerPosition = position := hAt.2.1
  refine triple_when (fun hNone => ?_) fun hKnown v hAt => ?_
  · have hUnknown : position = none := hPosition.symm.trans hNone
    obtain rfl : (0, 0) = p := by simpa [hUnknown] using hStart
    have hSet : Triple (Vnc.At position sent) (modify (Vnc.setPosition (0, 0)) : Method Vnc Unit)
        (fun _ => Vnc.At (some (0, 0)) sent) fun _ => False :=
      triple_modify fun v hAt => ⟨hAt.1, rfl, hAt.2.2⟩
    refine triple_bind hSet fun _ => ?_
    dsimp only [Vnc.hand]
    rw [hQuiet.move, hUnknown]
    exact Vnc.triple_mouseMove (0, 0)
  · obtain ⟨p', rfl⟩ := Option.ne_none_iff_exists'.mp fun hNone => hKnown (hPosition.trans hNone)
    obtain rfl : p' = p := hStart
    simpa [originMotions] using hAt

theorem vnc_walk {position : Option Position} (sent : List Position) {answers : Vnc.Answers ℝ}
    (hQuiet : answers.Quiet) (hStart : position.getD (0, 0) = p) (hp : OnOutput width height p)
    (hq : OnOutput width height q) (hApart : p ≠ q) (hPositive : 0 < stepDistance) :
    Triple (Vnc.At position sent) (walk exact (Vnc.hand exact delay answers) q stepDistance)
      (fun _ v => v.motions =
        sent ++ (originMotions position ++ pixels p q (pathSteps p q stepDistance)))
      fun _ => False := by
  let n := pathSteps p q stepDistance
  have hn : 0 < n := steps_pos (plane_ne hApart) (by exact_mod_cast hPositive)
  let Inv (k : ℕ) : Vnc → Prop :=
    Vnc.At (some p) (sent ++ (originMotions position ++ (List.range k).map (pixel p q n)))
  have hCount : ((n : ℤ) + 1).toNat = n + 1 := by omega
  have hStep (k : ℕ) (hk : k < ((n : ℤ) + 1).toNat) : Triple (Inv k)
      ((Vnc.hand exact delay answers).step k (pathPoint p q n k)) (fun _ => Inv (k + 1))
      fun _ => False := by
    obtain ⟨⟨hLeft, -⟩, hTop, -⟩ := pathPoint_bounds (k := k) (n := n) hp hq (by omega)
    have hX : exact.toInt (pathPoint p q n k).1 = .ok (pixel p q n k).1 := by simp [exact, hLeft, pixel]
    have hY : exact.toInt (pathPoint p q n k).2 = .ok (pixel p q n k).2 := by simp [exact, hTop, pixel]
    let soFar := sent ++ (originMotions position ++ (List.range k).map (pixel p q n))
    have hMove : Triple (Vnc.At (some p) soFar) (Vnc.mouseMove (pixel p q n k).1 (pixel p q n k).2 none)
      (fun _ => Inv (k + 1)) fun _ => False := by
      refine (Vnc.triple_mouseMove (pixel p q n k)).mono (fun _ v hAt => ?_) fun _ h => h
      simpa [Inv, soFar, List.range_succ] using hAt
    dsimp only [Vnc.hand]
    rw [hX, hY, hQuiet.write, hQuiet.sleep]
    change Triple _ (Vnc.mouseMove (pixel p q n k).1 (pixel p q n k).2 none >>= fun _ => pure ()) _ _
    exact triple_bind hMove fun _ => triple_pure () fun _ hEnd => hEnd
  have hLocate : Triple (Vnc.At position sent) (locate (Vnc.hand exact delay answers)) (fun _ => Inv 0)
      fun _ => False := by
    have hOrigin := vnc_locate delay sent hQuiet hStart
    simpa [Inv] using hOrigin
  have hWalk := triple_walk Inv hPositive (distance_exact p q) (isZero_exact hApart)
    (stepCount_exact hPositive) (fun k _ => walkPoint_exact hn) hLocate (fun k v hAt => hAt.2.1) hStep
  refine hWalk.mono (fun _ v hEnd => ?_) fun _ h => h
  obtain ⟨t, hAt, rfl⟩ := hEnd
  have hMotions : t.motions = _ := hAt.2.2
  rw [hCount] at hMotions
  exact hMotions

end Walks

/-! ### What makes a walk straight -/

/-- In the plane these points lead straight from `p` to `q`, in steps that are short enough and
as few as can be. -/
structure StraightPath (p q : Position) (stepDistance : ℤ) (n : ℕ) (points : ℕ → ℝ × ℝ) : Prop where
  mem_segment : ∀ k ≤ n, points k ∈ segment ℝ p.point q.point
  first : points 0 = p.point
  last : points n = q.point
  near : ∀ k < n, dist (plane (points k)) (plane (points (k + 1))) ≤ stepDistance
  fewest : ∀ (m : ℕ) (path : ℕ → ℝ × ℝ), path 0 = p.point → path m = q.point →
    (∀ k < m, dist (plane (path k)) (plane (path (k + 1))) ≤ stepDistance) → n ≤ m

/-- These positions are the points in whole pixels of the output, and never turn back. -/
structure WholePixels (p q : Position) (width height : ℤ) (n : ℕ) (points : ℕ → ℝ × ℝ)
    (sent : List Position) : Prop where
  floors : sent = (List.range (n + 1)).map fun k => (⌊(points k).1⌋, ⌊(points k).2⌋)
  onOutput : ∀ r ∈ sent, OnOutput width height r
  across : (p.1 ≤ q.1 → (sent.map Prod.fst).Pairwise (· ≤ ·)) ∧
    (q.1 ≤ p.1 → (sent.map Prod.fst).Pairwise (· ≥ ·))
  down : (p.2 ≤ q.2 → (sent.map Prod.snd).Pairwise (· ≤ ·)) ∧
    (q.2 ≤ p.2 → (sent.map Prod.snd).Pairwise (· ≥ ·))

section Straight

variable {p q : Position} {width height stepDistance : ℤ} {n : ℕ}

theorem straightPath_pathPoint (hApart : p ≠ q) (hPositive : 0 < stepDistance) :
    StraightPath p q stepDistance (pathSteps p q stepDistance)
      (pathPoint p q (pathSteps p q stepDistance)) where
  mem_segment k hk := by
    rw [pathPoint_eq]
    exact point_mem_segment hk
  first := by simp [pathPoint, Position.point]
  last := by
    have hn : 0 < pathSteps p q stepDistance := steps_pos (plane_ne hApart) (by exact_mod_cast hPositive)
    simp [pathPoint, Position.point, point_last hn]
  near k _ := by
    rw [plane_pathPoint, plane_pathPoint]
    exact dist_point_succ_le (plane_ne hApart) (by exact_mod_cast hPositive) k
  fewest m path hStart hEnd hNear := by
    have hPlane : (fun k => plane (path k)) 0 = plane p.point ∧ (fun k => plane (path k)) m = plane q.point :=
      ⟨congrArg plane hStart, congrArg plane hEnd⟩
    exact steps_le hPlane.1 hPlane.2 (by exact_mod_cast hPositive) hNear

/-- A coordinate of the pixels goes the way that of the points goes. -/
theorem pairwise_floor {R : ℤ → ℤ → Prop} {f : ℕ → ℝ} {coordinate : Position → ℤ} {g : ℕ → Position}
    (h : ∀ j k, j < k → R ⌊f j⌋ ⌊f k⌋) (hFloor : ∀ k, coordinate (g k) = ⌊f k⌋) :
    (((List.range (n + 1)).map g).map coordinate).Pairwise R := by
  rw [List.map_map, List.pairwise_map]
  refine List.pairwise_lt_range.imp fun {j k} hjk => ?_
  simp only [Function.comp_apply, hFloor]
  exact h j k hjk

theorem wholePixels_pixels (hp : OnOutput width height p) (hq : OnOutput width height q) :
    WholePixels p q width height n (pathPoint p q n) (pixels p q n) where
  floors := rfl
  onOutput r hr := by
    obtain ⟨k, hk, rfl⟩ := List.mem_map.mp hr
    have hLe : k ≤ n := by simpa [Nat.lt_succ_iff] using hk
    obtain ⟨⟨hLeft, hRight⟩, hTop, hBottom⟩ := pathPoint_bounds hp hq hLe
    exact ⟨⟨Int.floor_nonneg.mpr hLeft, Int.floor_le_iff.mpr (by linarith)⟩,
      Int.floor_nonneg.mpr hTop, Int.floor_le_iff.mpr (by linarith)⟩
  across := ⟨fun h => pairwise_floor
      (fun j k hjk => Int.floor_le_floor (point_mono (by exact_mod_cast h) hjk.le)) fun _ => rfl,
    fun h => pairwise_floor
      (fun j k hjk => Int.floor_le_floor (point_anti (by exact_mod_cast h) hjk.le)) fun _ => rfl⟩
  down := ⟨fun h => pairwise_floor
      (fun j k hjk => Int.floor_le_floor (point_mono (by exact_mod_cast h) hjk.le)) fun _ => rfl,
    fun h => pairwise_floor
      (fun j k hjk => Int.floor_le_floor (point_anti (by exact_mod_cast h) hjk.le)) fun _ => rfl⟩

/-- With exact arithmetic a walk is straight, in steps that are short enough and as few as can
be; it passes every assertion on the range, and sends the whole pixels of its points. -/
theorem straight_walk (hw : 0 < width) (hh : 0 < height) (hp : OnOutput width height p)
    (hq : OnOutput width height q) (hApart : p ≠ q) (hPositive : 1 ≤ stepDistance) (delay : ℝ) :
    ∃ d n points sent,
      (distance exact p q = .ok d ∧ stepCount exact d stepDistance = .ok (n : ℕ) ∧
        ∀ k : ℕ, walkPoint exact p q n k = .ok (points k)) ∧
      StraightPath p q stepDistance n points ∧ WholePixels p q width height n points sent ∧
      (∀ s : Screen ℝ, s.width = width → s.height = height → ∀ k ≤ n,
        s.landing exact (.float (points k).1) (.float (points k).2) = sent[k]?) ∧
      (∀ (c c₁ : WaylandHid.Self ℝ) (answers : WaylandHid.Answers ℝ),
        (WaylandHid.connect exact answers.connecting answers.closing).run c = .ok () c₁ →
        c₁.attributes.outputWidth = width → c₁.attributes.outputHeight = height →
        c₁.attributes.extra.getD (0, 0) = p → answers.Steady exact c₁.attributes.screen →
        answers.Quiet → ∃ c₂,
          (WaylandHid.walkPointerToAbsolute exact q stepDistance delay answers).run c = .ok () c₂ ∧
          motions c₂.attributes.sent =
            motions c₁.attributes.sent ++ (originMotions c₁.attributes.extra ++ sent)) ∧
      (∀ (v v₁ : Vnc) (answers : Vnc.Answers ℝ), (Vnc.connect answers).run v = .ok () v₁ →
        v₁.pointerPosition.getD (0, 0) = p → answers.Quiet → ∃ v₂,
          (Vnc.walkPointerToAbsolute exact q stepDistance delay answers).run v = .ok () v₂ ∧
          v₂.motions = v₁.motions ++ (originMotions v₁.pointerPosition ++ sent)) := by
  have hn : 0 < pathSteps p q stepDistance := steps_pos (plane_ne hApart) (by exact_mod_cast hPositive)
  refine ⟨_, pathSteps p q stepDistance, pathPoint p q (pathSteps p q stepDistance), _,
    ⟨distance_exact p q, stepCount_exact hPositive, fun k => walkPoint_exact hn⟩,
    straightPath_pathPoint hApart hPositive, wholePixels_pixels hp hq, ?_, ?_, ?_⟩
  · intro s hWidth hHeight k hk
    rw [landing_pathPoint hp hq hk hWidth hHeight hw hh, pixels, List.getElem?_map,
      List.getElem?_range (by omega)]
    rfl
  · intro c c₁ answers hConnect hWidth hHeight hStart hSteady hQuiet
    have hWalk := wayland_walk delay (v := c₁.attributes.view)
      (WaylandHid.pointer_of_connect hConnect) hSteady hQuiet hWidth hHeight hw hh hStart hp hq hApart hPositive
    obtain ⟨_, c₂, hRun, hMotions⟩ := hWalk.returns rfl
    exact ⟨c₂, run_bind_ok.mpr ⟨(), c₁, hConnect, hRun⟩, hMotions⟩
  · intro v v₁ answers hConnect hStart hQuiet
    have hClient : v₁.client ≠ none := Vnc.client_of_connect hConnect
    have hWalk := vnc_walk delay v₁.motions hQuiet hStart hp hq hApart hPositive
    obtain ⟨_, v₂, hRun, hMotions⟩ := hWalk.returns ⟨hClient, rfl, rfl⟩
    have hRequired := Vnc.requireClient_run_of_client hClient
    exact ⟨v₂, run_bind_ok.mpr ⟨(), v₁, hConnect, run_bind_ok.mpr ⟨(), v₁, hRequired, hRun⟩⟩, hMotions⟩

/-- A walk of fifty pixels in steps of at most twenty, by a new client. -/
theorem straight_walk_fifty : ∃ n points sent,
    StraightPath (0, 0) (30, 40) 20 n points ∧ WholePixels (0, 0) (30, 40) 640 480 n points sent ∧
      ∃ v, (Vnc.walkPointerToAbsolute exact (30, 40) 20 0 { create := .ok ⟨640, 480⟩ }).run {} = .ok () v ∧
        v.motions = (0, 0) :: sent := by
  have hOrigin : OnOutput 640 480 (0, 0) := by simp [OnOutput]
  have hTarget : OnOutput 640 480 (30, 40) := by simp [OnOutput]
  obtain ⟨d, n, points, sent, -, hPath, hPixels, -, -, hVnc⟩ :=
    straight_walk (by decide) (by decide) hOrigin hTarget (by decide) (by decide : (1 : ℤ) ≤ 20) 0
  obtain ⟨v, hRun, hMotions⟩ := hVnc {} _ { create := .ok ⟨640, 480⟩ } rfl rfl ⟨rfl, fun _ => rfl, fun _ _ => rfl⟩
  exact ⟨n, points, sent, hPath, hPixels, v, hRun, hMotions⟩

end Straight

end MirCi.Robot
