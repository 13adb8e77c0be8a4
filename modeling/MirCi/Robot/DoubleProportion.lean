import MirCi.Robot.DoubleWalk

/-! Positions in proportion to the output, in doubles. The library checks the proportion and
the pointer checks the product: what one of them lets through, the other does. -/
namespace MirCi.Robot.WaylandHid

open Python Semantics Effect Wayland VirtualPointer

/-! ### The two checks -/

section Checks

variable {n : ℤ}

/-- Rounding takes no product across an edge of the output. -/
theorem nearest_mul_mem {a : ℚ} (ha : nearest a = a) (hn : 1 ≤ n) (hWhole : |n| < 2 ^ 53) :
    0 ≤ nearest (a * n) ∧ nearest (a * n) ≤ n ↔ 0 ≤ a ∧ a ≤ 1 := by
  have hCast : (0 : ℚ) ≤ n := by exact_mod_cast zero_le_one.trans hn
  constructor
  · rintro ⟨hLow, hHigh⟩
    exact ⟨not_lt.mp fun h => (nearest_mul_neg ha hn h).not_ge hLow,
      not_lt.mp fun h => (lt_nearest_mul ha hn h).not_ge hHigh⟩
  · rintro ⟨hLow, hHigh⟩
    have hProduct : 0 ≤ a * n := mul_nonneg hLow hCast
    exact ⟨nearest_nonneg hProduct, nearest_le_whole hProduct hWhole (mul_le_of_le_one_left hCast hHigh)⟩

/-- Only all of a whole number is all of it when it is rounded. -/
theorem nearest_mul_eq_iff {a : ℚ} (ha : nearest a = a) (hn : 1 ≤ n) (hWhole : |n| < 2 ^ 53) (h : 0 ≤ a ∧ a ≤ 1) :
    nearest (a * n) = n ↔ 1 ≤ a := by
  constructor
  · intro hAll
    exact not_lt.mp fun hLess => (nearest_mul_lt ha hn hWhole h.1 hLess).ne hAll
  · intro hOne
    rw [le_antisymm h.2 hOne, one_mul, nearest_whole hWhole]

theorem toDouble_mul {a : ℚ} (hn : 1 ≤ n) (hWhole : |n| < 2 ^ 53) (h : 0 ≤ a ∧ a ≤ 1) :
    toDouble (a * n) = some (nearest (a * n)) := by
  have hCast : (0 : ℚ) ≤ n := by exact_mod_cast zero_le_one.trans hn
  have hLarge : (n : ℚ) ≤ 2 ^ 53 := by exact_mod_cast (le_abs_self n).trans hWhole.le
  refine toDouble_of_abs_le ?_
  rw [abs_of_nonneg (mul_nonneg h.1 hCast)]
  exact (mul_le_of_le_one_left hCast h.2).trans (hLarge.trans (by norm_num))

/-- The proportion of an output. -/
def Proportion (x : Double) : Prop := x.ge 0 = true ∧ x.le 1 = true

instance (x : Double) : Decidable (Proportion x) := inferInstanceAs (Decidable (_ ∧ _))

theorem within_one {sqrt : Double → Double} {x : Double} :
    (Number.float x).within (doubles sqrt) 0 1 = true ↔ Proportion x := by
  simp [Number.within, doubles, Proportion]

theorem Proportion.holds {x : Double} (h : Proportion x) : ∃ a, x.Holds a ∧ nearest a = a ∧ 0 ≤ a ∧ a ≤ 1 := by
  cases x with
  | finite a exact =>
      exact ⟨a, ⟨exact, rfl⟩, (toDouble_eq_some.mp exact).1, of_decide_eq_true h.1, of_decide_eq_true h.2⟩
  | infinity negative =>
      obtain ⟨hLow, hHigh⟩ := h
      cases negative
      · cases hHigh
      · cases hLow
  | nan => cases h.1

/-- The product is on the output just if the proportion is one. -/
theorem within_mul {sqrt : Double → Double} (x : Double) (hn : 1 ≤ n) (hWhole : |n| < 2 ^ 53) :
    (Number.float (x.mul (Double.round n))).within (doubles sqrt) 0 n = true ↔ Proportion x := by
  rw [Double.round_whole hWhole]
  cases x with
  | finite a exact =>
      have ha : nearest a = a := (toDouble_eq_some.mp exact).1
      have hProportion : Proportion (.finite a exact) ↔ 0 ≤ a ∧ a ≤ 1 := by
        simp [Proportion, Double.ge, Double.le]
      rw [hProportion]
      change (Number.float (Double.round (a * n))).within (doubles sqrt) 0 n = true ↔ _
      cases hRange : toDouble (a * n) with
      | some r =>
          obtain ⟨rfl, -⟩ := toDouble_eq_some.mp hRange
          rw [Double.round_of_some hRange, ← nearest_mul_mem ha hn hWhole]
          simp [Number.within, doubles, Double.ge, Double.le]
      | none =>
          rw [Double.round_of_none hRange]
          refine iff_of_false (by cases decide (a * n < 0) <;> simp [Number.within, doubles, Double.ge, Double.le])
            fun h => ?_
          cases hRange.symm.trans (toDouble_mul hn hWhole h)
  | infinity negative =>
      have hNonzero : (n : ℚ) ≠ 0 := by exact_mod_cast (zero_lt_one.trans_le hn).ne'
      have hPos : ¬n < 0 := by omega
      cases negative <;> simp [Number.within, doubles, Double.mul, hNonzero, hPos, Double.ge, Double.le, Proportion]
  | nan => simp [Number.within, doubles, Double.mul, Double.ge, Double.le, Proportion]

/-- Where a proportion is: on the output, and on its far edge only if it is all of it. -/
theorem toInteger_mul {x : Double} (h : Proportion x) (hn : 1 ≤ n) (hWhole : |n| < 2 ^ 53) :
    ∃ p : ℤ, Double.toInteger truncate (x.mul (Double.round n)) = .ok p ∧ (0 ≤ p ∧ p ≤ n) ∧
      (p = n ↔ x.ge 1 = true) := by
  obtain ⟨a, ⟨exact, rfl⟩, ha, hFraction⟩ := h.holds
  obtain ⟨hLow, hHigh⟩ := (nearest_mul_mem ha hn hWhole).mpr hFraction
  rw [Double.round_whole hWhole]
  change ∃ p : ℤ, Double.toInteger truncate (Double.round (a * n)) = .ok p ∧ _
  rw [Double.round_of_some (toDouble_mul hn hWhole hFraction)]
  refine ⟨⌊nearest (a * n)⌋, ?_, ⟨Int.floor_nonneg.mpr hLow, ?_⟩, ?_⟩
  · simp [Double.toInteger, truncate, hLow]
  · exact_mod_cast (Int.floor_le (nearest (a * n))).trans hHigh
  · have hEdge : ⌊nearest (a * n)⌋ = n ↔ nearest (a * n) = n := by
      constructor
      · intro h
        have hFloor := Int.floor_le (nearest (a * n))
        rw [h] at hFloor
        exact le_antisymm hHigh hFloor
      · intro h
        rw [h, Int.floor_intCast]
    rw [hEdge, nearest_mul_eq_iff ha hn hWhole hFraction]
    simp [Double.ge]

end Checks

/-! ### The keyword -/

section Keyword

variable {sqrt : Double → Double} {c : Self Double} {x y : Double}

/-- A failed assertion stops the method there. -/
theorem require_bind_run {σ α : Type} {p : Prop} [Decidable p] {text : String} {f : Unit → Method σ α} {s : σ} :
    (require p text >>= f).run s =
      if p then (f ()).run s else .error { cls := .assertionError, text } s := by
  unfold require
  split <;> rfl

/-- Outside the output nothing is sent. -/
theorem moveToAbsolute_run_outside {F X : Type} {A : Arithmetic F} {c : VirtualPointer.Self F X} {x y : Number F}
    {a : Sending} (h : ¬(x.within A 0 c.attributes.outputWidth ∧ y.within A 0 c.attributes.outputHeight)) :
    ∃ text, (moveToAbsolute A x y a).run c = .error { cls := .assertionError, text } c := by
  change ∃ text, (require (0 < c.attributes.outputWidth) _ >>= _).run c = _
  rw [require_bind_run]
  split
  · rw [require_bind_run]
    split
    · rw [require_bind_run]
      split
      · rename_i hx
        rw [require_bind_run, if_neg fun hy => h ⟨hx, hy⟩]
        exact ⟨_, rfl⟩
      · exact ⟨_, rfl⟩
    · exact ⟨_, rfl⟩
  · exact ⟨_, rfl⟩

theorem mulInt_doubles {n : ℤ} (hWhole : |n| < 2 ^ 53) (x : Double) :
    (doubles sqrt).mulInt x n = .ok (x.mul (Double.round n)) :=
  except_bind_ok.mpr ⟨Double.round n, Double.ofInt_whole hWhole, rfl⟩

theorem moveToProportional_run {a : Sending} (hWidth : |c.attributes.outputWidth| < 2 ^ 53)
    (hHeight : |c.attributes.outputHeight| < 2 ^ 53) : (moveToProportional (doubles sqrt) x y a).run c =
      (moveToAbsolute (doubles sqrt) (.float (x.mul (Double.round c.attributes.outputWidth)))
        (.float (y.mul (Double.round c.attributes.outputHeight))) a).run c := by
  change (compute ((doubles sqrt).mulInt x c.attributes.outputWidth) >>= _).run c = _
  rw [mulInt_doubles hWidth]
  change (compute ((doubles sqrt).mulInt y c.attributes.outputHeight) >>= _).run c = _
  rw [mulInt_doubles hHeight]
  rfl

/-- The position of a proportion of the output, which its size has. -/
theorem absoluteFromProportional_doubles (sqrt : Double → Double) (σ : Type) {width height : ℤ}
    (hw : 1 ≤ width) (hh : 1 ≤ height)
    (hWidth : |width| < 2 ^ 53) (hHeight : |height| < 2 ^ 53) (hx : Proportion x) (hy : Proportion y) :
    ∃ p : Position, OnOutput width height p ∧ (p.1 = width ↔ x.ge 1 = true) ∧ (p.2 = height ↔ y.ge 1 = true) ∧
      (∀ s : Screen Double, s.width = width → s.height = height →
        s.landing (doubles sqrt) (.float (x.mul (Double.round width)))
          (.float (y.mul (Double.round height))) = some p) ∧
      ∀ s : σ, (absoluteFromProportional (doubles sqrt) x y width height).run s = .ok p s := by
  obtain ⟨left, hLeft, hLeftIn, hRight⟩ := toInteger_mul hx hw hWidth
  obtain ⟨top, hTop, hTopIn, hBottom⟩ := toInteger_mul hy hh hHeight
  refine ⟨(left, top), ⟨hLeftIn, hTopIn⟩, hRight, hBottom, ?_, fun s => ?_⟩
  · rintro s rfl rfl
    exact landing_eq_some.mpr ⟨⟨by omega, by omega, (within_mul x hw hWidth).mpr hx,
      (within_mul y hh hHeight).mpr hy⟩, hLeft, hTop⟩
  · exact absoluteFromProportional_ok.mpr ⟨⟨within_one.mpr hx, within_one.mpr hy, by omega, by omega⟩,
      ⟨_, mulInt_doubles hWidth x, hLeft⟩, ⟨_, mulInt_doubles hHeight y, hTop⟩, rfl⟩

/-- Whatever doubles it is given, a move to a proportion of the output goes where it says it does,
or fails before it has done anything. It never gets to a far edge but by the whole proportion. -/
theorem double_proportion (sqrt : Double → Double) (hPointer : c.attributes.pointer ≠ none)
    (hw : 0 < c.attributes.outputWidth) (hh : 0 < c.attributes.outputHeight) (hWidth : c.attributes.outputWidth < 2 ^ 53)
    (hHeight : c.attributes.outputHeight < 2 ^ 53) (answers : Answers Double) (x y : Double) :
    (Proportion x ∧ Proportion y → answers.Steady (doubles sqrt) c.attributes.screen → answers.Quiet → ∃ p c',
      (movePointerToProportional (doubles sqrt) x y answers).run c = .ok p c' ∧
      motions c'.attributes.sent = motions c.attributes.sent ++ [p] ∧ c'.attributes.extra = some p ∧
      OnOutput c.attributes.outputWidth c.attributes.outputHeight p ∧
      (p.1 = c.attributes.outputWidth ↔ x.ge 1 = true) ∧ (p.2 = c.attributes.outputHeight ↔ y.ge 1 = true)) ∧
    (¬(Proportion x ∧ Proportion y) → ∃ text,
      (movePointerToProportional (doubles sqrt) x y answers).run c = .error { cls := .assertionError, text } c) := by
  have hWidthWhole : |c.attributes.outputWidth| < 2 ^ 53 := by rwa [abs_of_pos hw]
  have hHeightWhole : |c.attributes.outputHeight| < 2 ^ 53 := by rwa [abs_of_pos hh]
  have hConnect : (connect (doubles sqrt) answers.connecting answers.closing).run c = .ok () c :=
    connect_run_of_pointer hPointer
  constructor
  · rintro ⟨hx, hy⟩ hSteady hQuiet
    obtain ⟨p, hOnOutput, hRight, hBottom, hLands, hPosition⟩ :=
      absoluteFromProportional_doubles sqrt (Self Double) hw hh hWidthWhole hHeightWhole hx hy
    have hMove := triple_moveToAbsolute_quiet (v := c.attributes.view) hPointer hSteady.move hQuiet.move
      (hLands c.attributes.screen rfl rfl)
    obtain ⟨_, c₁, hRun, hView⟩ := hMove.returns rfl
    have hSize := size_of_view hView
    have hExtra : motions c₁.attributes.sent = motions c.attributes.sent ++ [p] := congrArg View.motions hView
    have hAbsolute : (getAbsoluteFromProportional (doubles sqrt) x y).run c₁ = .ok p c₁ := by
      change (absoluteFromProportional (doubles sqrt) x y c₁.attributes.outputWidth
        c₁.attributes.outputHeight).run c₁ = _
      rw [hSize.1, hSize.2]
      exact hPosition c₁
    refine ⟨p, setPosition p c₁, ?_, hExtra, rfl, hOnOutput, hRight, hBottom⟩
    refine run_bind_ok.mpr ⟨(), c, hConnect, run_bind_ok.mpr ⟨(), c₁, ?_, run_bind_ok.mpr ⟨p, c₁, hAbsolute, rfl⟩⟩⟩
    rw [moveToProportional_run hWidthWhole hHeightWhole, hRun]
  · intro hNot
    obtain ⟨text, hError⟩ := moveToAbsolute_run_outside (A := doubles sqrt) (c := c) (a := answers.move)
      (x := .float (x.mul (Double.round c.attributes.outputWidth)))
      (y := .float (y.mul (Double.round c.attributes.outputHeight))) fun h => hNot
        ⟨(within_mul x hw hWidthWhole).mp h.1, (within_mul y hh hHeightWhole).mp h.2⟩
    refine ⟨text, run_bind_error.mpr (.inr ⟨(), c, hConnect, run_bind_error.mpr (.inl ?_)⟩)⟩
    rw [moveToProportional_run hWidthWhole hHeightWhole, hError]

/-- A new client moves to the right edge, and does not move to a place that is not a number. -/
theorem double_proportion_vga :
    (∃ p c', (movePointerToProportional (doubles wholeSqrt) (Double.round 1) (Double.round (1 / 3))
        (walkOf (0, 0) fun _ => none).answers).run vga = .ok p c' ∧
      motions c'.attributes.sent = [p] ∧ p.1 = 640 ∧ p.2 ≠ 480) ∧
    ∃ text, (movePointerToProportional (doubles wholeSqrt) .nan (Double.round 0)
      (walkOf (0, 0) fun _ => none).answers).run vga = .error { cls := .assertionError, text } vga := by
  have hMoves (x y : Double) := double_proportion wholeSqrt (c := vga) (by decide) (by decide) (by decide)
    (by decide) (by decide) (walkOf (0, 0) fun _ => none).answers x y
  have hSteady : (walkOf (0, 0) fun _ => none).answers.Steady (doubles wholeSqrt) vga.attributes.screen :=
    ⟨by simp [Sending.Steady, walkOf], by simp [Sending.Steady, walkOf], by simp [SteadySleep, walkOf]⟩
  obtain ⟨p, c', hRun, hMotions, -, -, hRight, hBottom⟩ := (hMoves (Double.round 1) (Double.round (1 / 3))).1
    (by decide +kernel) hSteady ⟨⟨rfl, rfl, rfl⟩, fun _ => ⟨rfl, rfl, rfl⟩, fun _ _ => rfl⟩
  refine ⟨⟨p, c', hRun, hMotions, hRight.mpr (by decide +kernel), fun hEdge => ?_⟩,
    (hMoves .nan _).2 (by decide +kernel)⟩
  exact absurd (hBottom.mp hEdge) (by decide +kernel)

end Keyword

end MirCi.Robot.WaylandHid
