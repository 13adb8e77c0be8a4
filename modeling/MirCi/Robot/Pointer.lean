import MirCi.Python.Double
import MirCi.Python.Method

/-! What the two pointer libraries share: the names of the buttons, positions in
proportion to the output, and walks. -/
namespace MirCi.Robot

open Python Semantics Effect

/-- Whole pixels from the left and the top of the output. -/
abbrev Position := ℤ × ℤ

inductive Button where
  | left
  | right
  | middle
  deriving DecidableEq, Repr

/-- `for button in Button`. -/
def Button.all : List Button := [.left, .right, .middle]

/-- `Button[name]`. -/
def Button.named (name : String) : Except Exc Button :=
  if name = "LEFT" then .ok .left
  else if name = "RIGHT" then .ok .right
  else if name = "MIDDLE" then .ok .middle
  else .error { cls := .keyError, text := s!"'{name}'" }

section Arithmetic

variable {F σ : Type} (A : Arithmetic F)

/-- `get_absolute_from_proportional`, for an output of the given size. -/
def absoluteFromProportional (x y : F) (width height : ℤ) : Method σ Position := do
  require ((Number.float x).within A 0 1) "x not in range 0..1"
  require ((Number.float y).within A 0 1) "y not in range 0..1"
  require (0 < width) "Output width must be greater than 0"
  require (0 < height) "Output height must be greater than 0"
  let left ← compute (A.mulInt x width)
  let left ← compute (A.toInt left)
  let top ← compute (A.mulInt y height)
  let top ← compute (A.toInt top)
  return (left, top)

/-- `x == 0`. -/
def isZero (x : F) : Bool := A.leInt x 0 && A.geInt x 0

/-- `((p[0] - q[0]) ** 2 + (p[1] - q[1]) ** 2) ** 0.5`. -/
def distance (p q : Position) : Except Exc F := do
  return A.sqrt (← A.ofInt ((p.1 - q.1) ^ 2 + (p.2 - q.2) ^ 2))

/-- `math.ceil(distance / step_distance)`. -/
def stepCount (distance : F) (stepDistance : ℤ) : Except Exc ℤ := do
  A.ceil (← A.div distance (← A.ofInt stepDistance))

/-- `(1 - t) * p + t * q`. -/
def between (t : F) (p q : ℤ) : Except Exc F := do
  let one ← A.ofInt 1
  return A.add (A.mul (A.sub one t) (← A.ofInt p)) (A.mul t (← A.ofInt q))

/-- `(walk_x, walk_y)`. -/
def walkPoint (p q : Position) (steps step : ℤ) : Except Exc (F × F) := do
  let t ← A.divInt step steps
  return (← between A t p.1 q.1, ← between A t p.2 q.2)

/-- What is a library's own in its walks. -/
structure Hand (σ F : Type) where
  position : σ → Option Position
  setPosition : Position → σ → σ
  /-- Move to the origin. -/
  origin : Method σ Unit
  /-- Move to a point, then sleep. -/
  step : ℕ → F × F → Method σ Unit

/-- Indexing `None` raises. -/
def known : Option Position → Except Exc Position
  | some p => .ok p
  | none => .error { cls := .typeError, text := "'NoneType' object is not subscriptable" }

variable (hand : Hand σ F)

/-- The body of the loop. -/
def walkStep (q : Position) (steps : ℤ) (step : ℕ) : Method σ Unit := do
  let p ← compute (known (hand.position (← get)))
  let point ← compute (walkPoint A p q steps step)
  hand.step step point

/-- A walk from nowhere starts at the origin. -/
def locate : Method σ Unit := do
  when (hand.position (← get) = none) do
    modify (hand.setPosition (0, 0))
    hand.origin

/-- `walk_pointer_to_absolute`, once the client is connected. -/
def walk (q : Position) (stepDistance : ℤ) : Method σ Unit := do
  require (0 < stepDistance) "Step distance must be positive"
  locate hand
  let p ← compute (known (hand.position (← get)))
  let distance ← compute (distance A p q)
  when (isZero A distance = false) do
    let steps ← compute (stepCount A distance stepDistance)
    forM (List.range (steps + 1).toNat) (walkStep A hand q steps)
    modify (hand.setPosition q)

end Arithmetic

theorem absoluteFromProportional_ok {F σ : Type} {A : Arithmetic F} {x y : F} {width height : ℤ}
    {s t : σ} {p : Position} :
    (absoluteFromProportional A x y width height).run s = .ok p t ↔
      ((Number.float x).within A 0 1 ∧ (Number.float y).within A 0 1 ∧ 0 < width ∧ 0 < height) ∧
        (∃ left, A.mulInt x width = .ok left ∧ A.toInt left = .ok p.1) ∧
        (∃ top, A.mulInt y height = .ok top ∧ A.toInt top = .ok p.2) ∧ s = t := by
  simp only [absoluteFromProportional, run_bind_ok, require_run_ok, compute_run_ok]
  constructor
  · rintro ⟨_, _, ⟨hx, rfl⟩, _, _, ⟨hy, rfl⟩, _, _, ⟨hw, rfl⟩, _, _, ⟨hh, rfl⟩, l, _, ⟨hl, rfl⟩, i, _,
      ⟨hi, rfl⟩, m, _, ⟨hm, rfl⟩, j, _, ⟨hj, rfl⟩, hEnd⟩
    cases hEnd
    exact ⟨⟨hx, hy, hw, hh⟩, ⟨l, hl, hi⟩, ⟨m, hm, hj⟩, rfl⟩
  · rintro ⟨⟨hx, hy, hw, hh⟩, ⟨l, hl, hi⟩, ⟨m, hm, hj⟩, rfl⟩
    exact ⟨(), s, ⟨hx, rfl⟩, (), s, ⟨hy, rfl⟩, (), s, ⟨hw, rfl⟩, (), s, ⟨hh, rfl⟩, l, s, ⟨hl, rfl⟩, p.1, s,
      ⟨hi, rfl⟩, m, s, ⟨hm, rfl⟩, p.2, s, ⟨hj, rfl⟩, rfl⟩

theorem follows_absoluteFromProportional {F σ τ : Type} {A : Arithmetic F} {R : σ → τ → Prop}
    (x y : F) (width height : ℤ) : Follows R (absoluteFromProportional A x y width height)
      (absoluteFromProportional A x y width height) := by
  refine follows_bind follows_require fun _ => follows_bind follows_require fun _ => ?_
  refine follows_bind follows_require fun _ => follows_bind follows_require fun _ => ?_
  refine follows_bind (follows_compute _) fun _ => follows_bind (follows_compute _) fun _ => ?_
  refine follows_bind (follows_compute _) fun _ => follows_bind (follows_compute _) fun _ => ?_
  exact follows_pure _

/-- The position does not depend on the object, and computing it leaves the object alone. -/
theorem triple_absoluteFromProportional {F σ : Type} {A : Arithmetic F} {Pre : σ → Prop} (x y : F)
    (width height : ℤ) : Triple Pre (absoluteFromProportional A x y width height)
      (fun p s => value ((absoluteFromProportional A x y width height : Method Unit Position).run ()) = some p ∧
        Pre s) Pre := by
  have hKeeps : Keeps Pre (absoluteFromProportional A x y width height) := by
    refine keeps_bind keeps_require fun _ => keeps_bind keeps_require fun _ => ?_
    refine keeps_bind keeps_require fun _ => keeps_bind keeps_require fun _ => ?_
    refine keeps_bind keeps_compute fun _ => keeps_bind keeps_compute fun _ => ?_
    refine keeps_bind keeps_compute fun _ => keeps_bind keeps_compute fun _ => ?_
    exact keeps_pure _
  intro s hPre
  have hKept := hKeeps s hPre
  cases hRun : (absoluteFromProportional A x y width height).run s with
  | ok p t =>
      have hFollows := follows_absoluteFromProportional (A := A) (R := fun (_ : σ) (_ : Unit) => True) x y
        width height
      obtain ⟨_, hSame, -⟩ := hFollows s () trivial p t hRun
      rw [hRun] at hKept
      rw [hSame]
      exact ⟨rfl, hKept⟩
  | error e t =>
      rw [hRun] at hKept
      exact hKept

/-- Two libraries that move alike walk alike. -/
theorem follows_walk {F σ τ : Type} {A : Arithmetic F} {R : σ → τ → Prop} {first : Hand σ F}
    {second : Hand τ F} (hPosition : ∀ s t, R s t → first.position s = second.position t)
    (hSet : ∀ s t p, R s t → R (first.setPosition p s) (second.setPosition p t))
    (hOrigin : Follows R first.origin second.origin)
    (hStep : ∀ k point, Follows R (first.step k point) (second.step k point)) (q : Position)
    (stepDistance : ℤ) : Follows R (walk A first q stepDistance) (walk A second q stepDistance) := by
  refine follows_bind follows_require fun _ => follows_bind ?_ fun _ => ?_
  · refine follows_get_bind fun s t hRelated => follows_when (by rw [hPosition s t hRelated]) ?_
    exact follows_bind (follows_modify fun s t => hSet s t _) fun _ => hOrigin
  refine follows_get_bind fun s t hRelated => ?_
  rw [hPosition s t hRelated]
  refine follows_bind (follows_compute _) fun p => follows_bind (follows_compute _) fun d => ?_
  refine follows_when Iff.rfl (follows_bind (follows_compute _) fun steps => ?_)
  refine follows_bind (follows_forM fun k _ => follows_get_bind fun s t hRelated => ?_) fun _ => ?_
  · rw [hPosition s t hRelated]
    exact follows_bind (follows_compute _) fun _ => follows_bind (follows_compute _) fun _ => hStep k _
  · exact follows_modify fun s t => hSet s t _

/-- A walk in which every step can be taken. -/
theorem triple_walk {F σ : Type} {A : Arithmetic F} {hand : Hand σ F} {Pre : σ → Prop}
    (Inv : ℕ → σ → Prop) {p q : Position} {stepDistance steps : ℤ} {d : F} {points : ℕ → F × F}
    (hPositive : 0 < stepDistance) (hDistance : distance A p q = .ok d) (hApart : isZero A d = false)
    (hSteps : stepCount A d stepDistance = .ok steps)
    (hPoints : ∀ k < (steps + 1).toNat, walkPoint A p q steps k = .ok (points k))
    (hLocate : Triple Pre (locate hand) (fun _ => Inv 0) fun _ => False)
    (hPosition : ∀ k s, Inv k s → hand.position s = some p)
    (hStep : ∀ k < (steps + 1).toNat,
      Triple (Inv k) (hand.step k (points k)) (fun _ => Inv (k + 1)) fun _ => False) :
    Triple Pre (walk A hand q stepDistance)
      (fun _ s => ∃ t, Inv (steps + 1).toNat t ∧ s = hand.setPosition q t) fun _ => False := by
  refine triple_require_bind (fun hNot => absurd hPositive hNot) fun _ => ?_
  refine triple_bind hLocate fun _ => triple_get_bind_of fun s hs => ?_
  rw [hPosition 0 s hs]
  change Triple _ (compute (distance A p q) >>= _) _ _
  rw [hDistance]
  change Triple _ (when (isZero A d = false) _) _ _
  rw [when, if_pos hApart, hSteps]
  change Triple _ (forM _ _ >>= _) _ _
  refine triple_bind (triple_forM_range fun k hk => ?_) fun _ => triple_modify fun t ht => ⟨t, ht, rfl⟩
  refine triple_get_bind_of fun s hs => ?_
  rw [hPosition k s hs]
  change Triple _ (compute (walkPoint A p q steps k) >>= _) _ _
  rw [hPoints k hk]
  exact hStep k hk

/-- The square root of a perfect square. -/
def wholeSqrt : Double → Double
  | .finite a _ => Double.round ((Nat.sqrt ⌊a⌋.toNat : ℕ) : ℚ)
  | x => x

/-- A move or walk keyword, as a suite calls it. -/
inductive PointerCall (F : Type) where
  | moveToAbsolute (p : Position)
  | moveToProportional (x y : F)
  | walkToAbsolute (p : Position) (stepDistance : ℤ) (delay : F)
  | walkToProportional (x y : F) (stepDistance : ℤ) (delay : F)

end MirCi.Robot
