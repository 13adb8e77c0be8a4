import MirCi.Robot.WalkArrives
import MirCi.Semantics.Run
import MirCi.Wayland.OutputSize

/-! Whether `_pointer_position` is where the pointer is. A walk assigns it behind its loop, so all
depends on where the pointer is when the loop is left early. -/
namespace MirCi.Robot.WaylandHid

open Python Semantics Effect Wayland Wayland.VirtualPointer

variable {F : Type} {A : Arithmetic F}

/-- The position is that of the last motion sent, or none when none was. -/
def Tracked (c : Self F) : Prop := c.attributes.extra = (motions c.attributes.sent).getLast?

/-! ### When a call keeps the position -/

section Conditions

variable (A) (answers : Answers F) (delay : F)

/-- The outlook before a step, when those before it have returned. The size may change with the
events of every roundtrip and every sleep on the way. -/
def outlookAt (o : Outlook F) : ℕ → Outlook F
  | 0 => o
  | k + 1 => ((outlookAt o k).seen A (answers.send k).roundtrip.events).slept A (answers.sleep delay k)

variable (o : Outlook F) (p q : Position) (steps : ℤ)

/-- The pixel of a step, which is the whole part of its point on the line. -/
def stepPixel (k : ℕ) : Option Position :=
  match walkPoint A p q steps k with
  | .ok point =>
      match A.toInt point.1, A.toInt point.2 with
      | .ok left, .ok top => some (left, top)
      | _, _ => none
  | .error _ => none

/-- The step is not refused. Its point can be computed and lies on the output, as large as that is
by then, and the request for the motion goes out. -/
def StepSent (k : ℕ) : Prop :=
  ∃ point, walkPoint A p q steps k = .ok point ∧
    (answers.send k).motion A (outlookAt A answers delay o k).screen (.float point.1) (.float point.2) ≠ none

instance (k : ℕ) : Decidable (StepSent A answers delay o p q steps k) :=
  decidable_of_iff (∃ point ∈ (walkPoint A p q steps k).toOption,
      (answers.send k).motion A (outlookAt A answers delay o k).screen (.float point.1) (.float point.2) ≠ none) <| by
    unfold StepSent
    cases walkPoint A p q steps k <;> simp [Except.toOption]

/-- Nor does it fail behind its request, and the sleep after it is not cancelled. -/
def StepReturns (k : ℕ) : Prop :=
  StepSent A answers delay o p q steps k ∧ (answers.send k).Completes ∧ (answers.sleep delay k).raises = none

/-- A motion has gone to another pixel than the one that the walk set out from. -/
def HasLeft (k : ℕ) : Prop := ∃ j ≤ k, StepSent A answers delay o p q steps j ∧ stepPixel A p q steps j ≠ some p

/-- No step is refused, fails or is cancelled once the pointer has left its first pixel, and if none
is at all, the target is one that a double can be sent to. -/
structure StepsTrack : Prop where
  cut : ∀ k < (steps + 1).toNat, (∀ j < k, StepReturns A answers delay o p q steps j) →
    ¬StepReturns A answers delay o p q steps k → ¬HasLeft A answers delay o p q steps k
  target : (∀ k < (steps + 1).toNat, StepReturns A answers delay o p q steps k) → Exact q

/-- The outlook once a walk has a position to start from: without one it moves to the origin. -/
def outlookLocated (position : Option Position) : Outlook F :=
  if position = none then o.seen A answers.move.roundtrip.events else o

/-- A walk from nowhere gets the motion to the origin out. -/
structure WalkTracks (position : Option Position) (stepDistance : ℤ) : Prop where
  origin : position = none → answers.move.motion A o.screen (.int 0) (.int 0) ≠ none
  steps : (position = none → answers.move.Completes) →
    ∀ d n, distance A (position.getD (0, 0)) q = .ok d → isZero A d = false → stepCount A d stepDistance = .ok n →
      StepsTrack A answers delay (outlookLocated A answers o position) (position.getD (0, 0)) q n

/-- No call goes wrong after the pointer moved and before the position is assigned. A proportional
move looks at the size twice, and has to find the same one behind its roundtrip. -/
def CallTracks (position : Option Position) : PointerCall F → Prop
  | .moveToAbsolute p => answers.move.motion A o.screen (.int p.1) (.int p.2) ≠ none → answers.move.Completes
  | .moveToProportional x y => ∀ left top, A.mulInt x o.screen.width = .ok left →
      A.mulInt y o.screen.height = .ok top →
      answers.move.motion A o.screen (.float left) (.float top) ≠ none →
      answers.move.Completes ∧ (Number.float x).within A 0 1 ∧ (Number.float y).within A 0 1 ∧
        (o.seen A answers.move.roundtrip.events).screen = o.screen
  | .walkToAbsolute q stepDistance delay => 0 < stepDistance →
      WalkTracks A answers delay o q position stepDistance
  | .walkToProportional x y stepDistance delay => 0 < stepDistance →
      ∀ q, value ((absoluteFromProportional A x y o.screen.width o.screen.height : Method Unit Position).run ()) =
          some q → WalkTracks A answers delay o q position stepDistance

end Conditions

/-! ### The calls -/

section Calls

variable {s : Whereabouts F (Option Position)} {answers : Answers F} {delay : F} {o : Outlook F} {p q : Position}
  {steps : ℤ} {k : ℕ}

theorem tracked_of_stands {c : Self F} (hc : Stands s c) (h : s.extra = s.motions.getLast?) : Tracked c := by
  rw [Tracked, hc.extra, hc.motions, h]

/-- A motion that is sent goes to the pixel of its step. -/
theorem stepPixel_of_motion {point : F × F} {r : Position} (hPoint : walkPoint A p q steps k = .ok point)
    (hMotion : (answers.send k).motion A (outlookAt A answers delay o k).screen (.float point.1) (.float point.2) =
      some r) : stepPixel A p q steps k = some r := by
  obtain ⟨-, hLeft, hTop⟩ := landing_eq_some.mp (landing_of_motion hMotion)
  have hFirst : A.toInt point.1 = .ok r.1 := hLeft
  have hSecond : A.toInt point.2 = .ok r.2 := hTop
  simp [stepPixel, hPoint, hFirst, hSecond]

/-- The pixel of the last motion when so many steps of a walk have returned. -/
def lastPixel (A : Arithmetic F) (p q : Position) (steps : ℤ) : ℕ → Option Position
  | 0 => some p
  | k + 1 => stepPixel A p q steps k

/-- A walk that has not left has its last motion on its first pixel. -/
theorem lastPixel_of_not_left (hBefore : ∀ j < k, StepReturns A answers delay o p q steps j)
    (hStays : ¬HasLeft A answers delay o p q steps k) : lastPixel A p q steps k = some p := by
  cases k with
  | zero => rfl
  | succ k =>
      by_contra hOther
      exact hStays ⟨k, k.le_succ, (hBefore k k.lt_succ_self).1, hOther⟩

/-- A client that walks from `p`, has this outlook and has sent these motions. -/
def walkingFrom (s : Whereabouts F (Option Position)) (p : Position) (o : Outlook F) (sent : List Position) :
    Whereabouts F (Option Position) := { s with outlook := o, extra := some p, motions := sent }

theorem triple_locate (hPointer : s.pointer ≠ none) (h : s.extra = s.motions.getLast?)
    (hOrigin : s.extra = none → answers.move.motion A s.outlook.screen (.int 0) (.int 0) ≠ none) :
    Triple (Stands s) (locate (hand A delay answers))
      (fun _ c => (s.extra = none → answers.move.Completes) ∧
        ∃ sent, sent.getLast? = some (s.extra.getD (0, 0)) ∧
          Stands (walkingFrom s (s.extra.getD (0, 0)) (outlookLocated A answers s.outlook s.extra) sent) c)
      Tracked := by
  refine triple_get_bind_of fun c hc => ?_
  have hPosition : c.attributes.extra = s.extra := hc.extra
  refine triple_when (fun hNone => ?_) fun hKnown d hd => ?_
  · have hExtra : s.extra = none := hPosition.symm.trans hNone
    have hSet : Triple (Stands s) (modify (setPosition (0, 0)) : Method (Self F) Unit)
        (fun _ => Stands { s with extra := some (0, 0) }) Tracked := by
      refine triple_modify fun c hc => ?_
      subst hc
      rfl
    have hMove := triple_move_stands (A := A) (x := .int 0) (y := .int 0) (a := answers.move)
      (s := ({ s with extra := some (0, 0) } : Whereabouts F (Option Position))) hPointer
    refine triple_bind hSet fun _ => hMove.mono (fun _ c hMoved => ?_) fun c hCut => ?_
    · obtain ⟨r, hMotion, hDone, hStands⟩ := hMoved
      obtain rfl : r = (0, 0) := eq_of_motion_int hMotion
      refine ⟨fun _ => hDone, s.motions ++ [(0, 0)], by simp [hExtra], ?_⟩
      rw [hExtra, outlookLocated, if_pos rfl]
      exact hStands
    · obtain ⟨hUnsent, -⟩ | ⟨r, hMotion, -, hAt, hSent⟩ := hCut
      · exact absurd hUnsent (hOrigin hExtra)
      · obtain rfl : r = (0, 0) := eq_of_motion_int hMotion
        rw [Tracked, hAt, hSent]
        simp
  · obtain ⟨p, hExtra⟩ := Option.ne_none_iff_exists'.mp fun hNone => hKnown (hPosition.trans hNone)
    refine ⟨fun hNone => absurd hNone (by simp [hExtra]), s.motions, ?_, ?_⟩
    · rw [← h, hExtra, Option.getD_some]
    · rw [outlookLocated, if_neg (by simp [hExtra]), hExtra, Option.getD_some, walkingFrom, ← hExtra]
      exact hd

/-- One step: its motion goes out and it returns, or the walk is cut short where it began. -/
theorem triple_step {sent : List Position} (hPointer : s.pointer ≠ none)
    (hBefore : ∀ j < k, StepReturns A answers delay o p q steps j)
    (hCut : ¬StepReturns A answers delay o p q steps k → ¬HasLeft A answers delay o p q steps k)
    (hSent : sent.getLast? = lastPixel A p q steps k) :
    Triple (Stands (walkingFrom s p (outlookAt A answers delay o k) sent))
      (walkStep A (hand A delay answers) q steps k)
      (fun _ c => StepReturns A answers delay o p q steps k ∧ ∃ sent,
        sent.getLast? = lastPixel A p q steps (k + 1) ∧
          Stands (walkingFrom s p (outlookAt A answers delay o (k + 1)) sent) c)
      Tracked := by
  refine triple_get_bind_of fun c hc => ?_
  have hPosition : c.attributes.extra = some p := hc.extra
  change Triple _ (compute (known c.attributes.extra) >>= _) _ _
  rw [hPosition]
  change Triple _ (compute (walkPoint A p q steps k) >>= _) _ _
  -- a step that sends no motion leaves the pointer where it was
  have hUnsent (hNone : ¬StepSent A answers delay o p q steps k) (d : Self F)
      (hd : Stands (walkingFrom s p (outlookAt A answers delay o k) sent) d) : Tracked d := by
    have hStays := lastPixel_of_not_left hBefore (hCut fun hReturns => hNone hReturns.1)
    exact tracked_of_stands hd (hSent.trans hStays).symm
  refine triple_compute_bind (fun e he => hUnsent ?_) fun point hPoint => ?_
  · rintro ⟨point, hPoint, -⟩
    cases he.symm.trans hPoint
  -- and one that sends a motion without returning has sent it to the first pixel
  have hStayed {r : Position} (hMotion : (answers.send k).motion A (outlookAt A answers delay o k).screen
      (.float point.1) (.float point.2) = some r) (hNot : ¬StepReturns A answers delay o p q steps k) : r = p := by
    by_contra hOther
    refine hCut hNot ⟨k, le_rfl, ⟨point, hPoint, by simp [hMotion]⟩, fun hSame => hOther ?_⟩
    exact Option.some.inj ((stepPixel_of_motion hPoint hMotion).symm.trans hSame)
  have hMove := triple_move_stands (A := A) (s := walkingFrom s p (outlookAt A answers delay o k) sent)
    (x := .float point.1) (y := .float point.2) (a := answers.send k) hPointer
  refine triple_bind (hMove.mono (fun _ c h => h) fun d hEnd => ?_) fun _ => ?_
  · obtain ⟨hNone, hd⟩ | ⟨r, hMotion, hNot, hAt, hMotions⟩ := hEnd
    · refine hUnsent ?_ d hd
      rintro ⟨other, hOther, hGoes⟩
      obtain rfl := Except.ok.inj (hPoint.symm.trans hOther)
      exact hGoes hNone
    · obtain rfl := hStayed hMotion fun hReturns => hNot hReturns.2.1
      rw [Tracked, hAt, hMotions]
      simp [walkingFrom]
  refine triple_exists fun r => triple_and fun hMotion => triple_and fun hDone => ?_
  refine (triple_sleep_stands (answers.sleep delay k)).mono (fun _ d hEnd => ?_) fun d hEnd => ?_
  · refine ⟨⟨⟨point, hPoint, Option.ne_none_iff_exists'.mpr ⟨r, hMotion⟩⟩, hDone, hEnd.1⟩, sent ++ [r], ?_, hEnd.2⟩
    rw [lastPixel, stepPixel_of_motion hPoint hMotion]
    simp
  · obtain rfl := hStayed hMotion fun hReturns => hEnd.1 hReturns.2.2
    exact tracked_of_stands hEnd.2 (by simp [walkingFrom, Whereabouts.moved, Whereabouts.seen])

/-- A keyword that is called on a connected client does not connect again. -/
theorem triple_connect_bind {α : Type} {x : Method (Self F) α} {Post : α → Self F → Prop}
    {Stop : Self F → Prop} (hPointer : s.pointer ≠ none) (h : Triple (Stands s) x Post Stop) :
    Triple (Stands s) (connect A answers.connecting answers.closing >>= fun _ => x) Post Stop := by
  intro c hc
  rw [EStateM.run_bind, connect_run_of_pointer (by rwa [hc.pointer])]
  exact h c hc

theorem triple_tracked_moveToAbsolute (hPointer : s.pointer ≠ none) (h : s.extra = s.motions.getLast?)
    (hMove : CallTracks A answers s.outlook s.extra (.moveToAbsolute p)) :
    Triple (Stands s) (movePointerToAbsolute A p answers) (fun _ => Tracked) Tracked := by
  refine triple_connect_bind hPointer (triple_bind ((triple_move_stands hPointer).mono
    (fun _ c h => h) fun c hCut => ?_) fun _ => triple_modify fun c hMoved => ?_)
  · obtain ⟨-, hc⟩ | ⟨r, hMotion, hNot, -⟩ := hCut
    · exact tracked_of_stands hc h
    · exact absurd (hMove (by simp [hMotion])) hNot
  · obtain ⟨r, hMotion, -, hc⟩ := hMoved
    obtain rfl : r = p := eq_of_motion_int hMotion
    have hMotions : motions c.attributes.sent = s.motions ++ [r] := hc.motions
    change some r = (motions c.attributes.sent).getLast?
    simp [hMotions]

/-- After the move the position is computed again, from the same numbers. -/
theorem triple_tracked_moveToProportional {x y : F} (hPointer : s.pointer ≠ none)
    (h : s.extra = s.motions.getLast?)
    (hMove : CallTracks A answers s.outlook s.extra (.moveToProportional x y)) :
    Triple (Stands s) (movePointerToProportional A x y answers) (fun _ => Tracked) Tracked := by
  have hUntouched (c : Self F) (hc : Stands s c) : Tracked c := tracked_of_stands hc h
  refine triple_connect_bind hPointer ?_
  rw [moveToProportional, bind_assoc]
  refine triple_get_bind_of fun c hc => ?_
  have hWidth : c.attributes.outputWidth = s.outlook.screen.width := congrArg Screen.width hc.screen
  have hHeight : c.attributes.outputHeight = s.outlook.screen.height := congrArg Screen.height hc.screen
  simp only [hWidth, hHeight, bind_assoc]
  refine triple_compute_bind (fun _ _ => hUntouched) fun left hLeft => ?_
  refine triple_compute_bind (fun _ _ => hUntouched) fun top hTop => ?_
  refine triple_bind ((triple_move_stands hPointer).mono (fun _ c h => h) fun c hCut => ?_) fun _ => ?_
  · obtain ⟨-, hc⟩ | ⟨r, hMotion, hNot, -⟩ := hCut
    · exact hUntouched c hc
    · exact absurd (hMove left top hLeft hTop (by simp [hMotion])).1 hNot
  refine triple_exists fun r => triple_and fun hMotion => triple_and fun _ => ?_
  obtain ⟨-, hAcross, hDown, hSize⟩ := hMove left top hLeft hTop (by simp [hMotion])
  obtain ⟨⟨hw, hh, -⟩, hFirst, hSecond⟩ := landing_eq_some.mp (landing_of_motion hMotion)
  -- the assertions pass, and the position is the one that was sent
  let there := (s.moved r).seen A answers.move.roundtrip.events
  have hAbsolute : Triple (Stands there) (getAbsoluteFromProportional A x y)
      (fun p c => p = r ∧ Stands there c) Tracked := by
    refine triple_get_bind_of fun c hc => ?_
    have hScreen : c.attributes.screen = s.outlook.screen := hc.screen.trans hSize
    have hWidth : c.attributes.outputWidth = s.outlook.screen.width := congrArg Screen.width hScreen
    have hHeight : c.attributes.outputHeight = s.outlook.screen.height := congrArg Screen.height hScreen
    dsimp only
    rw [hWidth, hHeight]
    intro c hc
    have hRun : (absoluteFromProportional A x y s.outlook.screen.width s.outlook.screen.height).run c = .ok r c :=
      absoluteFromProportional_ok.mpr
        ⟨⟨hAcross, hDown, hw, hh⟩, ⟨left, hLeft, hFirst⟩, ⟨top, hTop, hSecond⟩, rfl⟩
    rw [hRun]
    exact ⟨rfl, hc⟩
  refine triple_bind hAbsolute fun p => triple_and fun hSame => ?_
  subst hSame
  refine triple_bind (?_ : Triple _ _ (fun _ => Tracked) _) fun _ => triple_pure p fun _ hEnd => hEnd
  refine triple_modify fun c hc => ?_
  have hMotions : motions c.attributes.sent = s.motions ++ [p] := hc.motions
  change some p = (motions c.attributes.sent).getLast?
  simp [hMotions]

end Calls

section Walks

variable {sqrt : Double → Double} {s : Whereabouts Double (Option Position)} {answers : Answers Double}

/-- When all steps of a walk have returned, the last of them was sent to the target. -/
theorem lastPixel_target (hSqrt : Rooted sqrt) {delay : Double} {o : Outlook Double} {p q : Position}
    {stepDistance n : ℤ} {d : Double} (hPositive : 0 < stepDistance)
    (hDistance : distance (doubles sqrt) p q = .ok d) (hCount : stepCount (doubles sqrt) d stepDistance = .ok n)
    (hExact : Exact q) (hAll : ∀ k < (n + 1).toNat, StepReturns (doubles sqrt) answers delay o p q n k) :
    lastPixel (doubles sqrt) p q n (n + 1).toNat = some q := by
  have hNonneg := steps_nonneg hSqrt hPositive hDistance hCount
  obtain ⟨m, rfl⟩ := Int.eq_ofNat_of_zero_le hNonneg
  have hLast : ((m : ℤ) + 1).toNat = m + 1 := by omega
  obtain ⟨⟨point, hPoint, hSent⟩, -⟩ := hAll m (by omega)
  obtain ⟨r, hMotion⟩ := Option.ne_none_iff_exists'.mp hSent
  obtain ⟨-, hLeft, hTop⟩ := landing_eq_some.mp (landing_of_motion hMotion)
  rw [hLast, lastPixel, stepPixel_of_motion hPoint hMotion]
  exact congrArg some (toInt_walkPoint_last hExact hPoint hLeft hTop)

theorem triple_tracked_walk (hSqrt : Rooted sqrt) {q : Position} {stepDistance : ℤ} {delay : Double}
    (hPointer : s.pointer ≠ none) (h : s.extra = s.motions.getLast?)
    (hWalk : 0 < stepDistance → WalkTracks (doubles sqrt) answers delay s.outlook q s.extra stepDistance) :
    Triple (Stands s) (walk (doubles sqrt) (hand (doubles sqrt) delay answers) q stepDistance)
      (fun _ => Tracked) Tracked := by
  refine triple_require_bind (fun _ c hc => tracked_of_stands hc h) fun hPositive => ?_
  obtain ⟨hOrigin, hSteps⟩ := hWalk hPositive
  let p := s.extra.getD (0, 0)
  let o := outlookLocated (doubles sqrt) answers s.outlook s.extra
  refine triple_bind (triple_locate hPointer h hOrigin) fun _ => ?_
  refine triple_and fun hDone => triple_exists fun sent => triple_and fun hLast => ?_
  have hTracked (c : Self Double) (hc : Stands (walkingFrom s p o sent) c) : Tracked c :=
    tracked_of_stands hc hLast.symm
  refine triple_get_bind_of fun c hc => ?_
  have hPosition : c.attributes.extra = some p := hc.extra
  change Triple _ (compute (known c.attributes.extra) >>= _) _ _
  rw [hPosition]
  change Triple _ (compute (distance (doubles sqrt) p q) >>= _) _ _
  refine triple_compute_bind (fun _ _ => hTracked) fun d hDistance => ?_
  refine triple_when (fun hApart => ?_) fun _ => hTracked
  refine triple_compute_bind (fun _ _ => hTracked) fun steps hCount => ?_
  obtain ⟨hCut, hTarget⟩ := hSteps hDone d steps hDistance hApart hCount
  let Inv (k : ℕ) (c : Self Double) : Prop :=
    (∀ j < k, StepReturns (doubles sqrt) answers delay o p q steps j) ∧ ∃ sent,
      sent.getLast? = lastPixel (doubles sqrt) p q steps k ∧
        Stands (walkingFrom s p (outlookAt (doubles sqrt) answers delay o k) sent) c
  have hLoop : Triple (Inv 0)
      (forM (List.range (steps + 1).toNat) (walkStep (doubles sqrt) (hand (doubles sqrt) delay answers) q steps))
      (fun _ => Inv (steps + 1).toNat) Tracked := by
    refine triple_forM_range fun k hk => triple_and fun hBefore => triple_exists fun sent => ?_
    refine triple_and fun hSent => ?_
    have hStep := triple_step hPointer hBefore (hCut k hk hBefore) hSent
    refine hStep.mono (fun _ c hEnd => ⟨fun j hj => ?_, hEnd.2⟩) fun _ h => h
    rcases Nat.lt_succ_iff_lt_or_eq.mp hj with hEarlier | rfl
    · exact hBefore j hEarlier
    · exact hEnd.1
  have hStart : Triple (Stands (walkingFrom s p o sent))
      (forM (List.range (steps + 1).toNat) (walkStep (doubles sqrt) (hand (doubles sqrt) delay answers) q steps))
      (fun _ => Inv (steps + 1).toNat) Tracked :=
    fun c hc => hLoop c ⟨fun j hj => absurd hj (by omega), sent, hLast, hc⟩
  refine triple_bind hStart fun _ => triple_modify fun c hEnd => ?_
  obtain ⟨hAll, sent, hSent, hc⟩ := hEnd
  have hMotions : motions c.attributes.sent = sent := hc.motions
  change some q = (motions c.attributes.sent).getLast?
  rw [hMotions, hSent, lastPixel_target hSqrt hPositive hDistance hCount (hTarget hAll) hAll]

theorem triple_tracked_call (hSqrt : Rooted sqrt) {k : PointerCall Double} (hPointer : s.pointer ≠ none)
    (h : s.extra = s.motions.getLast?) (hCall : CallTracks (doubles sqrt) answers s.outlook s.extra k) :
    Triple (Stands s) (call (doubles sqrt) answers k) (fun _ => Tracked) Tracked := by
  have hReturn {α β : Type} (f : α → β) {x : Method (Self Double) α}
      (hBody : Triple (Stands s) x (fun _ => Tracked) Tracked) :
      Triple (Stands s) (x >>= fun a => pure (f a)) (fun _ => Tracked) Tracked :=
    triple_bind hBody fun a => triple_pure (f a) fun _ hEnd => hEnd
  cases k with
  | moveToAbsolute p => exact hReturn _ (triple_tracked_moveToAbsolute hPointer h hCall)
  | moveToProportional x y => exact hReturn _ (triple_tracked_moveToProportional hPointer h hCall)
  | walkToAbsolute q stepDistance delay =>
      exact hReturn _ (triple_connect_bind hPointer (triple_tracked_walk hSqrt hPointer h hCall))
  | walkToProportional x y stepDistance delay =>
      have hUntouched (c : Self Double) (hc : Stands s c) : Tracked c := tracked_of_stands hc h
      refine hReturn _ (triple_connect_bind hPointer ?_)
      rw [getAbsoluteFromProportional, bind_assoc]
      refine triple_get_bind_of fun c hc => ?_
      have hWidth : c.attributes.outputWidth = s.outlook.screen.width := congrArg Screen.width hc.screen
      have hHeight : c.attributes.outputHeight = s.outlook.screen.height := congrArg Screen.height hc.screen
      dsimp only
      rw [hWidth, hHeight]
      refine triple_bind ((triple_absoluteFromProportional x y _ _).mono (fun _ _ h => h) hUntouched)
        fun q => triple_and fun hValue => ?_
      exact hReturn _ (triple_connect_bind hPointer
        (triple_tracked_walk hSqrt hPointer h fun hPositive => hCall hPositive q hValue))

end Walks

/-! ### Runs -/

/-- A keyword call, with the answers it gets. -/
structure PointerKeyword (F : Type) where
  call : PointerCall F
  answers : Answers F

variable (A) in
/-- The client after a call, whether it returned or raised. -/
def after (c : Self F) (k : PointerKeyword F) : Option (Self F) :=
  some (state ((call A k.answers k.call).run c))

variable (A) in
/-- Once connected, the call keeps the position. -/
def Tracks (c : Self F) (k : PointerKeyword F) : Prop :=
  ∀ c₁, (connect A k.answers.connecting k.answers.closing).run c = .ok () c₁ →
    CallTracks A k.answers (whereabouts c₁).outlook c₁.attributes.extra k.call

section Runs

variable {sqrt : Double → Double}

theorem tracked_after (hSqrt : Rooted sqrt) {c c' : Self Double} {k : PointerKeyword Double} (h : Tracked c)
    (hTracks : Tracks (doubles sqrt) c k) (hAfter : after (doubles sqrt) c k = some c') : Tracked c' := by
  obtain rfl := Option.some.inj hAfter
  obtain ⟨hExtra, hSent⟩ := connect_unmoved (A := doubles sqrt) k.answers.connecting k.answers.closing c
  cases hConnect : (connect (doubles sqrt) k.answers.connecting k.answers.closing).run c with
  | ok _ c₁ =>
      rw [hConnect, state_ok] at hExtra hSent
      have hHere : (whereabouts c₁).extra = (whereabouts c₁).motions.getLast? := by
        change c₁.attributes.extra = (motions c₁.attributes.sent).getLast?
        rw [hExtra, hSent]
        exact h
      rw [call_run_of_connect hConnect]
      exact (triple_tracked_call hSqrt (pointer_of_connect hConnect) hHere (hTracks c₁ hConnect)).state rfl
  | error e c₁ =>
      rw [hConnect, state_error] at hExtra hSent
      rw [call_run_of_connect_error hConnect, state_error, Tracked, hExtra, hSent]
      exact h

/-- While every call keeps the position, it is that of the last motion sent. The condition looks at
the state a call starts from, its arguments and the answers it gets, and at nothing the call assigns. -/
theorem position_tracked (hSqrt : Rooted sqrt) {c c' : Self Double} {calls : List (PointerKeyword Double)}
    (hNew : c.attributes.extra = none ∧ motions c.attributes.sent = [])
    (run : Runs (after (doubles sqrt)) (Tracks (doubles sqrt)) c calls c') : Tracked c' := by
  refine run.invariant Tracked ?_ fun c k c' h hTracks hAfter => tracked_after hSqrt h hTracks hAfter
  rw [Tracked, hNew.1, hNew.2]
  rfl

end Runs

/-- A walk in steps of at most 200, on which no call raises but for the sleep of one step. -/
def walkOf (q : Position) (sleep : ℕ → Option Exc) : PointerKeyword Double where
  call := .walkToAbsolute q 200 (Double.round 0)
  answers := {
    connecting := { connected := {} }
    closing := {}
    move := {}
    send := fun _ => {}
    sleep := fun _ k => { raises := sleep k } }

theorem position_tracked_walk : ∃ c',
    Runs (after (doubles wholeSqrt)) (Tracks (doubles wholeSqrt)) vga [walkOf (300, 400) fun _ => none] c' ∧
      c'.attributes.extra = some (300, 400) ∧ Tracked c' := by
  have hTracks : Tracks (doubles wholeSqrt) vga (walkOf (300, 400) fun _ => none) := by
    intro c₁ hConnect
    rw [connect_run_of_pointer (by simp [vga])] at hConnect
    cases hConnect
    refine fun _ => ⟨fun _ => by decide +kernel, fun _ d n hDistance _ hCount => ?_⟩
    have hFar : distance (doubles wholeSqrt) (0, 0) (300, 400) = .ok (Double.round 500) := by decide +kernel
    obtain rfl := Except.ok.inj (hFar.symm.trans hDistance)
    have hThree : stepCount (doubles wholeSqrt) (Double.round 500) 200 = .ok 3 := by decide +kernel
    obtain rfl := Except.ok.inj (hThree.symm.trans hCount)
    have hSends : ∀ k < 4, StepSent (doubles wholeSqrt) (walkOf (300, 400) fun _ => none).answers (Double.round 0)
        (whereabouts vga).outlook (0, 0) (300, 400) 3 k := by decide +kernel
    exact ⟨fun k hk _ hNot => absurd ⟨hSends k hk, ⟨rfl, rfl⟩, rfl⟩ hNot,
      fun _ => Pixels.exact ⟨by norm_num, by norm_num⟩⟩
  have run := Runs.single hTracks (rfl : after (doubles wholeSqrt) vga _ = some _)
  exact ⟨_, run, by decide +kernel, position_tracked rooted_wholeSqrt ⟨rfl, rfl⟩ run⟩

/-- A walk that leaves the output, and one that is cancelled during its second delay: the
position stays at the start, though the pointer moved. -/
theorem position_lost :
    (∃ c', Runs (after (doubles wholeSqrt)) Any vga [walkOf (700, 0) fun _ => none] c' ∧
      c'.attributes.extra = some (0, 0) ∧ (motions c'.attributes.sent).getLast? = some (525, 0) ∧
      ¬Tracked c') ∧
    ∃ c', Runs (after (doubles wholeSqrt)) Any vga [walkOf (600, 0) fun k =>
        if k = 1 then some { cls := .cancelledError, text := "" } else none] c' ∧
      c'.attributes.extra = some (0, 0) ∧ (motions c'.attributes.sent).getLast? = some (200, 0) ∧
      ¬Tracked c' := by
  refine ⟨⟨_, Runs.single trivial rfl, ?_⟩, ⟨_, Runs.single trivial rfl, ?_⟩⟩
  · unfold Tracked
    decide +kernel
  · unfold Tracked
    decide +kernel

end MirCi.Robot.WaylandHid
