import MirCi.Robot.MatchVerdict

/-! Whether `match` sees the frames that arrive while it is matching: the event loop has
to get a turn between two screenshots. -/
namespace MirCi.Robot.Screencopy

open Python Semantics Effect Wayland Wayland.ScreencopyTracker

variable {X : Type}

/-- Between two screenshots the event loop gets a turn. -/
def Yields (trace : List GrabEvent) : Prop :=
  ∀ before first between second later,
    trace = before ++ .grabbed first :: (between ++ .grabbed second :: later) → .turn ∈ between

theorem yields_of_length_le {trace : List GrabEvent} (h : trace.length ≤ 1) : Yields trace := by
  rintro before first between second later rfl
  simp only [List.length_append, List.length_cons] at h
  omega

theorem not_yields_pair (first second : ℕ) : ¬Yields [.grabbed first, .grabbed second] := by
  intro h
  exact absurd (h [] first [] second [] rfl) (by simp)

variable (timeout : ℤ) (a : Matching) (grabs : ℕ → Grabbing) (c : Self X)

/-- At no point of the loop were two screenshots grabbed without a turn between them. -/
def SeesFrames : Prop :=
  ∀ last, endTime a timeout = .ok last → ∀ n,
    Yields (Loop.worldAt (matchTurn (matcher timeout grabs) a last)
      (⟨0, 0, false⟩, { self := { self := c } }) n).self.notes

/-- The first screenshot is compared and does not match, and a second one is grabbed. -/
def Rematches (last : Double) : Prop :=
  0 < timeout ∧ a.inTime last 0 = true ∧
    ((grabs 0).read = none ∧ (0 < c.attributes.bufferWidth ∧ 0 < c.attributes.bufferHeight) ∧
      (grabs 0).image = none) ∧
    (∃ e, a.search 0 = .error e ∧ caught e = true) ∧ a.inTime last 1 = true ∧ (grabs 1).read = none

variable {timeout a grabs c}

/-! ### A screenshot of a connected client -/

section Connected

variable {g : Grabbing} {w : Watched X}

theorem connect_run_self {connecting : Connecting Copying} {closing : Closing FrameEvent}
    (h : w.self.attributes.shmData ≠ none) : (onSelf (connect connecting closing)).run w = .ok () w := by
  refine onSelf_run_ok (s := w.self) ?_
  change (when (w.self.attributes.shmData = none) _).run w.self = _
  rw [when, if_neg h]
  rfl

theorem waitForFrame_run {turns : List (Dispatching FrameEvent)} (h : 0 < w.self.attributes.frameCount) :
    (waitForFrame turns).run w = .ok () w := by
  have hSome : ¬w.self.attributes.frameCount = 0 := by omega
  cases turns <;>
    (change (when (w.self.attributes.frameCount = 0) _).run w = _
     rw [when, if_neg hSome]
     rfl)

variable (hConnected : w.self.attributes.shmData ≠ none) (hCounted : 0 < w.self.attributes.frameCount)
include hConnected hCounted

/-- A connected client that has a frame neither connects nor waits. -/
theorem grabScreenshot_run_read {e : Exc} (h : g.read = some e) : (grabScreenshot g).run w = .error e w := by
  refine run_bind_error.mpr (Or.inr ⟨(), w, connect_run_self hConnected, ?_⟩)
  refine run_bind_error.mpr (Or.inr ⟨(), w, waitForFrame_run hCounted, ?_⟩)
  refine run_bind_error.mpr (Or.inr ⟨w, w, rfl, ?_⟩)
  refine run_bind_error.mpr (Or.inr ⟨(), w, require_run_ok.mpr ⟨hConnected, rfl⟩, ?_⟩)
  rw [h]
  exact run_bind_error.mpr (Or.inl rfl)

/-- What it reads is noted, whether or not an image comes of it. -/
theorem grabScreenshot_run (h : g.read = none) : (grabScreenshot g).run w =
    (do
      require (0 < w.self.attributes.bufferWidth ∧ 0 < w.self.attributes.bufferHeight) "Not enough image data"
      outside g.image
      return (← get).self.attributes.frameCount : Method (Watched X) ℕ).run
        { w with notes := w.notes ++ [.grabbed w.self.attributes.frameCount] } := by
  rw [grabScreenshot, EStateM.run_bind, connect_run_self hConnected]
  dsimp only
  rw [EStateM.run_bind, waitForFrame_run hCounted]
  have hMapped :
      (require (w.self.attributes.shmData ≠ none) "No SHM data available" : Method (Watched X) Unit).run w =
      .ok () w := require_run_ok.mpr ⟨hConnected, rfl⟩
  change (require (w.self.attributes.shmData ≠ none) _ >>= _).run w = _
  rw [EStateM.run_bind, hMapped, h]
  rfl

theorem state_grabScreenshot (h : g.read = none) : state ((grabScreenshot g).run w) =
    { w with notes := w.notes ++ [.grabbed w.self.attributes.frameCount] } := by
  have hKeeps (w' : Watched X) : Keeps (fun v => v = w') (do
      require (0 < w.self.attributes.bufferWidth ∧ 0 < w.self.attributes.bufferHeight) "Not enough image data"
      outside g.image
      return (← get).self.attributes.frameCount : Method (Watched X) ℕ) :=
    keeps_bind keeps_require fun _ => keeps_bind keeps_outside fun _ => keeps_get_bind fun _ => keeps_pure _
  rw [grabScreenshot_run hConnected hCounted h]
  exact hKeeps _ _ rfl

theorem grabScreenshot_ok {frameCount : ℕ} {w' : Watched X} :
    (grabScreenshot g).run w = .ok frameCount w' ↔
      (g.read = none ∧ (0 < w.self.attributes.bufferWidth ∧ 0 < w.self.attributes.bufferHeight) ∧
        g.image = none) ∧ frameCount = w.self.attributes.frameCount ∧
        w' = { w with notes := w.notes ++ [.grabbed w.self.attributes.frameCount] } := by
  cases hRead : g.read with
  | some e => simp [grabScreenshot_run_read hConnected hCounted hRead]
  | none =>
      rw [grabScreenshot_run hConnected hCounted hRead]
      constructor
      · intro hRun
        obtain ⟨_, _, hRequire, hRun⟩ := run_bind_ok.mp hRun
        obtain ⟨hSize, rfl⟩ := require_run_ok.mp hRequire
        obtain ⟨_, _, hOutside, hRun⟩ := run_bind_ok.mp hRun
        obtain ⟨hImage, rfl⟩ := outside_run_ok.mp hOutside
        cases hRun
        exact ⟨⟨rfl, hSize, hImage⟩, rfl, rfl⟩
      · rintro ⟨⟨-, hSize, hImage⟩, rfl, rfl⟩
        exact run_bind_ok.mpr ⟨(), _, require_run_ok.mpr ⟨hSize, rfl⟩,
          run_bind_ok.mpr ⟨(), _, outside_run_ok.mpr ⟨hImage, rfl⟩, rfl⟩⟩

end Connected

/-! ### The loop -/

section Loop

variable {last : Double} {w : Watched X} (hConnected : c.attributes.shmData ≠ none)
  (hCounted : 0 < c.attributes.frameCount)
include hConnected hCounted

/-- A first turn that goes on has compared the frame, in vain. -/
theorem first_turn {p : Progress ℕ} {w : Compared (Watched X)}
    (h : (matchTurn (matcher timeout grabs) a last ⟨0, 0, false⟩).run { self := { self := c } } =
      .ok (.inl p) w) :
    p = ⟨1, c.attributes.frameCount, true⟩ ∧
      w.self = ⟨c, [.grabbed c.attributes.frameCount]⟩ ∧ 0 < timeout ∧ a.inTime last 0 = true ∧
      ((grabs 0).read = none ∧ (0 < c.attributes.bufferWidth ∧ 0 < c.attributes.bufferHeight) ∧
        (grabs 0).image = none) ∧ ∃ e, a.search 0 = .error e ∧ caught e = true := by
  have hTurned := turned (matcher timeout grabs) a last ⟨0, 0, false⟩ { self := { self := c } }
  have hPositive {k : ℕ} {s : Watched X} (hGrab : (waitFor timeout (grabScreenshot (grabs 0))).run
      { self := c } = .ok k s) : 0 < timeout ∧ (grabScreenshot (grabs 0)).run { self := c } = .ok k s := by
    unfold waitFor at hGrab
    split at hGrab
    · cases hGrab
    · exact ⟨by omega, hGrab⟩
  rw [h] at hTurned
  cases hTurned with
  | stale hTime hGrab hStale =>
      obtain ⟨-, hGrab⟩ := hPositive hGrab
      obtain ⟨-, rfl, -⟩ := (grabScreenshot_ok hConnected hCounted).mp hGrab
      simp only [matcher, ne_eq, decide_not, Bool.not_eq_false', decide_eq_true_eq] at hStale
      omega
  | failed hTime hGrab hFresh hSearch hCaught =>
      obtain ⟨hPositive, hGrab⟩ := hPositive hGrab
      obtain ⟨hDelivered, rfl, rfl⟩ := (grabScreenshot_ok hConnected hCounted).mp hGrab
      exact ⟨rfl, rfl, hPositive, hTime, hDelivered, _, hSearch, hCaught⟩

theorem first_turn_goes_on {e : Exc} (hPositive : 0 < timeout) (hTime : a.inTime last 0 = true)
    (hDelivered : (grabs 0).read = none ∧
      (0 < c.attributes.bufferWidth ∧ 0 < c.attributes.bufferHeight) ∧ (grabs 0).image = none)
    (hSearch : a.search 0 = .error e) (hCaught : caught e = true) :
    (matchTurn (matcher timeout grabs) a last ⟨0, 0, false⟩).run { self := { self := c } } =
      .ok (.inl ⟨1, c.attributes.frameCount, true⟩)
        ⟨⟨c, [.grabbed c.attributes.frameCount]⟩, [.error e]⟩ := by
  have hGrab : ((matcher timeout grabs).grab 0).run { self := c } =
      .ok c.attributes.frameCount ⟨c, [.grabbed c.attributes.frameCount]⟩ := by
    dsimp only [matcher, waitFor]
    rw [if_neg (by omega)]
    exact (grabScreenshot_ok hConnected hCounted).mpr ⟨hDelivered, rfl, rfl⟩
  have hFresh : (matcher timeout grabs : Matcher (Watched X) ℕ).fresh 0 c.attributes.frameCount = true :=
    decide_eq_true (by omega)
  rw [matchTurn_fresh (p := ⟨0, 0, false⟩) hTime hGrab hFresh]
  exact compare_failed hSearch hCaught

variable (timeout grabs) in
/-- The only screenshot a turn can grab, it grabs of the frame that was counted. -/
theorem notes_grab (i : ℕ) (w : Watched X) (hw : w.self = c) :
    (state (((matcher timeout grabs).grab i).run w)).notes.length ≤ w.notes.length + 1 ∧
      ((grabs i).read ≠ none → 0 < timeout → state (((matcher timeout grabs).grab i).run w) = w) ∧
      ((grabs i).read = none → 0 < timeout → state (((matcher timeout grabs).grab i).run w) =
        { w with notes := w.notes ++ [.grabbed c.attributes.frameCount] }) := by
  subst hw
  by_cases hTimeout : timeout ≤ 0
  · have hRun : state (((matcher timeout grabs).grab i).run w) = { w with notes := w.notes ++ [.turn] } := by
      dsimp only [matcher, waitFor]
      rw [if_pos hTimeout]
      rfl
    rw [hRun]
    exact ⟨by simp, fun _ h => absurd h (by omega), fun _ h => absurd h (by omega)⟩
  · have hRun : ((matcher timeout grabs).grab i).run w = (grabScreenshot (grabs i)).run w := by
      dsimp only [matcher, waitFor]
      rw [if_neg hTimeout]
    rw [hRun]
    cases hRead : (grabs i).read with
    | none =>
        rw [state_grabScreenshot hConnected hCounted hRead]
        exact ⟨by simp, fun h => absurd rfl h, fun _ _ => rfl⟩
    | some e =>
        rw [grabScreenshot_run_read hConnected hCounted hRead]
        exact ⟨by simp, fun _ _ => rfl, fun h => by cases h⟩

/-- Without a second screenshot nothing is noted after the first turn. -/
theorem second_turn {p : Progress ℕ} {w : Compared (Watched X)} (hNot : ¬Rematches timeout a grabs c last)
    (h : (matchTurn (matcher timeout grabs) a last ⟨0, 0, false⟩).run { self := { self := c } } =
      .ok (.inl p) w) :
    (state ((matchTurn (matcher timeout grabs) a last p).run w)).self.notes.length ≤ 1 ∧
      ∀ p' w', (matchTurn (matcher timeout grabs) a last p).run w ≠ .ok (.inl p') w' := by
  obtain ⟨rfl, hSelf, hPositive, hTime, hDelivered, hSearch⟩ := first_turn hConnected hCounted h
  -- the second check is late, or nothing can be read
  have hEnd : a.inTime last 1 = false ∨ (grabs 1).read ≠ none := by
    by_contra hBoth
    push Not at hBoth
    exact hNot ⟨hPositive, hTime, hDelivered, hSearch, by simpa using hBoth.1, hBoth.2⟩
  obtain ⟨-, hUnread, -⟩ := notes_grab timeout grabs hConnected hCounted 1 w.self
    (by rw [hSelf])
  constructor
  · rcases self_matchTurn (matcher timeout grabs) a last ⟨1, c.attributes.frameCount, true⟩ w
      with ⟨-, hStays⟩ | ⟨hAgain, hGrab⟩
    · simp [hStays, hSelf]
    · have hRead : (grabs 1).read ≠ none := hEnd.resolve_left (by simp [show a.inTime last 1 = true from hAgain])
      rw [hGrab, hUnread hRead hPositive, hSelf]
      simp
  · intro p' w' hRun
    have hTurned := turned (matcher timeout grabs) a last ⟨1, c.attributes.frameCount, true⟩ w
    have hGrabbed {k : ℕ} {s : Watched X} (hAgain : a.inTime last 1 = true)
        (hGrab : (waitFor timeout (grabScreenshot (grabs 1))).run w.self = .ok k s) : False := by
      unfold waitFor at hGrab
      rw [if_neg (by omega), hSelf] at hGrab
      obtain ⟨⟨hRead, -⟩, -⟩ := (grabScreenshot_ok hConnected hCounted).mp hGrab
      rcases hEnd with hLate | hUnreadable
      · rw [hAgain] at hLate
        cases hLate
      · exact hUnreadable hRead
    rw [hRun] at hTurned
    cases hTurned with
    | stale hAgain hGrab _ => exact hGrabbed hAgain hGrab
    | failed hAgain hGrab _ _ _ => exact hGrabbed hAgain hGrab

/-- The event loop gets its turns just when no second screenshot is grabbed. -/
theorem seesFrames_iff : SeesFrames timeout a grabs c ↔
    ∀ last, endTime a timeout = .ok last → ¬Rematches timeout a grabs c last := by
  let start : Progress ℕ × Compared (Watched X) := (⟨0, 0, false⟩, { self := { self := c } })
  constructor
  · rintro hSees last hEnd ⟨hPositive, hTime, hDelivered, ⟨e, hSearch, hCaught⟩, hAgain, hRead⟩
    have hFirst := first_turn_goes_on hConnected hCounted hPositive hTime hDelivered hSearch hCaught
    have hOne : Loop.turns (Loop.ofProgram (matchTurn (matcher timeout grabs) a last)) start 1 =
        .inl (⟨1, c.attributes.frameCount, true⟩, ⟨⟨c, [.grabbed c.attributes.frameCount]⟩, [.error e]⟩) := by
      simp only [Loop.turns, Loop.ofProgram, start, hFirst]
    have hTwo := Loop.worldAt_succ hOne
    obtain ⟨-, -, hGrabbed⟩ := notes_grab timeout grabs hConnected hCounted 1
      ⟨c, [.grabbed c.attributes.frameCount]⟩ rfl
    rcases self_matchTurn (matcher timeout grabs) a last ⟨1, c.attributes.frameCount, true⟩
      ⟨⟨c, [.grabbed c.attributes.frameCount]⟩, [.error e]⟩ with ⟨hLate, -⟩ | ⟨-, hSelf⟩
    · rw [hAgain] at hLate
      cases hLate
    · have hYields := hSees last hEnd 2
      rw [hTwo, hSelf, hGrabbed hRead hPositive] at hYields
      exact not_yields_pair _ _ hYields
  · intro hNot last hEnd n
    refine yields_of_length_le ?_
    have hOne : (Loop.worldAt (matchTurn (matcher timeout grabs) a last) start 1).self.notes.length ≤ 1 := by
      obtain ⟨hFew, -⟩ := notes_grab timeout grabs hConnected hCounted 0 { self := c } rfl
      rw [Loop.worldAt_succ (w := start) rfl]
      rcases self_matchTurn (matcher timeout grabs) a last start.1 start.2 with ⟨-, hStays⟩ | ⟨-, hGrab⟩
      · simp [hStays, start]
      · rw [hGrab]
        exact hFew
    rcases Nat.lt_or_ge n 1 with hNone | hSome
    · obtain rfl : n = 0 := by omega
      exact Nat.zero_le 1
    cases hFirst : Loop.turns (Loop.ofProgram (matchTurn (matcher timeout grabs) a last)) start 1 with
    | inr r =>
        rw [Loop.worldAt_of_ended hFirst hSome]
        exact hOne
    | inl w =>
        have hRun := Loop.ofProgram_inl (w := start) hFirst
        obtain ⟨hFew, hLast⟩ := second_turn hConnected hCounted (hNot last hEnd) hRun
        have hTwo : (Loop.worldAt (matchTurn (matcher timeout grabs) a last) start 2).self.notes.length ≤ 1 := by
          rw [Loop.worldAt_succ hFirst]
          exact hFew
        rcases Nat.eq_or_lt_of_le hSome with rfl | hMore
        · exact hOne
        cases hSecond : Loop.turns (Loop.ofProgram (matchTurn (matcher timeout grabs) a last)) start 2 with
        | inr r =>
            rw [Loop.worldAt_of_ended hSecond hMore]
            exact hTwo
        | inl w' =>
            have hAgain : Loop.ofProgram (matchTurn (matcher timeout grabs) a last) w = .inl w' := by
              rw [Loop.turns, hFirst] at hSecond
              exact hSecond
            exact absurd (Loop.ofProgram_inl hAgain) (hLast _ _)

end Loop

/-- The template is not found, and the clock stands. -/
def fruitless : Matching where
  clock _ := Double.round 0
  search _ := .error { cls := .imageNotFoundError }

/-- Two screenshots of one frame are grabbed while the event loop waits. -/
theorem frames_unseen :
    (Loop.worldAt (matchTurn (matcher 1 fun _ => calm) fruitless (Double.round 1))
        (⟨0, 0, false⟩, { self := { self := tracking } }) 2).self.notes = [.grabbed 1, .grabbed 1] ∧
      ¬SeesFrames 1 fruitless (fun _ => calm) tracking := by
  have hEnd : endTime fruitless 1 = .ok (Double.round 1) := by decide +kernel
  have hNotes : (Loop.worldAt (matchTurn (matcher 1 fun _ => calm) fruitless (Double.round 1))
      (⟨0, 0, false⟩, { self := { self := tracking } }) 2).self.notes = [.grabbed 1, .grabbed 1] := by
    decide +kernel
  refine ⟨hNotes, fun hSees => ?_⟩
  have hYields := hSees _ hEnd 2
  rw [hNotes] at hYields
  exact not_yields_pair 1 1 hYields

/-- The template is found in the first screenshot, and the clock stands. -/
def foundAtOnce : Matching where
  clock _ := Double.round 0
  search _ := .ok [⟨0, 0, 32, 32⟩]

/-- One screenshot is grabbed, and matches. -/
theorem seesFrames_iff_now :
    (Loop.worldAt (matchTurn (matcher 1 fun _ => calm) foundAtOnce (Double.round 1))
        (⟨0, 0, false⟩, { self := { self := tracking } }) 1).self.notes = [.grabbed 1] ∧
      SeesFrames 1 foundAtOnce (fun _ => calm) tracking := by
  refine ⟨by decide +kernel, (seesFrames_iff (by simp [tracking]) (by simp [tracking])).mpr fun _ _ h => ?_⟩
  obtain ⟨e, hSearch, -⟩ := h.2.2.2.1
  cases hSearch

end MirCi.Robot.Screencopy
