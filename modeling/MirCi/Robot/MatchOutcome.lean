import MirCi.Robot.MatchVerdict

/-! When `match` ends as its documentation says: with the regions found in the last
screenshot that was compared, or with `ImageNotFoundError`. -/
namespace MirCi.Robot

open Python Semantics Effect

section Outcome

variable {σ K : Type} (m : Matcher σ K) (a : Matching)

/-- What the documentation allows `match` to end with. -/
def AsDocumented : EStateM.Result Exc (Compared σ) (List Region) → Prop
  | .ok regions c => c.notes.getLast? = some (.ok regions)
  | .error e _ => e.cls = .imageNotFoundError

/-- The last screenshot compared and the state of the library when so many were delivered. -/
def Matcher.delivered (s : σ) : ℕ → Option (K × σ)
  | 0 => some (m.unchecked, s)
  | n + 1 => (delivered s n).bind fun w => match (m.grab n).run w.2 with
      | .ok k t => some (if m.fresh w.1 k then k else w.1, t)
      | .error _ _ => none

/-- The regions that a turn finds. -/
def found (s : σ) (n : ℕ) : Option (List Region) :=
  (m.delivered s n).bind fun w => match (m.grab n).run w.2 with
    | .ok k _ => if m.fresh w.1 k then (a.search n).toOption else none
    | .error _ _ => none

/-- The loop goes on after the turn. -/
def Passes (last : Double) (s : σ) (n : ℕ) : Prop :=
  a.inTime last n = true ∧ (m.delivered s (n + 1)).isSome = true ∧ found m a s n = none

/-- Some turn comes too late or finds the template, and the ones before it pass. -/
def Decided (last : Double) (s : σ) : Prop :=
  ∃ n, (∀ k < n, Passes m a last s k) ∧
    (a.inTime last n = false ∨ a.inTime last n = true ∧ (found m a s n).isSome = true)

variable {m a}

section Loop

variable {last : Double} {s t : σ} {n : ℕ} {p : Progress K} {c : Compared σ} {k : K}

/-- The loop stands at this turn, with what the turns before left. -/
structure At (m : Matcher σ K) (s : σ) (n : ℕ) (w : Progress K × Compared σ) : Prop where
  turn : w.1.turn = n
  delivered : m.delivered s n = some (w.1.lastChecked, w.2.self)

theorem At.grab (h : At m s n (p, c)) (hGrab : (m.grab p.turn).run c.self = .ok k t) :
    m.delivered s (n + 1) = some (if m.fresh p.lastChecked k then k else p.lastChecked, t) ∧
      found m a s n = if m.fresh p.lastChecked k then (a.search n).toOption else none := by
  have hTurn : p.turn = n := h.turn
  rw [hTurn] at hGrab
  simp [Matcher.delivered, found, h.delivered, hGrab]

theorem At.lost {e : Exc} (h : At m s n (p, c)) (hGrab : (m.grab p.turn).run c.self = .error e t) :
    m.delivered s (n + 1) = none := by
  have hTurn : p.turn = n := h.turn
  rw [hTurn] at hGrab
  simp [Matcher.delivered, h.delivered, hGrab]

/-- A turn after which the loop goes on passes. -/
theorem passes_of_turn {w w' : Progress K × Compared σ} (h : At m s n w)
    (hTurn : Loop.ofProgram (matchTurn m a last) w = .inl w') :
    At m s (n + 1) w' ∧ Passes m a last s n := by
  obtain ⟨p, c⟩ := w
  have hRun := Loop.ofProgram_inl hTurn
  have hTurned := turned m a last p c
  have hHere : p.turn = n := h.turn
  rw [hRun] at hTurned
  obtain ⟨p', c'⟩ := w'
  dsimp only at hTurned
  cases hTurned with
  | stale hTime hGrab hStale =>
      obtain ⟨hDelivered, hFound⟩ := h.grab (a := a) hGrab
      simp only [hStale, Bool.false_eq_true, if_false] at hDelivered hFound
      rw [hHere] at hTime
      exact ⟨⟨congrArg Nat.succ hHere, hDelivered⟩, hTime, by simp [hDelivered], hFound⟩
  | failed hTime hGrab hFresh hSearch hCaught =>
      obtain ⟨hDelivered, hFound⟩ := h.grab (a := a) hGrab
      rw [hHere] at hTime hSearch
      simp only [hFresh, if_true, hSearch] at hDelivered hFound
      exact ⟨⟨congrArg Nat.succ hHere, hDelivered⟩, hTime, by simp [hDelivered], hFound⟩

/-- After a turn that passes the loop goes on. -/
theorem turn_of_passes {w : Progress K × Compared σ} (hSearch : ∀ n e, a.search n = .error e → caught e = true)
    (h : At m s n w) (hPasses : Passes m a last s n) :
    ∃ w', Loop.ofProgram (matchTurn m a last) w = .inl w' := by
  obtain ⟨p, c⟩ := w
  obtain ⟨hTime, hDelivered, hUnfound⟩ := hPasses
  have hHere : p.turn = n := h.turn
  rw [← hHere] at hTime
  cases hGrab : (m.grab p.turn).run c.self with
  | error e t =>
      rw [h.lost hGrab] at hDelivered
      cases hDelivered
  | ok k t =>
      cases hFresh : m.fresh p.lastChecked k with
      | false =>
          refine ⟨(⟨p.turn + 1, p.lastChecked, true⟩, { c with self := t }), ?_⟩
          simp only [Loop.ofProgram, matchTurn_stale hTime hGrab hFresh]
      | true =>
          obtain ⟨-, hFound⟩ := h.grab (a := a) hGrab
          rw [if_pos hFresh, hUnfound, ← hHere] at hFound
          cases hOutcome : a.search p.turn with
          | ok regions =>
              rw [hOutcome] at hFound
              cases hFound
          | error e =>
              refine ⟨(⟨p.turn + 1, k, true⟩, ⟨t, c.notes ++ [.error e]⟩), ?_⟩
              simp only [Loop.ofProgram, matchTurn_fresh hTime hGrab hFresh,
                compare_failed hOutcome (hSearch _ _ hOutcome)]

theorem at_of_turns {w : Progress K × Compared σ}
    (h : Loop.turns (Loop.ofProgram (matchTurn m a last)) (⟨0, m.unchecked, false⟩, { self := s }) n = .inl w) :
    At m s n w ∧ ∀ k < n, Passes m a last s k := by
  refine Loop.invariant (fun n w => At m s n w ∧ ∀ k < n, Passes m a last s k)
    ⟨⟨rfl, rfl⟩, fun k hk => absurd hk (by omega)⟩ ?_ h
  rintro n w w' ⟨hAt, hBefore⟩ hTurn
  obtain ⟨hNext, hPasses⟩ := passes_of_turn hAt hTurn
  refine ⟨hNext, fun k hk => ?_⟩
  rcases Nat.lt_succ_iff_lt_or_eq.mp hk with hEarlier | rfl
  · exact hBefore k hEarlier
  · exact hPasses

theorem turns_of_passes (hSearch : ∀ n e, a.search n = .error e → caught e = true)
    (h : ∀ k < n, Passes m a last s k) :
    ∃ w, Loop.turns (Loop.ofProgram (matchTurn m a last)) (⟨0, m.unchecked, false⟩, { self := s }) n = .inl w := by
  induction n with
  | zero => exact ⟨_, rfl⟩
  | succ n ih =>
      obtain ⟨w, hStands⟩ := ih fun k hk => h k (by omega)
      obtain ⟨w', hTurn⟩ := turn_of_passes hSearch (at_of_turns hStands).1 (h n (by omega))
      exact ⟨w', by simp [Loop.turns, hStands, hTurn]⟩

variable (hSearch : ∀ n e, a.search n = .error e → caught e = true)
include hSearch

/-- The loop ends with the turn that decides it. -/
theorem ends_of_decided (hLog : a.log = none) (h : Decided m a last s) :
    ∃ r, Loop.Ends (Loop.ofProgram (matchTurn m a last)) (⟨0, m.unchecked, false⟩, { self := s }) r ∧
      AsDocumented r := by
  obtain ⟨n, hBefore, hLast⟩ := h
  obtain ⟨⟨p, c⟩, hStands⟩ := turns_of_passes (m := m) hSearch hBefore
  have hAt := (at_of_turns hStands).1
  have hHere : p.turn = n := hAt.turn
  rcases hLast with hLate | ⟨hTime, hFound⟩
  · rw [← hHere] at hLate
    have hRun : Loop.ofProgram (matchTurn m a last) (p, c) = .inr (.error { cls := .imageNotFoundError } c) := by
      simp [Loop.ofProgram, matchTurn_late hLate, hLog]
    exact ⟨_, Loop.ends_iff.mpr ⟨n, _, hStands, hRun⟩, rfl⟩
  · rw [← hHere] at hTime
    cases hGrab : (m.grab p.turn).run c.self with
    | error e t =>
        rw [hHere] at hGrab
        simp [found, hAt.delivered, hGrab] at hFound
    | ok k t =>
        obtain ⟨-, hIs⟩ := hAt.grab (a := a) hGrab
        cases hFresh : m.fresh p.lastChecked k with
        | false => simp [hIs, hFresh] at hFound
        | true =>
            rw [hIs, if_pos hFresh, ← hHere] at hFound
            cases hOutcome : a.search p.turn with
            | error e => simp [hOutcome, Except.toOption] at hFound
            | ok regions =>
                have hRun : Loop.ofProgram (matchTurn m a last) (p, c) =
                    .inr (.ok regions ⟨t, c.notes ++ [.ok regions]⟩) := by
                  simp only [Loop.ofProgram, matchTurn_fresh hTime hGrab hFresh, compare_matched hOutcome]
                exact ⟨_, Loop.ends_iff.mpr ⟨n, _, hStands, hRun⟩, by simp [AsDocumented]⟩

theorem decided_of_ends (hSound : m.Sound) {r : EStateM.Result Exc (Compared σ) (List Region)}
    (hEnds : Loop.Ends (Loop.ofProgram (matchTurn m a last)) (⟨0, m.unchecked, false⟩, { self := s }) r)
    (h : AsDocumented r) : Decided m a last s := by
  obtain ⟨n, ⟨p, c⟩, hStands, hLast⟩ := Loop.ends_iff.mp hEnds
  obtain ⟨hAt, hBefore⟩ := at_of_turns hStands
  have hHere : p.turn = n := hAt.turn
  refine ⟨n, hBefore, ?_⟩
  have hTurned := turned m a last p c
  unfold Loop.ofProgram at hLast
  dsimp only at hLast
  generalize (matchTurn m a last p).run c = r' at hLast hTurned
  cases hTurned with
  | late hTime => exact Or.inl (hHere ▸ hTime)
  | lost hTime hGrab =>
      cases hLast
      exact absurd h (hSound.grab _ _ _ _ hGrab)
  | stale _ _ _ => cases hLast
  | matched hTime hGrab hFresh hOutcome =>
      obtain ⟨-, hFound⟩ := hAt.grab (a := a) hGrab
      rw [hHere] at hTime hOutcome
      exact Or.inr ⟨hTime, by simp [hFound, hFresh, hOutcome, Except.toOption]⟩
  | failed _ _ _ _ _ => cases hLast
  | raised hTime hGrab hFresh hOutcome hNotCaught =>
      rw [hSearch _ _ hOutcome] at hNotCaught
      cases hNotCaught

end Loop

/-- A call ends as documented just when it reaches its loop and some turn decides it. -/
theorem documented_iff {timeout : ℤ} {s : σ} (hSound : m.Sound)
    (hSearch : ∀ n e, a.search n = .error e → caught e = true) (hLog : a.log = none) :
    (∃ r, MatchEnds m a timeout s r ∧ AsDocumented r) ↔
      ∃ last t, (prepare m a timeout).run s = .ok last t ∧ Decided m a last t := by
  cases hPrepare : (prepare m a timeout).run s with
  | ok last t =>
      simp only [MatchEnds, hPrepare]
      constructor
      · rintro ⟨r, hEnds, h⟩
        exact ⟨last, t, rfl, decided_of_ends hSearch hSound hEnds h⟩
      · rintro ⟨_, _, hSame, h⟩
        cases hSame
        exact ends_of_decided hSearch hLog h
  | error e t =>
      simp only [MatchEnds, hPrepare]
      constructor
      · rintro ⟨r, rfl, h⟩
        exact absurd h (throws_prepare hSound _ _ _ hPrepare)
      · rintro ⟨_, _, hSame, -⟩
        cases hSame

end Outcome

/-- With a template that can be read and a search that fails as its documentation says, a call of
either library ends as documented just when some turn decides it. -/
theorem match_documented_iff {X F : Type} (timeout : ℤ) (a : Matching)
    (hSearch : ∀ n e, a.search n = .error e → caught e = true) (hLog : a.log = none) :
    (∀ (c : Wayland.ScreencopyTracker.Self X) (grabs : ℕ → Screencopy.Grabbing),
      (∀ i, NoImageNotFound (grabs i).exceptions) →
      ((∃ r, MatchEnds (Screencopy.matcher timeout grabs) a timeout { self := c } r ∧ AsDocumented r) ↔
        ∃ last, endTime a timeout = .ok last ∧
          Decided (Screencopy.matcher timeout grabs) a last { self := c })) ∧
    ∀ (v : Vnc) (answers : Vnc.Answers F) (screenshots : ℕ → Option Exc), v.client ≠ none →
      NoImageNotFound [answers.openConnection] →
      (∀ e, answers.create = .error e → e.cls ≠ .imageNotFoundError) →
      (∀ i, NoImageNotFound [screenshots i]) →
      ((∃ r, MatchEnds (Vnc.matcher timeout answers screenshots) a timeout v r ∧ AsDocumented r) ↔
        ∃ last, endTime a timeout = .ok last ∧
          Decided (Vnc.matcher timeout answers screenshots) a last v) := by
  constructor
  · intro c grabs hRaises
    rw [documented_iff (Screencopy.sound hRaises) hSearch hLog]
    constructor
    · rintro ⟨last, t, hPrepare, hDecided⟩
      obtain ⟨_, _, hStart, hCompute⟩ := run_bind_ok.mp hPrepare
      obtain ⟨hEnd, rfl⟩ := compute_run_ok.mp hCompute
      cases hStart
      exact ⟨last, hEnd, hDecided⟩
    · rintro ⟨last, hEnd, hDecided⟩
      exact ⟨last, _, run_bind_ok.mpr ⟨(), _, rfl, compute_run_ok.mpr ⟨hEnd, rfl⟩⟩, hDecided⟩
  · intro v answers screenshots hClient hConnect hCreate hScreenshots
    rw [documented_iff (Vnc.sound hConnect hCreate hScreenshots) hSearch hLog]
    have hStart : (Vnc.matcher timeout answers screenshots).start.run v = .ok () v :=
      run_bind_ok.mpr ⟨(), v, Vnc.connect_run_of_client hClient, Vnc.requireClient_run_of_client hClient⟩
    constructor
    · rintro ⟨last, t, hPrepare, hDecided⟩
      obtain ⟨_, _, hStarted, hCompute⟩ := run_bind_ok.mp hPrepare
      obtain ⟨hEnd, rfl⟩ := compute_run_ok.mp hCompute
      cases hStart.symm.trans hStarted
      exact ⟨last, hEnd, hDecided⟩
    · rintro ⟨last, hEnd, hDecided⟩
      exact ⟨last, v, run_bind_ok.mpr ⟨(), v, hStart, compute_run_ok.mpr ⟨hEnd, rfl⟩⟩, hDecided⟩

/-- The template is found, and the clock stands. -/
def fruitful : Matching where
  clock _ := Double.round 0
  search _ := .ok [⟨0, 0, 10, 10⟩]

theorem match_documented_found :
    (∃ r, MatchEnds (Screencopy.matcher 5 fun _ => calm) fruitful 5 { self := tracking } r ∧ AsDocumented r) ∧
      ∃ r, MatchEnds (Vnc.matcher 5 ({ create := .ok ⟨640, 480⟩ } : Vnc.Answers Double) fun _ => none)
        fruitful 5 { client := some { video := ⟨640, 480⟩ } } r ∧ AsDocumented r := by
  have hEnd : endTime fruitful 5 = .ok (Double.round 5) := by decide +kernel
  have hTime : fruitful.inTime (Double.round 5) 0 = true := by decide +kernel
  obtain ⟨hScreencopy, hVnc⟩ := match_documented_iff (X := Unit) (F := Double) 5 fruitful
    (by simp [fruitful]) rfl
  refine ⟨(hScreencopy tracking (fun _ => calm) ?_).mpr ⟨_, hEnd, 0, ?_, Or.inr ⟨hTime, ?_⟩⟩,
    (hVnc _ _ (fun _ => none) ?_ ?_ ?_ ?_).mpr ⟨_, hEnd, 0, ?_, Or.inr ⟨hTime, rfl⟩⟩⟩
  · simp [NoImageNotFound, Screencopy.Grabbing.exceptions, calm]
  · omega
  · rfl
  · simp
  · simp [NoImageNotFound]
  · simp
  · simp [NoImageNotFound]
  · omega

/-- A tracker that is connected and has counted no frame. -/
def waiting : Wayland.ScreencopyTracker.Self Unit :=
  { tracking with attributes := { tracking.attributes with frameCount := 0 } }

/-- A screenshot that does not come within the timeout ends the call with `TimeoutError`. -/
theorem match_timed_out :
    (∃ c, MatchEnds (Screencopy.matcher 5 fun _ => calm) fruitful 5 { self := waiting }
        (.error { cls := .timeoutError } c)) ∧
      (¬∃ r, MatchEnds (Screencopy.matcher 5 fun _ => calm) fruitful 5 { self := waiting } r ∧
        AsDocumented r) ∧
      (∃ c, MatchEnds (Vnc.matcher 5 ({ create := .ok ⟨640, 480⟩ } : Vnc.Answers Double)
        fun _ => some { cls := .timeoutError }) fruitful 5 { client := some { video := ⟨640, 480⟩ } }
        (.error { cls := .timeoutError } c)) ∧
      ¬∃ r, MatchEnds (Vnc.matcher 5 ({ create := .ok ⟨640, 480⟩ } : Vnc.Answers Double)
          fun _ => some { cls := .timeoutError }) fruitful 5 { client := some { video := ⟨640, 480⟩ } } r ∧
        AsDocumented r := by
  have hEnd : endTime fruitful 5 = .ok (Double.round 5) := by decide +kernel
  have hTime : fruitful.inTime (Double.round 5) 0 = true := by decide +kernel
  have hOne {σ K : Type} {m : Matcher σ K} {s t u : σ} (hStart : m.start.run s = .ok () t)
      (hGrab : (m.grab 0).run t = .error { cls := .timeoutError } u) :
      MatchEnds m fruitful 5 s (.error { cls := .timeoutError } { self := u }) := by
    have hPrepare : (prepare m fruitful 5).run s = .ok (Double.round 5) t :=
      run_bind_ok.mpr ⟨(), t, hStart, compute_run_ok.mpr ⟨hEnd, rfl⟩⟩
    simp only [MatchEnds, hPrepare]
    refine Loop.ends_iff.mpr ⟨0, _, rfl, ?_⟩
    simp only [Loop.ofProgram, matchTurn_lost (p := ⟨0, m.unchecked, false⟩) (c := { self := t }) hTime hGrab]
  refine ⟨⟨_, hOne rfl rfl⟩, ?_, ⟨_, hOne rfl rfl⟩, ?_⟩
  · rintro ⟨r, hEnds, h⟩
    rw [hEnds.unique (hOne rfl rfl)] at h
    cases h
  · rintro ⟨r, hEnds, h⟩
    rw [hEnds.unique (hOne rfl rfl)] at h
    cases h

end MirCi.Robot
