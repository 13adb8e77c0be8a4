import MirCi.Robot.Screencopy
import MirCi.Robot.Vnc

/-! Whether a failure to find a template rests on a comparison. -/
namespace MirCi.Robot

open Python Semantics Effect

section Backed

variable {σ K : Type} (m : Matcher σ K) (a : Matching)

/-- Comparisons were made, and all failed. -/
def AllFailed (outcomes : List (Except Exc (List Region))) : Prop :=
  outcomes ≠ [] ∧ ∀ outcome ∈ outcomes, ∃ e, outcome = .error e

/-- A call that fails to find the template has compared it. -/
def Backed (timeout : ℤ) (s : σ) : Prop :=
  ∀ e c, MatchEnds m a timeout s (.error e c) → e.cls = .imageNotFoundError → AllFailed c.notes

/-- The first screenshot is compared, and only a search raises `ImageNotFoundError`. -/
structure Matcher.Sound : Prop where
  first : ∀ i s k t, (m.grab i).run s = .ok k t → m.fresh m.unchecked k = true
  start : Throws (fun e => e.cls ≠ .imageNotFoundError) m.start
  grab : ∀ i, Throws (fun e => e.cls ≠ .imageNotFoundError) (m.grab i)

variable {m a}

theorem caught_of_imageNotFoundError {e : Exc} (h : e.cls = .imageNotFoundError) : caught e = true := by
  simp [caught, Exc.isa, h, ExcClass.mro]

theorem endTime_error {timeout : ℤ} {e : Exc} (h : endTime a timeout = .error e) :
    e.cls = .overflowError := by
  unfold endTime Double.ofInt at h
  split at h
  · cases h
  · cases h
    rfl

theorem throws_prepare {timeout : ℤ} (hSound : m.Sound) :
    Throws (fun e => e.cls ≠ .imageNotFoundError) (prepare m a timeout) := by
  refine throws_bind hSound.start fun _ => throws_compute fun e he => ?_
  simp [endTime_error he]

/-- What holds where the loop stands after so many turns. -/
structure Standing (m : Matcher σ K) (n : ℕ) (w : Progress K × Compared σ) : Prop where
  turn : w.1.turn = n
  start : n = 0 → w.1.lastChecked = m.unchecked
  compared : 0 < n → w.2.notes ≠ []
  failed : ∀ outcome ∈ w.2.notes, ∃ e, outcome = .error e

theorem standing_succ {last : Double} {n : ℕ} {w w' : Progress K × Compared σ} (hSound : m.Sound)
    (h : Standing m n w) (hTurn : Loop.ofProgram (matchTurn m a last) w = .inl w') :
    Standing m (n + 1) w' := by
  obtain ⟨p, c⟩ := w
  have hTurned := turned m a last p c
  unfold Loop.ofProgram at hTurn
  dsimp only at hTurn
  generalize (matchTurn m a last p).run c = r at hTurn hTurned
  cases hTurned with
  | late _ => cases hTurn
  | lost _ _ => cases hTurn
  | stale hTime hGrab hStale =>
      cases hTurn
      have hLater : 0 < n := by
        rcases Nat.eq_zero_or_pos n with hFirst | hLater
        · have hFresh := hSound.first _ _ _ _ hGrab
          rw [h.start hFirst, hFresh] at hStale
          cases hStale
        · exact hLater
      exact ⟨congrArg Nat.succ h.turn, fun hZero => absurd hZero (by omega), fun _ => h.compared hLater, h.failed⟩
  | matched _ _ _ _ => cases hTurn
  | @failed _ _ e hTime hGrab hFresh hSearch hCaught =>
      cases hTurn
      refine ⟨congrArg Nat.succ h.turn, fun hZero => absurd hZero (by omega), fun _ => by simp, ?_⟩
      intro outcome hOutcome
      rcases List.mem_append.mp hOutcome with hBefore | hLast
      · exact h.failed outcome hBefore
      · exact ⟨e, by simpa using hLast⟩
  | raised _ _ _ _ _ => cases hTurn

theorem backed_of_inTime {timeout : ℤ} {s t : σ} {last : Double} (hSound : m.Sound)
    (hPrepare : (prepare m a timeout).run s = .ok last t) (hTime : a.inTime last 0 = true) :
    Backed m a timeout s := by
  intro e c hEnds hClass
  simp only [MatchEnds, hPrepare] at hEnds
  obtain ⟨n, ⟨p, c'⟩, hStands, hLast⟩ := Loop.ends_iff.mp hEnds
  have hStanding : Standing m n (p, c') :=
    Loop.invariant (Standing m) ⟨rfl, fun _ => rfl, fun h => absurd h (by omega), by simp⟩
      (fun n w w' h hTurn => standing_succ hSound h hTurn) hStands
  have hTurned := turned m a last p c'
  unfold Loop.ofProgram at hLast
  dsimp only at hLast
  generalize (matchTurn m a last p).run c' = r at hLast hTurned
  cases hTurned with
  | late hLate =>
      cases hLast
      have hLater : n ≠ 0 := by
        rintro rfl
        have hFirst : p.turn = 0 := hStanding.turn
        rw [hFirst, hTime] at hLate
        cases hLate
      exact ⟨hStanding.compared (Nat.pos_of_ne_zero hLater), hStanding.failed⟩
  | lost hTime hGrab =>
      cases hLast
      exact absurd hClass (hSound.grab _ _ _ _ hGrab)
  | stale _ _ _ => cases hLast
  | matched _ _ _ _ => cases hLast
  | failed _ _ _ _ _ => cases hLast
  | raised hTime hGrab hFresh hSearch hNotCaught =>
      cases hLast
      rw [caught_of_imageNotFoundError hClass] at hNotCaught
      cases hNotCaught

/-- The verdict of a call whose first check is late. -/
theorem matchEnds_of_late {timeout : ℤ} {s t : σ} {last : Double}
    (hPrepare : (prepare m a timeout).run s = .ok last t) (hLate : a.inTime last 0 = false) :
    MatchEnds m a timeout s (.error { cls := .imageNotFoundError } { self := t }) := by
  have hRun : Loop.ofProgram (matchTurn m a last) (⟨0, m.unchecked, false⟩, { self := t }) =
      .inr (.error { cls := .imageNotFoundError } { self := t }) := by
    unfold Loop.ofProgram
    dsimp only
    rw [matchTurn_late hLate]
    rfl
  simp only [MatchEnds, hPrepare]
  exact Loop.ends_iff.mpr ⟨0, _, rfl, hRun⟩

theorem not_backed_of_late {timeout : ℤ} {s t : σ} {last : Double}
    (hPrepare : (prepare m a timeout).run s = .ok last t) (hLate : a.inTime last 0 = false) :
    ¬Backed m a timeout s := by
  intro hBacked
  exact (hBacked _ _ (matchEnds_of_late hPrepare hLate) rfl).1 rfl

/-- A verdict rests on a comparison just when the first check of the loop is in time. -/
theorem backed_iff {timeout : ℤ} {s : σ} (hSound : m.Sound) :
    Backed m a timeout s ↔
      ∀ last t, (prepare m a timeout).run s = .ok last t → a.inTime last 0 = true := by
  constructor
  · intro hBacked last t hPrepare
    by_contra hLate
    exact not_backed_of_late hPrepare (by simpa using hLate) hBacked
  · intro hTime
    cases hPrepare : (prepare m a timeout).run s with
    | ok last t => exact backed_of_inTime hSound hPrepare (hTime last t hPrepare)
    | error e t =>
        intro e' c hEnds hClass
        simp only [MatchEnds, hPrepare] at hEnds
        cases hEnds
        exact absurd hClass (throws_prepare hSound _ _ _ hPrepare)

end Backed

/-! ### The libraries -/

/-- No call but the search raises `ImageNotFoundError`. -/
def NoImageNotFound (raises : List (Option Exc)) : Prop :=
  ∀ e, some e ∈ raises → e.cls ≠ .imageNotFoundError

section Vnc

variable {F : Type} {answers : Vnc.Answers F} {timeout : ℤ} {screenshots : ℕ → Option Exc}

theorem Vnc.sound (hConnect : NoImageNotFound [answers.openConnection])
    (hCreate : ∀ e, answers.create = .error e → e.cls ≠ .imageNotFoundError)
    (hScreenshots : ∀ i, NoImageNotFound [screenshots i]) :
    (matcher timeout answers screenshots).Sound where
  first _ _ _ _ _ := rfl
  start := by
    refine throws_bind ?_ fun _ => throws_get_bind fun _ => throws_require (by simp)
    refine throws_get_bind fun _ => throws_when fun _ => ?_
    refine throws_bind (throws_outside fun e he => hConnect e (by simp [he.symm])) fun _ => ?_
    exact throws_bind (throws_compute hCreate) fun _ => throws_modify _
  grab i := by
    refine throws_outside fun e he => ?_
    split at he
    · cases he
      simp
    · exact hScreenshots i e (by simp [he.symm])

end Vnc

namespace Screencopy

open Wayland Wayland.ScreencopyTracker

variable {X : Type} {timeout : ℤ} {grabs : ℕ → Grabbing}

/-- What the calls of `grab_screenshot` raise. -/
def Grabbing.exceptions (g : Grabbing) : List (Option Exc) :=
  [g.connecting.display, g.connecting.getRegistry, g.connecting.roundtrip.raises, g.connecting.addWriter,
    g.connecting.connected.destroy, g.connecting.connected.captureOutput,
    g.connecting.connected.roundtrip.raises, g.connecting.connected.copy, g.connecting.connected.flush,
    g.closing.getFd, g.closing.roundtrip.raises, g.read, g.image]

theorem triple_waitForFrame (turns : List (Dispatching FrameEvent)) :
    Triple (fun _ : Watched X => True) (waitForFrame turns)
      (fun _ c => c.self.attributes.frameCount ≠ 0) fun _ => True := by
  induction turns with
  | nil =>
      refine triple_get_bind_eq fun c _ => triple_when (fun _ => triple_throw _ fun _ _ => trivial) ?_
      rintro hFrame c' rfl
      exact hFrame
  | cons turn rest ih =>
      refine triple_get_bind_eq fun c _ => triple_when (fun _ => ?_) ?_
      · exact triple_bind (triple_true _) fun _ => triple_bind (triple_true _) fun _ => ih
      · rintro hFrame c' rfl
        exact hFrame

/-- A frame that is grabbed was counted. -/
theorem triple_grabScreenshot (g : Grabbing) : Triple (fun _ : Watched X => True) (grabScreenshot g)
    (fun frameCount _ => frameCount ≠ 0) fun _ => True := by
  refine triple_bind (triple_true _) fun _ => triple_bind (triple_waitForFrame g.turns) fun _ => ?_
  refine triple_get_bind_of fun c _ => triple_require_bind (fun _ _ _ => trivial) fun _ => ?_
  refine triple_outside_bind (fun _ _ _ => trivial) fun _ => triple_get_bind_of fun c _ => ?_
  refine triple_after_modify (fun _ h => h) (triple_get_bind_of fun c _ => triple_get_bind_of fun c _ => ?_)
  refine triple_require_bind (fun _ _ _ => trivial) fun _ => ?_
  refine triple_outside_bind (fun _ _ _ => trivial) fun _ => triple_get_bind_of fun c hFrame => ?_
  exact triple_pure _ fun _ _ => hFrame

theorem throws_waitForFrame {P : Exc → Prop} (hTimeout : P { cls := .timeoutError })
    (turns : List (Dispatching FrameEvent)) : Throws P (waitForFrame turns : Method (Watched X) Unit) := by
  induction turns with
  | nil => exact throws_get_bind fun _ => throws_when fun _ => throws_throw hTimeout
  | cons turn rest ih =>
      refine throws_get_bind fun _ => throws_when fun _ => throws_bind (throws_modify _) fun _ => ?_
      exact throws_bind (throws_onSelf (Methods.throws_turn turn)) fun _ => ih

theorem throws_grabScreenshot {g : Grabbing} (h : NoImageNotFound g.exceptions) :
    Throws (fun e => e.cls ≠ .imageNotFoundError) (grabScreenshot g : Method (Watched X) ℕ) := by
  have hAnswer {raises : Option Exc} (hListed : raises ∈ g.exceptions) (e : Exc) (he : e ∈ raises) :
      e.cls ≠ .imageNotFoundError := by
    obtain rfl := he
    exact h e hListed
  have hConnect : Throws (fun e => e.cls ≠ .imageNotFoundError)
      (connect g.connecting g.closing : Method (Self X) Unit) := by
    refine throws_get_bind fun _ => throws_when fun _ => Methods.throws_connect (hAnswer ?_) (hAnswer ?_)
      (hAnswer ?_) (hAnswer ?_) ?_ (throws_get_bind fun _ => throws_when fun _ => ?_)
    · simp [Grabbing.exceptions]
    · simp [Grabbing.exceptions]
    · simp [Grabbing.exceptions]
    · simp [Grabbing.exceptions]
    · refine throws_copyFrame (fun _ => by simp) (hAnswer ?_) (hAnswer ?_) (hAnswer ?_) (hAnswer ?_) (hAnswer ?_)
      · simp [Grabbing.exceptions]
      · simp [Grabbing.exceptions]
      · simp [Grabbing.exceptions]
      · simp [Grabbing.exceptions]
      · simp [Grabbing.exceptions]
    · refine Methods.throws_disconnect (hAnswer ?_) (hAnswer ?_) (throws_modify _)
      · simp [Grabbing.exceptions]
      · simp [Grabbing.exceptions]
  refine throws_bind (throws_onSelf hConnect) fun _ => ?_
  refine throws_bind (throws_waitForFrame (by simp) g.turns) fun _ => throws_get_bind fun _ => ?_
  refine throws_bind (throws_require (by simp)) fun _ => ?_
  refine throws_bind (throws_outside (hAnswer (by simp [Grabbing.exceptions]))) fun _ => throws_get_bind fun _ => ?_
  refine throws_bind (throws_modify _) fun _ => throws_get_bind fun _ => throws_get_bind fun _ => ?_
  refine throws_bind (throws_require (by simp)) fun _ => ?_
  refine throws_bind (throws_outside (hAnswer (by simp [Grabbing.exceptions]))) fun _ => throws_get_bind fun _ => ?_
  exact throws_pure _

theorem sound (h : ∀ i, NoImageNotFound (grabs i).exceptions) :
    (matcher timeout grabs : Matcher (Watched X) ℕ).Sound where
  first i s k t hRun := by
    dsimp only [matcher, waitFor] at hRun
    split at hRun
    · cases hRun
    · have hFrame := (triple_grabScreenshot (grabs i)).of_ok trivial hRun
      exact decide_eq_true hFrame.symm
  start := throws_pure ()
  grab i := by
    refine throws_ite (fun _ => throws_bind (throws_modify _) fun _ => throws_throw (by simp)) fun _ => ?_
    exact throws_grabScreenshot (h i)

end Screencopy

/-- In either library a failure to find the template rests on a comparison just when the first
check of the loop is in time, unless the loop is not reached. -/
theorem match_backed_iff {X F : Type} (timeout : ℤ) (a : Matching) :
    (∀ (c : Wayland.ScreencopyTracker.Self X) (grabs : ℕ → Screencopy.Grabbing),
      (∀ i, NoImageNotFound (grabs i).exceptions) →
      (Backed (Screencopy.matcher timeout grabs) a timeout { self := c } ↔
        ∀ last, endTime a timeout = .ok last → a.inTime last 0 = true)) ∧
    ∀ (v : Vnc) (answers : Vnc.Answers F) (screenshots : ℕ → Option Exc),
      NoImageNotFound [answers.openConnection] →
      (∀ e, answers.create = .error e → e.cls ≠ .imageNotFoundError) →
      (∀ i, NoImageNotFound [screenshots i]) →
      (Backed (Vnc.matcher timeout answers screenshots) a timeout v ↔
        ∀ v' last, (Vnc.connect answers).run v = .ok () v' → endTime a timeout = .ok last →
          a.inTime last 0 = true) := by
  constructor
  · intro c grabs hRaises
    rw [backed_iff (Screencopy.sound hRaises)]
    constructor
    · intro h last hEnd
      exact h last { self := c } (run_bind_ok.mpr ⟨(), _, rfl, compute_run_ok.mpr ⟨hEnd, rfl⟩⟩)
    · intro h last t hPrepare
      obtain ⟨_, _, -, hCompute⟩ := run_bind_ok.mp hPrepare
      exact h last (compute_run_ok.mp hCompute).1
  · intro v answers screenshots hConnect hCreate hScreenshots
    rw [backed_iff (Vnc.sound hConnect hCreate hScreenshots)]
    constructor
    · intro h v' last hConnected hEnd
      have hRequired := Vnc.requireClient_run_of_client (Vnc.client_of_connect hConnected)
      exact h last v' (run_bind_ok.mpr ⟨(), v', run_bind_ok.mpr ⟨(), v', hConnected, hRequired⟩,
        compute_run_ok.mpr ⟨hEnd, rfl⟩⟩)
    · intro h last t hPrepare
      obtain ⟨_, _, hStart, hCompute⟩ := run_bind_ok.mp hPrepare
      obtain ⟨_, v', hConnected, -⟩ := run_bind_ok.mp hStart
      exact h v' last hConnected (compute_run_ok.mp hCompute).1

/-- The clock moves on before the first check, and the template is there to be found. -/
def overdue : Matching where
  clock reading := if reading = 0 then Double.round 0 else Double.round 1
  search _ := .ok [⟨0, 0, 10, 10⟩]

theorem match_overdue {σ K : Type} {m : Matcher σ K} {s t : σ} (hStart : m.start.run s = .ok () t) :
    MatchEnds m overdue 0 s (.error { cls := .imageNotFoundError } { self := t }) ∧
      ¬Backed m overdue 0 s := by
  have hEnd : endTime overdue 0 = .ok (Double.round 0) := by decide +kernel
  have hLate : overdue.inTime (Double.round 0) 0 = false := by decide +kernel
  have hPrepare : (prepare m overdue 0).run s = .ok (Double.round 0) t :=
    run_bind_ok.mpr ⟨(), t, hStart, compute_run_ok.mpr ⟨hEnd, rfl⟩⟩
  exact ⟨matchEnds_of_late hPrepare hLate, not_backed_of_late hPrepare hLate⟩

/-- A tracker that has counted a frame. -/
def tracking : Wayland.ScreencopyTracker.Self Unit where
  attributes := {
    shmData := some ⟨some 0, 1228800⟩
    frameCount := 1
    bufferWidth := 640
    bufferHeight := 480
    bufferSize := 1228800
    bufferStride := 2560
    extra := () }

/-- A call of `grab_screenshot` in which nothing raises and nothing happens. -/
def calm : Screencopy.Grabbing where
  connecting := { connected := {} }
  closing := {}

/-- Neither library looks at the screen when it is given no time. -/
theorem match_unbacked :
    (MatchEnds (Screencopy.matcher 0 fun _ => calm) overdue 0 { self := tracking }
        (.error { cls := .imageNotFoundError } { self := { self := tracking } }) ∧
      ¬Backed (Screencopy.matcher 0 fun _ => calm) overdue 0 { self := tracking }) ∧
    MatchEnds (Vnc.matcher 0 ({ create := .ok ⟨640, 480⟩ } : Vnc.Answers Double) fun _ => none) overdue 0
        { client := some { video := ⟨640, 480⟩ } }
        (.error { cls := .imageNotFoundError } { self := { client := some { video := ⟨640, 480⟩ } } }) ∧
      ¬Backed (Vnc.matcher 0 ({ create := .ok ⟨640, 480⟩ } : Vnc.Answers Double) fun _ => none) overdue 0
        { client := some { video := ⟨640, 480⟩ } } :=
  ⟨match_overdue rfl, match_overdue rfl⟩

/-- Given a second, and a clock that stands, both libraries do. -/
theorem match_backed_unhurried :
    Backed (Screencopy.matcher 1 fun _ => calm) { clock _ := Double.round 0, search _ := .ok [] } 1
        { self := tracking } ∧
      Backed (Vnc.matcher 1 ({ create := .ok ⟨640, 480⟩ } : Vnc.Answers Double) fun _ => none)
        { clock _ := Double.round 0, search _ := .ok [] } 1 {} := by
  have hEnd : endTime { clock _ := Double.round 0, search _ := .ok [] } 1 = .ok (Double.round 1) := by
    decide +kernel
  have hTime : Matching.inTime { clock _ := Double.round 0, search _ := .ok [] } (Double.round 1) 0 = true := by
    decide +kernel
  obtain ⟨hScreencopy, hVnc⟩ := match_backed_iff (X := Unit) (F := Double) 1
    { clock _ := Double.round 0, search _ := .ok [] }
  refine ⟨(hScreencopy tracking (fun _ => calm) ?_).mpr ?_, (hVnc {} _ (fun _ => none) ?_ ?_ ?_).mpr ?_⟩
  · simp [NoImageNotFound, Screencopy.Grabbing.exceptions, calm]
  · intro last hLast
    obtain rfl := Except.ok.inj (hEnd.symm.trans hLast)
    exact hTime
  · simp [NoImageNotFound]
  · simp
  · simp [NoImageNotFound]
  · intro v' last _ hLast
    obtain rfl := Except.ok.inj (hEnd.symm.trans hLast)
    exact hTime

end MirCi.Robot
