import MirCi.Python.Double
import MirCi.Python.Method
import MirCi.Semantics.Loop

/-! `match`, as both libraries have it: screenshots are compared with a template
until one matches or the time is up. -/
namespace MirCi.Robot

open Python Semantics Effect

/-- A region of a match, and the dictionary made of it. -/
structure Region where
  left : ℤ
  top : ℤ
  right : ℤ
  bottom : ℤ
  deriving DecidableEq, Repr

/-- What is a library's own in its `match`. A screenshot is known by the number
that decides whether it is compared. -/
structure Matcher (σ K : Type) where
  /-- Before the loop. -/
  start : Method σ Unit
  /-- The screenshot of a turn, within the timeout. -/
  grab : ℕ → Method σ K
  unchecked : K
  /-- Whether the screenshot is compared, given the last one that was. -/
  fresh : K → K → Bool

/-- The answers that both libraries get: the readings of the clock, what the search comes to
in a turn, and what logging a failed match raises. -/
structure Matching where
  clock : ℕ → Double
  search : ℕ → Except Exc (List Region)
  log : Option Exc := none

/-- A library in a call of `match`, and what the comparisons came to. -/
abbrev Compared (σ : Type) := Noted (Except Exc (List Region)) σ

/-- The local variables of the loop. -/
structure Progress (K : Type) where
  turn : ℕ := 0
  lastChecked : K
  screenshot : Bool := false

section Match

variable {σ K : Type}

/-- `except (RuntimeError, ValueError, ImageNotFoundError)`. -/
def caught (e : Exc) : Bool :=
  e.isa .runtimeError || e.isa .valueError || e.isa .imageNotFoundError

/-- `time.time() + float(timeout)`. -/
def endTime (a : Matching) (timeout : ℤ) : Except Exc Double := do
  return (a.clock 0).add (← Double.ofInt timeout)

/-- The check of a turn finds the end not passed. -/
def Matching.inTime (a : Matching) (last : Double) (turn : ℕ) : Bool := (a.clock (turn + 1)).atMost last

variable (m : Matcher σ K) (a : Matching)

/-- The search of a turn: a match ends the loop, what is caught goes on with it. -/
def compare (p : Progress K) (k : K) : Method (Compared σ) (Progress K ⊕ List Region) := do
  note (a.search p.turn)
  match a.search p.turn with
  | .ok regions => return .inr regions
  | .error e =>
      if caught e then return .inl ⟨p.turn + 1, k, true⟩
      else throw e

/-- One turn of the loop, or its `else`. -/
def matchTurn (last : Double) (p : Progress K) : Method (Compared σ) (Progress K ⊕ List Region) := do
  if a.inTime last p.turn then
    let k ← onSelf (m.grab p.turn)
    if m.fresh p.lastChecked k then compare a p k
    else return .inl { p with turn := p.turn + 1, screenshot := true }
  else
    when (p.screenshot = true) (outside a.log)
    throw { cls := .imageNotFoundError }

/-- What goes before the loop. -/
def prepare (timeout : ℤ) : Method σ Double := do
  m.start
  compute (endTime a timeout)

/-- `match` ends so. -/
def MatchEnds (timeout : ℤ) (s : σ) (r : EStateM.Result Exc (Compared σ) (List Region)) : Prop :=
  match (prepare m a timeout).run s with
  | .ok last t =>
      Loop.Ends (Loop.ofProgram (matchTurn m a last)) (⟨0, m.unchecked, false⟩, { self := t }) r
  | .error e t => r = .error e { self := t }

end Match

/-- There is one way in which a call of `match` ends, if any. -/
theorem MatchEnds.unique {σ K : Type} {m : Matcher σ K} {a : Matching} {timeout : ℤ} {s : σ}
    {r r' : EStateM.Result Exc (Compared σ) (List Region)} (h : MatchEnds m a timeout s r)
    (h' : MatchEnds m a timeout s r') : r = r' := by
  unfold MatchEnds at h h'
  cases hPrepare : (prepare m a timeout).run s with
  | ok last t =>
      rw [hPrepare] at h h'
      exact Loop.Ends.unique h h'
  | error e t =>
      rw [hPrepare] at h h'
      exact h.trans h'.symm

/-! ### What one turn does -/

section Turn

variable {σ K : Type} {m : Matcher σ K} {a : Matching} {last : Double} {p : Progress K}
  {c : Compared σ} {s : σ} {k : K}

/-- Past the end the failure is logged and raised. -/
theorem matchTurn_late (h : a.inTime last p.turn = false) :
    (matchTurn m a last p).run c = .error (if p.screenshot = true then
      a.log.getD { cls := .imageNotFoundError } else { cls := .imageNotFoundError }) c := by
  unfold matchTurn
  rw [if_neg (by simp [h])]
  by_cases hSeen : p.screenshot = true
  · rw [if_pos hSeen, when, if_pos hSeen]
    cases a.log <;> rfl
  · rw [if_neg hSeen, when, if_neg hSeen]
    rfl

theorem matchTurn_lost {e : Exc} (hTime : a.inTime last p.turn = true)
    (h : (m.grab p.turn).run c.self = .error e s) :
    (matchTurn m a last p).run c = .error e { c with self := s } := by
  unfold matchTurn
  rw [if_pos hTime]
  exact run_bind_error.mpr (Or.inl (onSelf_run_error h))

/-- A screenshot that was compared before is passed over. -/
theorem matchTurn_stale (hTime : a.inTime last p.turn = true)
    (h : (m.grab p.turn).run c.self = .ok k s) (hStale : m.fresh p.lastChecked k = false) :
    (matchTurn m a last p).run c =
      .ok (.inl ⟨p.turn + 1, p.lastChecked, true⟩) { c with self := s } := by
  unfold matchTurn
  rw [if_pos hTime]
  refine run_bind_ok.mpr ⟨k, _, onSelf_run_ok h, ?_⟩
  rw [if_neg (by simp [hStale])]
  rfl

theorem matchTurn_fresh (hTime : a.inTime last p.turn = true)
    (h : (m.grab p.turn).run c.self = .ok k s) (hFresh : m.fresh p.lastChecked k = true) :
    (matchTurn m a last p).run c = (compare a p k).run { c with self := s } := by
  unfold matchTurn
  rw [if_pos hTime, EStateM.run_bind, onSelf_run_ok h]
  dsimp only
  rw [if_pos hFresh]

theorem compare_matched {regions : List Region} (h : a.search p.turn = .ok regions) :
    (compare a p k).run c = .ok (.inr regions) { c with notes := c.notes ++ [.ok regions] } := by
  unfold compare
  rw [h]
  rfl

theorem compare_failed {e : Exc} (h : a.search p.turn = .error e) (hCaught : caught e = true) :
    (compare a p k).run c =
      .ok (.inl ⟨p.turn + 1, k, true⟩) { c with notes := c.notes ++ [.error e] } := by
  unfold compare
  rw [h]
  dsimp only
  rw [if_pos hCaught]
  rfl

theorem compare_raised {e : Exc} (h : a.search p.turn = .error e) (hCaught : caught e = false) :
    (compare a p k).run c = .error e { c with notes := c.notes ++ [.error e] } := by
  unfold compare
  rw [h]
  dsimp only
  rw [if_neg (by simp [hCaught])]
  rfl

variable (m a last p c) in
/-- What a turn comes to, and why. -/
inductive Turned : EStateM.Result Exc (Compared σ) (Progress K ⊕ List Region) → Prop where
  | late (hTime : a.inTime last p.turn = false) : Turned (.error (if p.screenshot = true then
      a.log.getD { cls := .imageNotFoundError } else { cls := .imageNotFoundError }) c)
  | lost {e : Exc} {s : σ} (hTime : a.inTime last p.turn = true)
      (hGrab : (m.grab p.turn).run c.self = .error e s) : Turned (.error e { c with self := s })
  | stale {k : K} {s : σ} (hTime : a.inTime last p.turn = true)
      (hGrab : (m.grab p.turn).run c.self = .ok k s) (hStale : m.fresh p.lastChecked k = false) :
      Turned (.ok (.inl ⟨p.turn + 1, p.lastChecked, true⟩) { c with self := s })
  | matched {k : K} {s : σ} {regions : List Region} (hTime : a.inTime last p.turn = true)
      (hGrab : (m.grab p.turn).run c.self = .ok k s) (hFresh : m.fresh p.lastChecked k = true)
      (hSearch : a.search p.turn = .ok regions) :
      Turned (.ok (.inr regions) ⟨s, c.notes ++ [.ok regions]⟩)
  | failed {k : K} {s : σ} {e : Exc} (hTime : a.inTime last p.turn = true)
      (hGrab : (m.grab p.turn).run c.self = .ok k s) (hFresh : m.fresh p.lastChecked k = true)
      (hSearch : a.search p.turn = .error e) (hCaught : caught e = true) :
      Turned (.ok (.inl ⟨p.turn + 1, k, true⟩) ⟨s, c.notes ++ [.error e]⟩)
  | raised {k : K} {s : σ} {e : Exc} (hTime : a.inTime last p.turn = true)
      (hGrab : (m.grab p.turn).run c.self = .ok k s) (hFresh : m.fresh p.lastChecked k = true)
      (hSearch : a.search p.turn = .error e) (hCaught : caught e = false) :
      Turned (.error e ⟨s, c.notes ++ [.error e]⟩)

variable (m a last p c) in
theorem turned : Turned m a last p c ((matchTurn m a last p).run c) := by
  cases hTime : a.inTime last p.turn with
  | false =>
      rw [matchTurn_late hTime]
      exact .late hTime
  | true =>
      cases hGrab : (m.grab p.turn).run c.self with
      | error e s =>
          rw [matchTurn_lost hTime hGrab]
          exact .lost hTime hGrab
      | ok k s =>
          cases hFresh : m.fresh p.lastChecked k with
          | false =>
              rw [matchTurn_stale hTime hGrab hFresh]
              exact .stale hTime hGrab hFresh
          | true =>
              rw [matchTurn_fresh hTime hGrab hFresh]
              cases hSearch : a.search p.turn with
              | ok regions =>
                  rw [compare_matched hSearch]
                  exact .matched hTime hGrab hFresh hSearch
              | error e =>
                  cases hCaught : caught e with
                  | true =>
                      rw [compare_failed hSearch hCaught]
                      exact .failed hTime hGrab hFresh hSearch hCaught
                  | false =>
                      rw [compare_raised hSearch hCaught]
                      exact .raised hTime hGrab hFresh hSearch hCaught

variable (m a last p c) in
/-- Nothing but grabbing a screenshot changes the library. -/
theorem self_matchTurn : (a.inTime last p.turn = false ∧
      (state ((matchTurn m a last p).run c)).self = c.self) ∨
    a.inTime last p.turn = true ∧
      (state ((matchTurn m a last p).run c)).self = state ((m.grab p.turn).run c.self) := by
  have hTurned := turned m a last p c
  generalize (matchTurn m a last p).run c = r at hTurned
  cases hTurned with
  | late hTime => exact Or.inl ⟨hTime, rfl⟩
  | lost hTime hGrab => exact Or.inr ⟨hTime, by rw [hGrab]; rfl⟩
  | stale hTime hGrab _ => exact Or.inr ⟨hTime, by rw [hGrab]; rfl⟩
  | matched hTime hGrab _ _ => exact Or.inr ⟨hTime, by rw [hGrab]; rfl⟩
  | failed hTime hGrab _ _ _ => exact Or.inr ⟨hTime, by rw [hGrab]; rfl⟩
  | raised hTime hGrab _ _ _ => exact Or.inr ⟨hTime, by rw [hGrab]; rfl⟩

end Turn

end MirCi.Robot
