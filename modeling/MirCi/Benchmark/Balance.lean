import MirCi.Benchmark.Benchmarker
import MirCi.Semantics.Balance

/-! Enters and exits of the programs over any use of a `Benchmarker`.
`running_programs` is never cleared: after an `__aenter__` that failed, and after
a run that ended, it still lists programs that have been exited. -/
namespace MirCi.Benchmark

open Python Semantics

variable {P : Type}

/-- A call as a mark in the log of its program. An `__aenter__` that raised did
not enter. -/
def Call.mark : Call P → Option (P × Mark)
  | .aenter program none => some (program, .enter)
  | .aenter _ (some _) => none
  | .aexit program _ => some (program, .exit)

def State.log (s : State P) : List (P × Mark) := s.calls.filterMap Call.mark

/-- The last call was an `__aexit__` that ended a run or an `__aenter__` that
raised. -/
def State.Closing (s : State P) : Prop :=
  match s.outcome with
  | some (.aexit true _) | some (.aenter _ (some _)) => True
  | _ => False

/-- Programs raise an `Exception` from `__aenter__` if at all, and their exits
do not raise. -/
def Legal (_ : State P) : Action P → Prop
  | .aenter raises unwinding =>
      (∀ n e, raises n = some e → e.isa .exception = true) ∧ ∀ n, unwinding n = none
  | .aexit raises => ∀ n, raises n = none
  | .poll _ => True

theorem enterCalls_marks (raises : Raises) (items : List (String × P)) :
    (enterCalls raises items).filterMap Call.mark =
      marked .enter ((enteredBy raises items).map Prod.snd) := by
  induction items generalizing raises with
  | nil => rfl
  | cons item rest ih =>
      simp only [enterCalls, enteredBy]
      cases hFirst : raises 0 with
      | some e => simp [Call.mark, marked]
      | none => simp [Call.mark, marked, ih]

theorem exitCalls_marks (programs : List P) :
    (programs.map fun program => Call.aexit program none).filterMap Call.mark =
      marked .exit programs := by
  rw [List.filterMap_map, marked, ← List.filterMap_eq_map]
  rfl

/-- The programs a started `__aenter__` enters. -/
def State.entering (s : State P) (raises : Raises) : List P :=
  (enteredBy raises s.programs.items).map Prod.snd

/-- A started `__aenter__` all of whose programs enter. -/
theorem State.aenter_succeeds {s : State P} {raises : Raises} (unwinding : Raises)
    (hIdle : s.running = false) (hNone : enterFailure raises s.programs.items = none) :
    (s.aenter raises unwinding).log = s.log ++ marked .enter (s.entering raises) ∧
      (s.aenter raises unwinding).running = true ∧
      (s.aenter raises unwinding).runningPrograms = (s.entering raises).reverse ++ s.runningPrograms ∧
      (s.aenter raises unwinding).programs = s.programs ∧
      (s.aenter raises unwinding).outcome = some (.aenter true none) := by
  simp [State.aenter, hIdle, enterAll_eq, hNone, State.log, enterCalls_marks, State.entering]

/-- A started `__aenter__` that fails exits everything on `running_programs`. -/
theorem State.aenter_fails {s : State P} {raises unwinding : Raises}
    (hLegal : Legal s (.aenter raises unwinding)) (hIdle : s.running = false) {e : Exc}
    (hSome : enterFailure raises s.programs.items = some e) :
    (s.aenter raises unwinding).log = s.log ++ marked .enter (s.entering raises) ++
        marked .exit ((s.entering raises).reverse ++ s.runningPrograms) ∧
      (s.aenter raises unwinding).running = true ∧
      (s.aenter raises unwinding).runningPrograms = (s.entering raises).reverse ++ s.runningPrograms ∧
      (s.aenter raises unwinding).programs = s.programs ∧
      (s.aenter raises unwinding).outcome = some (.aenter true (some e)) := by
  obtain ⟨n, hn⟩ := enterFailure_raised hSome
  have hException := hLegal.1 n e hn
  have hUnwind := unwindAll_of_quiet hLegal.2 ((s.entering raises).reverse ++ s.runningPrograms)
  have hMarks := exitCalls_marks ((s.entering raises).reverse ++ s.runningPrograms)
  simp only [State.entering] at hUnwind hMarks ⊢
  simp only [State.aenter, hIdle, Bool.false_eq_true, if_false, enterAll_eq, hSome, hException,
    if_true, hUnwind, State.log, List.filterMap_append, enterCalls_marks, hMarks]
  simp

/-- An `__aexit__` that ends a run exits everything on `running_programs`. -/
theorem State.aexit_ends {s : State P} {raises : Raises} (hLegal : Legal s (.aexit raises))
    (hRunning : s.running = true) :
    (s.aexit raises).log = s.log ++ marked .exit s.runningPrograms ∧
      (s.aexit raises).running = false ∧
      (s.aexit raises).programs = s.programs ∧
      ∃ raised, (s.aexit raises).outcome = some (.aexit true raised) := by
  have hMarks := exitCalls_marks s.runningPrograms
  simp only [State.aexit, hRunning, if_true, exitAll_of_quiet hLegal s.runningPrograms, State.log,
    List.filterMap_append, hMarks]
  simp

/-- The list is not cleared. -/
theorem State.aexit_listed {s : State P} {raises : Raises} (hLegal : Legal s (.aexit raises))
    (hRunning : s.running = true) : (s.aexit raises).runningPrograms = s.runningPrograms := by
  simp only [State.aexit, hRunning, if_true, exitAll_of_quiet hLegal s.runningPrograms]

theorem State.poll_frame (s : State P) (reads : String → CgroupReads) :
    (s.poll reads).log = s.log ∧ (s.poll reads).running = s.running ∧
      (s.poll reads).runningPrograms = s.runningPrograms ∧
      (s.poll reads).programs = s.programs ∧ (s.poll reads).outcome = s.outcome := by
  unfold State.poll
  split
  · split <;> exact ⟨rfl, rfl, rfl, rfl, rfl⟩
  · exact ⟨rfl, rfl, rfl, rfl, rfl⟩

variable [DecidableEq P]

/-- Enters and exits alternate, and nothing is open where nothing should be. -/
structure Balanced (s : State P) : Prop where
  alternates : Alternates s.log
  closed : s.Closing → ∀ program, ¬Open program s.log

/-- When a call keeps the balance. A run enters each program object once, and if
that fails no earlier run left programs listed; what an ending run exits is
listed once and open. -/
def Paired (s : State P) : Action P → Prop
  | .aenter raises _ =>
      s.running = false → (s.entering raises).Nodup ∧
        ((enterFailure raises s.programs.items).isSome → s.runningPrograms = [])
  | .aexit _ =>
      s.running = true → s.runningPrograms.Nodup ∧ ∀ program ∈ s.runningPrograms, Open program s.log
  | .poll _ => True

/-- Whatever is open was entered by the current run. -/
structure Kept (s : State P) : Prop where
  balanced : Balanced s
  listed : ∀ program, Open program s.log → s.running = true ∧ program ∈ s.runningPrograms

theorem Kept.idle {s : State P} (h : Kept s) (hIdle : s.running = false) (program : P) :
    ¬Open program s.log := by
  intro hOpen
  have hRunning := (h.listed program hOpen).1
  rw [hIdle] at hRunning
  cases hRunning

/-- The log a failed `__aenter__` leaves alternates only if nothing was listed
before it, and then closes everything it opened. -/
theorem alternates_unwound {entered listed : List P} {log : List (P × Mark)}
    (hAlternates : Alternates log) (hClosed : ∀ program, ¬Open program log) :
    Alternates (log ++ marked .enter entered ++ marked .exit (entered.reverse ++ listed)) ↔
      entered.Nodup ∧ listed = [] := by
  rw [alternates_marked, alternates_marked]
  simp only [open_marked, reduceCtorEq, iff_false, iff_true]
  constructor
  · rintro ⟨⟨-, hNodup, -⟩, hExits, hOpen⟩
    refine ⟨hNodup, List.eq_nil_iff_forall_not_mem.mpr fun program hListed => ?_⟩
    have hProgram := hOpen program (List.mem_append_right _ hListed)
    split at hProgram
    · rename_i hEntered
      have hDisjoint := (List.nodup_append.mp hExits).2.2
      exact hDisjoint program (List.mem_reverse.mpr hEntered) program hListed rfl
    · exact hClosed program hProgram
  · rintro ⟨hNodup, rfl⟩
    refine ⟨⟨hAlternates, hNodup, fun program _ => hClosed program⟩, by simpa using hNodup, ?_⟩
    intro program hMem
    have hEntered : program ∈ entered := by simpa using hMem
    simp [hEntered]

/-- A call that was refused, and so left everything but the outcome alone. -/
theorem Kept.ignored {s : State P} (h : Kept s) {outcome : Outcome}
    (hOpening : ¬{ s with outcome := some outcome }.Closing) :
    Kept { s with outcome := some outcome } :=
  ⟨⟨h.balanced.alternates, fun hClosing => absurd hClosing hOpening⟩, h.listed⟩

/-- A call after which no program is open. -/
theorem Kept.of_closed {s : State P} (hAlternates : Alternates s.log)
    (hClosed : ∀ program, ¬Open program s.log) : Kept s :=
  ⟨⟨hAlternates, fun _ => hClosed⟩, fun program hOpen => absurd hOpen (hClosed program)⟩

theorem Kept.aenter {s : State P} {raises unwinding : Raises} (h : Kept s)
    (hLegal : Legal s (.aenter raises unwinding)) (hPaired : Paired s (.aenter raises unwinding)) :
    Kept (s.aenter raises unwinding) := by
  cases hRunning : s.running with
  | true =>
      rw [State.aenter_of_running raises unwinding hRunning]
      exact h.ignored (by simp [State.Closing])
  | false =>
      obtain ⟨hNodup, hFresh⟩ := hPaired hRunning
      have hClosed := h.idle hRunning
      cases hFailure : enterFailure raises s.programs.items with
      | none =>
          obtain ⟨hLog, hNow, hListed, -, hOutcome⟩ :=
            s.aenter_succeeds unwinding hRunning hFailure
          refine ⟨⟨?_, ?_⟩, ?_⟩
          · rw [hLog, alternates_marked]
            exact ⟨h.balanced.alternates, hNodup, by simpa using fun program _ => hClosed program⟩
          · simp [State.Closing, hOutcome]
          · intro program hOpen
            rw [hLog, open_marked] at hOpen
            split at hOpen
            · rename_i hEntered
              simp [hNow, hListed, hEntered]
            · exact absurd hOpen (hClosed program)
      | some e =>
          obtain ⟨hLog, -, -, -, -⟩ := s.aenter_fails hLegal hRunning hFailure
          have hEmpty := hFresh (by simp [hFailure])
          refine .of_closed ?_ fun program hOpen => ?_
          · rw [hLog, alternates_unwound h.balanced.alternates hClosed]
            exact ⟨hNodup, hEmpty⟩
          · rw [hLog, open_marked, open_marked] at hOpen
            split at hOpen
            · cases hOpen
            · rename_i hOut
              rw [if_neg (by simpa [hEmpty] using hOut)] at hOpen
              exact hClosed program hOpen

theorem Kept.aexit {s : State P} {raises : Raises} (h : Kept s)
    (hLegal : Legal s (.aexit raises)) (hPaired : Paired s (.aexit raises)) :
    Kept (s.aexit raises) := by
  cases hRunning : s.running with
  | false =>
      rw [State.aexit_of_idle raises hRunning]
      exact h.ignored (by simp [State.Closing])
  | true =>
      obtain ⟨hNodup, hOpen⟩ := hPaired hRunning
      obtain ⟨hLog, -, -, -⟩ := s.aexit_ends hLegal hRunning
      refine .of_closed ?_ fun program hStill => ?_
      · rw [hLog, alternates_marked]
        exact ⟨h.balanced.alternates, hNodup, by simpa using hOpen⟩
      · rw [hLog, open_marked] at hStill
        split at hStill
        · cases hStill
        · rename_i hOut
          exact hOut (h.listed program hStill).2

theorem Kept.poll {s : State P} (h : Kept s) (reads : String → CgroupReads) :
    Kept (s.poll reads) := by
  obtain ⟨hLog, hRunning, hListed, -, hOutcome⟩ := s.poll_frame reads
  refine ⟨⟨?_, ?_⟩, ?_⟩
  · rw [hLog]
    exact h.balanced.alternates
  · rw [State.Closing, hOutcome, hLog]
    exact h.balanced.closed
  · rw [hLog, hRunning, hListed]
    exact h.listed

/-- A paired call keeps the balance. -/
theorem Kept.step {s t : State P} {a : Action P} (h : Kept s) (hLegal : Legal s a)
    (hPaired : Paired s a) (hStep : step s a = some t) : Kept t := by
  cases a with
  | aenter raises unwinding =>
      obtain rfl := Option.some.inj hStep
      exact h.aenter hLegal hPaired
  | aexit raises =>
      obtain rfl := Option.some.inj hStep
      exact h.aexit hLegal hPaired
  | poll reads =>
      simp only [Benchmark.step] at hStep
      split at hStep <;> cases hStep
      exact h.poll reads

/-- A call that is not paired breaks the alternation. -/
theorem Kept.paired {s t : State P} {a : Action P} (h : Kept s) (hLegal : Legal s a)
    (hStep : Benchmark.step s a = some t) (hAlternates : Alternates t.log) : Paired s a := by
  cases a with
  | aenter raises unwinding =>
      obtain rfl := Option.some.inj hStep
      intro hIdle
      cases hFailure : enterFailure raises s.programs.items with
      | none =>
          obtain ⟨hLog, -⟩ := s.aenter_succeeds unwinding hIdle hFailure
          rw [hLog, alternates_marked] at hAlternates
          exact ⟨hAlternates.2.1, by simp⟩
      | some e =>
          obtain ⟨hLog, -⟩ := s.aenter_fails hLegal hIdle hFailure
          rw [hLog, alternates_unwound h.balanced.alternates (h.idle hIdle)] at hAlternates
          exact ⟨hAlternates.1, fun _ => hAlternates.2⟩
  | aexit raises =>
      obtain rfl := Option.some.inj hStep
      intro hRunning
      obtain ⟨hLog, -⟩ := s.aexit_ends hLegal hRunning
      rw [hLog, alternates_marked] at hAlternates
      exact ⟨hAlternates.2.1, by simpa using hAlternates.2.2⟩
  | poll reads => trivial

theorem kept_fresh (programs : Dict String P) : Kept (fresh programs) := by
  have hLog : (fresh programs).log = [] := rfl
  refine .of_closed ?_ fun program => ?_
  · rw [hLog]
    exact alternates_nil
  · rw [hLog]
    exact not_open_nil program

/-- A run through paired calls keeps the balance. -/
theorem Kept.run {programs : Dict String P} {actions : List (Action P)} {s : State P}
    (hLegal : Runs Benchmark.step Legal (fresh programs) actions s)
    (hPaired : Runs Benchmark.step Paired (fresh programs) actions s) : Kept s := by
  induction hLegal with
  | nil => exact kept_fresh programs
  | snoc prior admitted last ih =>
      obtain ⟨t, hPrior, hLast, -⟩ := hPaired.snoc_inv
      obtain rfl := prior.unique hPrior
      exact (ih hPrior).step admitted hLast last

/-- The balance holds in every state of a run exactly when each of its calls was
paired in the state it started from. -/
theorem always_balanced_iff (programs : Dict String P) (actions : List (Action P)) (s : State P)
    (hRun : Runs step Legal (fresh programs) actions s) :
    (∀ done t, done <+: actions → Runs step Any (fresh programs) done t → Balanced t) ↔
      Runs step Paired (fresh programs) actions s := by
  constructor
  · intro hAlways
    induction hRun with
    | nil => exact .nil _
    | @snoc t u earlier a prior admitted last ih =>
        have hPrior := ih fun done t hDone => hAlways done t (hDone.trans (List.prefix_append _ _))
        have hKept := Kept.run prior hPrior
        have hAny : Runs step Any (fresh programs) (earlier ++ [a]) u :=
          (Runs.snoc prior admitted last).mono fun _ _ _ => trivial
        have hBalanced := hAlways (earlier ++ [a]) u (List.prefix_refl _) hAny
        exact .snoc hPrior (hKept.paired admitted last hBalanced.alternates) last
  · intro hPaired done t hDone hReached
    obtain ⟨rest, rfl⟩ := hDone
    obtain ⟨u, hLegal, -⟩ := hRun.split
    obtain ⟨v, hGood, -⟩ := hPaired.split
    obtain rfl := hLegal.unique hGood
    obtain rfl := hReached.unique hLegal
    exact (Kept.run hLegal hGood).balanced

/-! ### The calls that keep the balance

Which runs of the benchmarker there were can be read off the calls, and so can what each of them
entered: the state of the object is not needed to say when its bookkeeping is right. -/

/-- One run of the benchmarker: what the `__aenter__`s of the programs raised, and whether an
`__aexit__` has ended it. A run whose `__aenter__` raised is under way like any other. -/
structure BenchmarkRun where
  raises : Raises
  ended : Bool := false

/-- The programs the run enters, which are those before the first that raises. -/
def BenchmarkRun.entered (run : BenchmarkRun) (programs : Dict String P) : List P :=
  (enteredBy run.raises programs.items).map Prod.snd

/-- A program of the run raised from its `__aenter__`. -/
def BenchmarkRun.Failed (run : BenchmarkRun) (programs : Dict String P) : Prop :=
  (enterFailure run.raises programs.items).isSome

instance (run : BenchmarkRun) (programs : Dict String P) : Decidable (run.Failed programs) :=
  inferInstanceAs (Decidable (_ = true))

/-- What a call makes of the runs so far, newest first. An `__aenter__` starts a run when none is
under way, an `__aexit__` ends the one that is, and nothing else counts. -/
def noteCall (runs : List BenchmarkRun) : Action P → List BenchmarkRun
  | .aenter raises _ => if runs.head?.any (!·.ended) then runs else { raises } :: runs
  | .aexit _ => runs.modifyHead fun run => { run with ended := true }
  | .poll _ => runs

def benchmarkRuns (actions : List (Action P)) : List BenchmarkRun := actions.foldl noteCall []

/-- Every run enters pairwise distinct program objects; one that fails or is ended comes after no
run that entered a program; and one that failed after it had entered a program is not ended. -/
def Fit (programs : Dict String P) : List BenchmarkRun → Prop
  | [] => True
  | run :: earlier =>
      Fit programs earlier ∧ (run.entered programs).Nodup ∧
        (run.Failed programs ∨ run.ended = true → ∀ other ∈ earlier, other.entered programs = []) ∧
        (run.Failed programs → run.ended = true → run.entered programs = [])

/-- What the runs tell about the object. The programs that are open are those of a run under way
all of whose programs entered. -/
structure Recounted (programs : Dict String P) (runs : List BenchmarkRun) (s : State P) : Prop where
  ofPrograms : s.programs = programs
  running : s.running = runs.head?.any (!·.ended)
  listed : s.runningPrograms = runs.flatMap fun run => (run.entered programs).reverse
  opened : ∀ program, Open program s.log ↔
    ∃ run ∈ runs.head?, run.ended = false ∧ ¬run.Failed programs ∧ program ∈ run.entered programs

section Runs

variable {programs : Dict String P} {runs : List BenchmarkRun} {s t : State P} {a : Action P}

omit [DecidableEq P] in
theorem Fit.of_noteCall (h : Fit programs (noteCall runs a)) : Fit programs runs := by
  cases a with
  | aenter raises unwinding =>
      simp only [noteCall] at h
      split at h
      · exact h
      · exact h.1
  | aexit raises =>
      cases runs with
      | nil => exact h
      | cons run earlier =>
          obtain ⟨hEarlier, hNodup, hFirst, hFailed⟩ := h
          exact ⟨hEarlier, hNodup, fun _ => hFirst (.inr rfl), fun hNow _ => hFailed hNow rfl⟩
  | poll reads => exact h

theorem Recounted.listed_eq_nil (h : Recounted programs runs s) :
    s.runningPrograms = [] ↔ ∀ run ∈ runs, run.entered programs = [] := by
  simp [h.listed, List.flatMap_eq_nil_iff]

/-- The run that is under way. -/
theorem Recounted.under_way (h : Recounted programs runs s) (hRunning : s.running = true) :
    ∃ run earlier, runs = run :: earlier ∧ run.ended = false := by
  have hHead := h.running
  rw [hRunning] at hHead
  cases runs with
  | nil => cases hHead
  | cons run earlier => exact ⟨run, earlier, rfl, by simpa using hHead.symm⟩

/-- A call that comes too early or too late starts and ends no run. -/
theorem noteCall_ignored (h : Recounted programs runs s)
    (hEnds : ∀ raises, a = .aexit raises → s.running = false)
    (hStarts : ∀ raises unwinding, a = .aenter raises unwinding → s.running = true) :
    noteCall runs a = runs := by
  cases a with
  | aenter raises unwinding => rw [noteCall, ← h.running, hStarts raises unwinding rfl, if_pos rfl]
  | aexit raises =>
      have hIdle := h.running.symm.trans (hEnds raises rfl)
      cases runs with
      | nil => rfl
      | cons run earlier =>
          have hEnded : run.ended = true := by simpa using hIdle
          simp [noteCall, ← hEnded]
  | poll reads => rfl

/-- An `__aexit__` of a run under way finds just what it exits open, once each, unless an earlier run left
programs listed or this one failed. -/
theorem Recounted.exits_iff {run : BenchmarkRun} {earlier : List BenchmarkRun}
    (h : Recounted programs (run :: earlier) s) (hGoing : run.ended = false) (hNodup : (run.entered programs).Nodup) :
    (s.runningPrograms.Nodup ∧ ∀ program ∈ s.runningPrograms, Open program s.log) ↔
      (∀ other ∈ earlier, other.entered programs = []) ∧ (run.Failed programs → run.entered programs = []) := by
  have hListed : s.runningPrograms = (run.entered programs).reverse ++
      earlier.flatMap fun other => (other.entered programs).reverse := h.listed
  have hOpened (program : P) : Open program s.log ↔ ¬run.Failed programs ∧ program ∈ run.entered programs := by
    simp [h.opened, hGoing]
  have hStale : (earlier.flatMap fun other => (other.entered programs).reverse) = [] ↔
      ∀ other ∈ earlier, other.entered programs = [] := by
    simp [List.flatMap_eq_nil_iff]
  rw [hListed]
  constructor
  · rintro ⟨hDistinct, hAll⟩
    obtain ⟨-, -, hApart⟩ := List.nodup_append.mp hDistinct
    refine ⟨hStale.mp (List.eq_nil_iff_forall_not_mem.mpr fun program hMem => ?_),
      fun hFailed => List.eq_nil_iff_forall_not_mem.mpr fun program hMem => ?_⟩
    · have hEntered := ((hOpened program).mp (hAll program (List.mem_append_right _ hMem))).2
      exact hApart program (List.mem_reverse.mpr hEntered) program hMem rfl
    · have hIs := hAll program (List.mem_append_left _ (List.mem_reverse.mpr hMem))
      exact ((hOpened program).mp hIs).1 hFailed
  · rintro ⟨hNone, hFailed⟩
    rw [hStale.mpr hNone, List.append_nil]
    refine ⟨List.nodup_reverse.mpr hNodup, fun program hMem => (hOpened program).mpr ⟨fun hNow => ?_, ?_⟩⟩
    · rw [hFailed hNow] at hMem
      cases hMem
    · exact List.mem_reverse.mp hMem

/-- A call is paired just when the runs stay fit. -/
theorem Recounted.paired_iff (h : Recounted programs runs s) (hFit : Fit programs runs) :
    Paired s a ↔ Fit programs (noteCall runs a) := by
  cases a with
  | aenter raises unwinding =>
      cases hRunning : s.running with
      | true =>
          rw [noteCall, ← h.running, hRunning, if_pos rfl]
          exact iff_of_true (fun hIdle => by cases hRunning.symm.trans hIdle) hFit
      | false =>
          rw [noteCall, ← h.running, hRunning, if_neg Bool.false_ne_true]
          simp only [Paired, hRunning, forall_const, Fit, hFit, true_and, Bool.false_eq_true, or_false,
            false_implies, implies_true, and_true, h.listed_eq_nil, BenchmarkRun.Failed,
            BenchmarkRun.entered, State.entering, h.ofPrograms]
  | aexit raises =>
      cases hRunning : s.running with
      | false =>
          rw [noteCall_ignored h (fun _ _ => hRunning) fun _ _ hEq => by cases hEq]
          exact iff_of_true (fun hNow => by cases hRunning.symm.trans hNow) hFit
      | true =>
          obtain ⟨run, earlier, rfl, hGoing⟩ := h.under_way hRunning
          obtain ⟨hEarlier, hNodup, -, -⟩ := hFit
          simp only [Paired, hRunning, forall_const, h.exits_iff hGoing hNodup, noteCall, List.modifyHead_cons,
            Fit, or_true]
          exact ⟨fun hExits => ⟨hEarlier, hNodup, hExits.1, hExits.2⟩, fun hNow => ⟨hNow.2.2.1, hNow.2.2.2⟩⟩
  | poll reads => exact iff_of_true trivial hFit

theorem recounted_fresh (programs : Dict String P) : Recounted programs [] (fresh programs) where
  ofPrograms := rfl
  running := rfl
  listed := rfl
  opened program := iff_of_false (not_open_nil program) (by simp)

/-- A refused call leaves what the runs tell. -/
theorem Recounted.ignored (h : Recounted programs runs s) {outcome : Outcome} :
    Recounted programs runs { s with outcome := some outcome } :=
  ⟨h.ofPrograms, h.running, h.listed, h.opened⟩

/-- An `__aenter__` begins a run. If it fails, it closes what it opened and leaves it listed. -/
theorem Recounted.aenter {raises unwinding : Raises} (h : Recounted programs runs s) (hKept : Kept s)
    (hLegal : Legal s (.aenter raises unwinding)) :
    Recounted programs (noteCall runs (.aenter raises unwinding : Action P)) (s.aenter raises unwinding) := by
  cases hRunning : s.running with
  | true =>
      rw [noteCall_ignored h (fun _ hEq => by cases hEq) fun _ _ _ => hRunning,
        State.aenter_of_running raises unwinding hRunning]
      exact h.ignored
  | false =>
      have hClosed := hKept.idle hRunning
      have hEntering : s.entering raises = BenchmarkRun.entered { raises } programs := by
        rw [State.entering, h.ofPrograms, BenchmarkRun.entered]
      rw [noteCall, ← h.running, hRunning, if_neg Bool.false_ne_true]
      cases hFailure : enterFailure raises s.programs.items with
      | none =>
          obtain ⟨hLog, hNow, hListed, hSame, -⟩ := s.aenter_succeeds unwinding hRunning hFailure
          have hWell : ¬BenchmarkRun.Failed { raises } programs := by
            simp [BenchmarkRun.Failed, ← h.ofPrograms, hFailure]
          refine ⟨hSame.trans h.ofPrograms, hNow, ?_, fun program => ?_⟩
          · rw [hListed, h.listed, hEntering]
            rfl
          · rw [hLog, open_marked, hEntering]
            simp [hWell, hClosed program]
      | some e =>
          obtain ⟨hLog, hNow, hListed, hSame, -⟩ := s.aenter_fails hLegal hRunning hFailure
          have hIll : BenchmarkRun.Failed { raises } programs := by
            simp [BenchmarkRun.Failed, ← h.ofPrograms, hFailure]
          refine ⟨hSame.trans h.ofPrograms, hNow, ?_, fun program => ?_⟩
          · rw [hListed, h.listed, hEntering]
            rfl
          · rw [hLog, open_marked, open_marked]
            have hUnwound : program ∈ s.entering raises →
                program ∈ (s.entering raises).reverse ++ s.runningPrograms :=
              fun hMem => List.mem_append_left _ (List.mem_reverse.mpr hMem)
            by_cases hMem : program ∈ (s.entering raises).reverse ++ s.runningPrograms
            · simp [hMem, hIll]
            · rw [if_neg hMem, if_neg fun hEntered => hMem (hUnwound hEntered)]
              simp [hIll, hClosed program]

/-- An `__aexit__` ends the run under way, and leaves its programs listed. -/
theorem Recounted.aexit {raises : Raises} (h : Recounted programs runs s) (hKept : Kept s)
    (hLegal : Legal s (.aexit raises)) :
    Recounted programs (noteCall runs (.aexit raises : Action P)) (s.aexit raises) := by
  cases hRunning : s.running with
  | false =>
      rw [noteCall_ignored h (fun _ _ => hRunning) (fun _ _ hEq => by cases hEq),
        State.aexit_of_idle raises hRunning]
      exact h.ignored
  | true =>
      obtain ⟨run, earlier, rfl, -⟩ := h.under_way hRunning
      obtain ⟨hLog, hIdle, hSame, -⟩ := s.aexit_ends hLegal hRunning
      refine ⟨hSame.trans h.ofPrograms, hIdle, ?_, fun program => ?_⟩
      · rw [State.aexit_listed hLegal hRunning, h.listed]
        rfl
      · rw [hLog, open_marked]
        refine iff_of_false (fun hStill => ?_) (by simp [noteCall])
        split at hStill
        · cases hStill
        · rename_i hOut
          exact hOut (hKept.listed program hStill).2

theorem Recounted.poll (h : Recounted programs runs s) (reads : String → CgroupReads) :
    Recounted programs runs (s.poll reads) := by
  obtain ⟨hLog, hRunning, hListed, hSame, -⟩ := s.poll_frame reads
  refine ⟨hSame.trans h.ofPrograms, hRunning.trans h.running, hListed.trans h.listed, fun program => ?_⟩
  rw [hLog]
  exact h.opened program

/-- The runs go on telling about the object, as long as the balance is kept. -/
theorem Recounted.step (h : Recounted programs runs s) (hKept : Kept s) (hLegal : Legal s a)
    (hStep : Benchmark.step s a = some t) : Recounted programs (noteCall runs a) t := by
  cases a with
  | aenter raises unwinding =>
      obtain rfl := Option.some.inj hStep
      exact h.aenter hKept hLegal
  | aexit raises =>
      obtain rfl := Option.some.inj hStep
      exact h.aexit hKept hLegal
  | poll reads =>
      simp only [Benchmark.step] at hStep
      split at hStep <;> cases hStep
      exact h.poll reads

theorem Recounted.run {actions : List (Action P)} (hLegal : Runs Benchmark.step Legal (fresh programs) actions s)
    (hPaired : Runs Benchmark.step Paired (fresh programs) actions s) :
    Recounted programs (benchmarkRuns actions) s := by
  induction hLegal with
  | nil => exact recounted_fresh programs
  | @snoc t u earlier a prior admitted last ih =>
      obtain ⟨middle, hPrior, hLast, -⟩ := hPaired.snoc_inv
      obtain rfl := prior.unique hPrior
      rw [benchmarkRuns, List.foldl_concat]
      exact (ih hPrior).step (Kept.run prior hPrior) admitted last

/-- All calls of a run are paired just when its runs are fit. -/
theorem paired_iff_fit {actions : List (Action P)} (hLegal : Runs Benchmark.step Legal (fresh programs) actions s) :
    Runs Benchmark.step Paired (fresh programs) actions s ↔ Fit programs (benchmarkRuns actions) := by
  induction hLegal with
  | nil => exact iff_of_true (.nil _) trivial
  | @snoc t u earlier a prior admitted last ih =>
      rw [benchmarkRuns, List.foldl_concat]
      constructor
      · intro hPaired
        obtain ⟨middle, hPrior, hLast, -⟩ := hPaired.snoc_inv
        obtain rfl := prior.unique hPrior
        exact ((Recounted.run prior hPrior).paired_iff (ih.mp hPrior)).mp hLast
      · intro hFit
        have hPrior := ih.mpr hFit.of_noteCall
        exact .snoc hPrior (((Recounted.run prior hPrior).paired_iff (ih.mp hPrior)).mpr hFit) last

end Runs

/-- The balance holds in every state of a run exactly when the calls are fit. Polls are free, and so
are an `__aenter__` and an `__aexit__` that return at once. -/
theorem balanced_iff_fit (programs : Dict String P) (actions : List (Action P)) (s : State P)
    (hRun : Runs step Legal (fresh programs) actions s) :
    (∀ done t, done <+: actions → Runs step Any (fresh programs) done t → Balanced t) ↔
      Fit programs (benchmarkRuns actions) :=
  (always_balanced_iff programs actions s hRun).trans (paired_iff_fit hRun)

theorem balanced_iff_fit_run :
    let programs : Dict String ℕ := ⟨[("server", 1), ("app", 2)], by decide⟩
    ∀ done t, done <+: [.aenter (fun _ => none) fun _ => none, .aexit fun _ => none] →
      Runs step Any (fresh programs) done t → Balanced t := by
  intro programs
  have hLegal : Runs step Legal (fresh programs)
      [.aenter (fun _ => none) fun _ => none, .aexit fun _ => none] _ :=
    runs_of_execute rfl (by simp [Legal])
  have hFit : Fit programs (benchmarkRuns (P := ℕ)
      [.aenter (fun _ => none) fun _ => none, .aexit fun _ => none]) :=
    ⟨trivial, by decide, fun _ _ hMem => absurd hMem List.not_mem_nil, fun hFailed => absurd hFailed (by decide)⟩
  exact (balanced_iff_fit programs _ _ hLegal).mpr hFit

/-- The second program fails to enter and the first is exited; the `__aexit__`
that follows exits it again. -/
theorem exited_twice_after_failed_enter :
    ¬∀ (programs : Dict String ℕ) actions s,
      Runs step Legal (fresh programs) actions s → Balanced s := by
  intro h
  let programs : Dict String ℕ := ⟨[("server", 1), ("app", 2)], by decide⟩
  let failing : Raises := fun n => if n = 1 then some { cls := .exception } else none
  have hException : ∀ n e, failing n = some e → e.isa .exception = true := by
    intro n e hRaised
    simp only [failing] at hRaised
    split at hRaised <;> cases hRaised
    rfl
  have hRun : Runs step Legal (fresh programs)
      [.aenter failing fun _ => none, .aexit fun _ => none] _ :=
    runs_of_execute rfl (by simpa [Legal] using fun _ => hException)
  have hAlternates := (h _ _ _ hRun).alternates 1
  revert hAlternates
  decide

end MirCi.Benchmark
