import MirCi.Program.Ladder

/-! Leaving a context whose process died on its own. `Program.__aexit__` finds
the process dead and says so; `DisplayServer.__aexit__` goes through `kill`,
whose `except ProgramError` drops the verdict on the return code. -/
namespace MirCi.Program

open Python Semantics

/-- Nobody waits for the process, kills it or leaves its context. -/
def Passive (_ : State) (a : Action) : Prop := a.timeouts = none

/-- No call was ever made on the program. -/
structure Untouched (s : State) : Prop where
  fresh : s.processEnd = some .fresh
  tasks : s.tasks = []
  caller : s.caller = .body none

/-- Leaving the block comes to an end, and only ever by raising. -/
def RaisesOnLeave (s : State) : Prop :=
  (∃ actions t raised, Runs step Any s (.leave :: actions) t ∧ t.caller = .left raised) ∧
  ∀ actions t raised, Runs step Any s (.leave :: actions) t → t.caller = .left raised →
    raised.isSome = true

/-- The context or the output makes leaving raise. -/
def Loud (s : State) : Prop := s.context = .program ∨ decodeUtf8 s.rawOutput = none

/-- How a context is being left whose process is recorded as dead. -/
structure Leaving (s : State) : Prop where
  dead : s.isRunning = false
  tasks : s.tasks = []
  phase : match s.caller with
    | .body _ => False
    | .sleeping _ => s.context ≠ .program ∧ s.processEnd = some .fresh
    | .awaiting frame => s.processEnd = some .suspended ∧
        (frame = .exitDead ∧ s.context = .program ∨ frame = .exitKill ∧ s.context ≠ .program)
    | .left raised => raised.isSome = true ↔ Loud s

theorem Untouched.step {s t : State} {a : Action} (h : Untouched s) (hPassive : Passive s a)
    (hStep : step s a = some t) : Untouched t := by
  cases a with
  | wait _ _ | kill _ | leave | wake => simp [Passive, Action.timeouts] at hPassive
  | cancel | communicate => simp [Program.step, h.caller] at hStep
  | resume i delivered => simp [Program.step, h.tasks] at hStep
  | tick _ | exit _ | record | cgroupFound =>
      simp only [Program.step] at hStep
      split at hStep <;> cases hStep
      exact ⟨h.fresh, h.tasks, h.caller⟩

/-- `kill` on a dead program suspends in `communicate` and starts no task. -/
theorem State.kill_fresh {s : State} (hDead : s.isRunning = false)
    (hFresh : s.processEnd = some .fresh) (frame : Frame) (timeout : Time) :
    s.kill frame timeout =
      { s with processEnd := some .suspended, caller := .awaiting frame } :=
  (State.wait_of_not_running hDead _ _ _).trans (State.awaitEnd_fresh hFresh _)

theorem leaving_kill {s : State} (hDead : s.isRunning = false) (hTasks : s.tasks = [])
    (hFresh : s.processEnd = some .fresh) (hServer : s.context ≠ .program) :
    Leaving (s.kill .exitKill defaultTermTimeout) := by
  rw [State.kill_fresh hDead hFresh]
  exact ⟨hDead, hTasks, rfl, .inr ⟨rfl, hServer⟩⟩

theorem Untouched.leave {s : State} (h : Untouched s) (hDead : s.isRunning = false) :
    Leaving s.leave := by
  unfold State.leave
  split
  · rename_i hProgram
    have hFresh : s.cancelCgroupsTask.processEnd = some .fresh := h.fresh
    have hSame : s.cancelCgroupsTask.isRunning = false := hDead
    have hEq : s.programExit =
        { s.cancelCgroupsTask with
          processEnd := some .suspended, caller := .awaiting .exitDead } := by
      simp [State.programExit, hFresh, hSame, State.awaitEnd]
    rw [hEq]
    exact ⟨hDead, h.tasks, rfl, .inl ⟨rfl, hProgram⟩⟩
  · rename_i startTime hServer
    simp only [State.displayServerExit]
    split
    · exact ⟨hDead, h.tasks, by simp [hServer], h.fresh⟩
    · exact leaving_kill hDead h.tasks h.fresh (by simp [hServer])

/-- `kill` collects the output and drops the verdict on the return code. -/
theorem State.ended_exitKill (s : State) :
    s.ended .exitKill = { s with processEnd := none, caller := .left none } := by
  simp only [State.ended, State.finish, State.suppressProgramError]
  split
  · rfl
  · split <;> rfl

theorem Leaving.frame {s : State} (h : Leaving s) {frame : Frame} (hCaller : s.caller = .awaiting frame) :
    frame = .exitDead ∧ s.context = .program ∨ frame = .exitKill ∧ s.context ≠ .program := by
  have hPhase := h.phase
  simp only [hCaller] at hPhase
  exact hPhase.2

/-- What the suspended exit does when `communicate` ends: `__aexit__` of a
`Program` raises, `kill` only lets a decoding error through. -/
theorem Leaving.communicated {s : State} (h : Leaving s) {frame : Frame}
    (hCaller : s.caller = .awaiting frame) : Leaving (s.communicated frame) := by
  have hFrame := h.frame hCaller
  have hCancel : s.cancelSignalsTask.tasks = [] ∧ s.cancelSignalsTask.returncode = s.returncode ∧
      s.cancelSignalsTask.context = s.context ∧ s.cancelSignalsTask.rawOutput = s.rawOutput := by
    unfold State.cancelSignalsTask
    split <;> simp [h.tasks]
  obtain ⟨hTasks, hCode, hContext, hRaw⟩ := hCancel
  have hDead : s.cancelSignalsTask.isRunning = false := by
    simpa only [State.isRunning, hCode] using h.dead
  unfold State.communicated
  cases hDecode : decodeUtf8 s.rawOutput with
  | none =>
      have hLoud : Loud s := .inr hDecode
      rcases hFrame with ⟨rfl, hProgram⟩ | ⟨rfl, hServer⟩
      · exact ⟨hDead, hTasks, by simp [State.finish, Loud, hContext, hProgram]⟩
      · refine ⟨hDead, hTasks, ?_⟩
        simp [State.finish, State.suppressProgramError, Loud, hRaw, hDecode, Exc.isa, ExcClass.mro]
  | some text =>
      rcases hFrame with ⟨rfl, hProgram⟩ | ⟨rfl, hServer⟩
      · exact ⟨hDead, hTasks, by simp [State.ended, State.finish, Loud, hContext, hProgram]⟩
      · refine ⟨hDead, hTasks, ?_⟩
        simp [State.ended_exitKill, Loud, hContext, hRaw, hServer, hDecode]

/-- Nothing but the exit itself moves while a dead program's context is left. -/
theorem Leaving.step {s t : State} {a : Action} (h : Leaving s) (hStep : step s a = some t) :
    Leaving t := by
  have hPhase := h.phase
  cases a with
  | wait _ _ | kill _ | leave =>
      simp only [Program.step] at hStep
      split at hStep <;> cases hStep
      rename_i hCaller
      simp [hCaller] at hPhase
  | cancel =>
      simp only [Program.step] at hStep
      split at hStep <;> cases hStep <;> rename_i hCaller <;> simp [hCaller] at hPhase
  | wake =>
      simp only [Program.step] at hStep
      split at hStep
      · split at hStep <;> cases hStep
        rename_i due hCaller _
        obtain ⟨hServer, hFresh⟩ : s.context ≠ .program ∧ s.processEnd = some .fresh := by
          simpa only [hCaller] using hPhase
        exact leaving_kill h.dead h.tasks hFresh hServer
      · cases hStep
  | communicate =>
      simp only [Program.step] at hStep
      split at hStep
      · split at hStep <;> cases hStep
        rename_i frame hCaller _
        exact h.communicated hCaller
      · cases hStep
  | resume i delivered => simp [Program.step, h.tasks] at hStep
  | record =>
      simp only [Program.step] at hStep
      split at hStep <;> cases hStep
      rename_i hRecord
      have hDead := h.dead
      simp_all [State.isRunning]
  | tick _ | exit _ | cgroupFound =>
      simp only [Program.step] at hStep
      split at hStep <;> cases hStep
      exact ⟨h.dead, h.tasks, hPhase⟩

/-- The end of the output is all a suspended exit waits for. -/
theorem Leaving.awaiting_completes {s : State} (h : Leaving s) {frame : Frame}
    (hCaller : s.caller = .awaiting frame) :
    ∃ t raised, Program.step s .communicate = some t ∧ t.caller = .left raised := by
  have hFrame := h.frame hCaller
  have hRecorded : s.returncode.isSome = true := by
    simpa [State.isRunning] using h.dead
  have hStep : Program.step s .communicate = some (s.communicated frame) := by
    simp [Program.step, hCaller, hRecorded]
  obtain ⟨processEnd, output, raised, hEq, -⟩ := s.communicated_eq frame
  rcases hFrame with ⟨rfl, -⟩ | ⟨rfl, -⟩
  · exact ⟨_, _, hStep, by rw [hEq]; rfl⟩
  · exact ⟨_, _, hStep, by rw [hEq]; rfl⟩

/-- Besides that, `DisplayServer.__aexit__` only lets its sleep pass. -/
theorem Leaving.completes {s : State} (h : Leaving s) :
    ∃ actions t raised, Runs Program.step Any s actions t ∧ t.caller = .left raised := by
  have hPhase := h.phase
  cases hCaller : s.caller with
  | body raised => simp [hCaller] at hPhase
  | left raised => exact ⟨[], s, raised, .nil s, hCaller⟩
  | awaiting frame =>
      obtain ⟨t, raised, hStep, hLeft⟩ := h.awaiting_completes hCaller
      exact ⟨_, t, raised, .single trivial hStep, hLeft⟩
  | sleeping due =>
      obtain ⟨hServer, hFresh⟩ : s.context ≠ .program ∧ s.processEnd = some .fresh := by
        simpa only [hCaller] using hPhase
      let awake : State := { s with now := s.now + max 0 (due - s.now) }
      have hTick : Program.step s (.tick (max 0 (due - s.now))) = some awake := by
        simp [Program.step, awake]
      have hDue : due ≤ awake.now := by
        have hMax := le_max_right 0 (due - s.now)
        simp only [awake]
        linarith
      have hAwake : Leaving awake := h.step hTick
      have hWake : Program.step awake .wake = some (awake.kill .exitKill defaultTermTimeout) := by
        simp only [Program.step, show awake.caller = .sleeping due from hCaller, hDue, if_true]
      have hKilled := hAwake.step hWake
      have hAwaiting : (awake.kill .exitKill defaultTermTimeout).caller = .awaiting .exitKill := by
        rw [State.kill_fresh hAwake.dead hFresh]
      obtain ⟨t, raised, hStep, hLeft⟩ := hKilled.awaiting_completes hAwaiting
      exact ⟨_, t, raised,
        ((Runs.single trivial hTick).trans (.single trivial hWake)).trans (.single trivial hStep),
        hLeft⟩

/-- Leaving a context whose process died unnoticed raises exactly when the
context is a `Program` or the output cannot be decoded. -/
theorem crash_raises_iff (context : Context) (name : String) (rawOutput : List UInt8) (now : Time)
    (cgroupV2 : Bool) (actions : List Action) (s : State)
    (hRun : Runs step Passive (entered context name rawOutput now cgroupV2) actions s)
    (hRecorded : s.isRunning = false) :
    RaisesOnLeave s ↔ context = .program ∨ decodeUtf8 rawOutput = none := by
  have hUntouched : Untouched s :=
    hRun.invariant Untouched ⟨rfl, rfl, rfl⟩ fun _ _ _ h hPassive hStep => h.step hPassive hStep
  have hLoud : Loud s ↔ context = .program ∨ decodeUtf8 rawOutput = none := by
    obtain ⟨hContext, -, hRaw⟩ := sameProgram_of_run hRun
    rw [Loud, hContext, hRaw]
    rfl
  have hLeave : step s .leave = some s.leave := by
    simp [step, hUntouched.caller]
  have hLeaving := hUntouched.leave hRecorded
  -- Whatever happens while the context is being left, the verdict is the same.
  have hVerdict : ∀ actions t raised, Runs step Any s (.leave :: actions) t →
      t.caller = .left raised → (raised.isSome = true ↔ Loud s) := by
    intro actions t raised hLeft hCaller
    obtain ⟨middle, -, hFirst, hRest⟩ := hLeft.cons_inv
    obtain rfl : s.leave = middle := Option.some.inj (hLeave.symm.trans hFirst)
    have hPhase := (hRest.invariant Leaving hLeaving fun _ _ _ h _ hStep => h.step hStep).phase
    obtain ⟨hContext, -, hRaw⟩ := sameProgram_of_run hLeft
    simpa only [hCaller, Loud, hContext, hRaw] using hPhase
  obtain ⟨actions, t, raised, hRest, hCaller⟩ := hLeaving.completes
  have hLeft : Runs step Any s (.leave :: actions) t :=
    (Runs.single trivial hLeave).trans hRest
  rw [← hLoud]
  constructor
  · intro hRaises
    exact (hVerdict actions t raised hLeft hCaller).mp (hRaises.2 actions t raised hLeft hCaller)
  · intro h
    exact ⟨⟨actions, t, raised, hLeft, hCaller⟩, fun actions t raised hLeft hCaller =>
      (hVerdict actions t raised hLeft hCaller).mpr h⟩

theorem crash_raises_iff_run :
    ∃ s, Runs step Passive (entered .program "app" [] 0 true) [.exit 0, .record] s ∧
      RaisesOnLeave s := by
  have hRun : Runs step Passive (entered .program "app" [] 0 true) [.exit 0, .record] _ :=
    runs_of_execute rfl (by simp [Passive, Action.timeouts])
  exact ⟨_, hRun, (crash_raises_iff .program "app" [] 0 true _ _ hRun rfl).mpr (.inl rfl)⟩

/-- A server that exits by itself, with any code, goes unnoticed: its context is
left without an exception. -/
theorem server_crash_swallowed :
    ¬∀ context name rawOutput now cgroupV2 actions s,
      Runs step Passive (entered context name rawOutput now cgroupV2) actions s →
        s.isRunning = false → RaisesOnLeave s := by
  intro h
  let dead : State :=
    { entered (.displayServer 0) "mir" [] 0 true with exited := some 139, returncode := some 139 }
  have hRun : Runs step Passive (entered (.displayServer 0) "mir" [] 0 true)
      [.exit 139, .record] dead :=
    runs_of_execute rfl (by simp [Passive, Action.timeouts])
  have hQuiet : (execute step dead [.leave, .tick 1, .wake, .communicate]).map State.caller =
      some (.left none) := by decide +kernel
  obtain ⟨t, hExecute, hLeft⟩ := Option.map_eq_some_iff.mp hQuiet
  have hRaises := (h _ _ _ _ _ _ _ hRun rfl).2 _ t none
    (runs_of_execute hExecute fun _ _ _ => trivial) hLeft
  exact Bool.noConfusion hRaises

end MirCi.Program
