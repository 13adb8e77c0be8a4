import MirCi.Program.Operations

/-! Leaving an `async with Program(...)` block. A call cancelled at its await
spends `process_end` without cancelling the signals task, so the exit finds
nothing left to wait for. The invariant below survives exactly the cancellations
that come after the exit was recorded and leave no task able to signal. -/
namespace MirCi.Program

open Python Semantics

namespace State

/-- The process has exited and no task will signal its group any more. -/
def Clean (s : State) : Prop := s.exited.isSome = true ∧ ¬s.Armed

instance (s : State) : Decidable s.Clean := by unfold Clean; infer_instance

/-- Clean, and the loop has recorded the exit. A signals task that is left has ended or is being cancelled. -/
def Settled (s : State) : Prop := s.isRunning = false ∧ s.Clean

end State

/-- A cancellation is harmless once the exit is recorded and no task is armed. -/
def HarmlessCancel (s : State) (a : Action) : Prop :=
  a = .cancel → s.isRunning = false ∧ ¬s.Armed

/-- What holds between any two turns of the event loop. There is at most one
signals task, and it is armed only while a call is suspended on `communicate`. -/
structure Sound (s : State) : Prop where
  recorded : s.isRunning = false → s.exited.isSome = true
  fresh : s.processEnd = some .fresh → s.tasks = []
  settled : s.Over → s.isRunning = false ∧ ¬s.Armed
  single : (s.sendSignalsTask = none ∧ s.tasks = []) ∨
    ∃ task, s.sendSignalsTask = some 0 ∧ s.tasks = [task]
  awaiting : ∀ frame, s.caller = .awaiting frame → s.processEnd = some .suspended
  suspended : s.processEnd = some .suspended → ∃ frame, s.caller = .awaiting frame
  left : ∀ raised, s.caller = .left raised → s.Over

namespace Sound

theorem entered (context : Context) (name : String) (rawOutput : List UInt8) (now : Time)
    (cgroupV2 : Bool) : Sound (entered context name rawOutput now cgroupV2) where
  recorded h := by simp [Program.entered, State.isRunning] at h
  fresh _ := rfl
  settled h := by simp [Program.entered, State.Over] at h
  single := .inl ⟨rfl, rfl⟩
  awaiting frame h := by simp [Program.entered] at h
  suspended h := by simp [Program.entered] at h
  left raised h := by simp [Program.entered] at h

/-- Once `communicate()` is over the caller may stand anywhere but in an await. -/
theorem finish {s : State} (h : Sound s) (hOver : s.Over) (frame : Frame) (raised : Option Exc) :
    Sound (s.finish frame raised) := by
  obtain ⟨caller, hEq, hCaller⟩ := s.finish_eq frame raised
  rw [hEq]
  refine ⟨h.recorded, h.fresh, h.settled, h.single, ?_, ?_, fun _ _ => hOver⟩
  · intro f hf
    exact absurd hf (hCaller f)
  · intro hSuspended
    rcases hOver with hOver | hOver <;> simp_all

theorem awaitEnd_over {s : State} (h : Sound s) (hOver : s.Over) (frame : Frame) :
    Sound (s.awaitEnd frame) := by
  obtain ⟨raised, hEq⟩ := State.awaitEnd_over hOver frame
  rw [hEq]
  exact h.finish hOver frame raised

/-- The first call suspends in `communicate`, with its task if it created one. -/
theorem awaitEnd_fresh {s : State} (h : Sound s) (hFresh : s.processEnd = some .fresh)
    (frame : Frame) : Sound (s.awaitEnd frame) := by
  rw [State.awaitEnd_fresh hFresh]
  refine ⟨h.recorded, ?_, ?_, h.single, fun _ _ => rfl, fun _ => ⟨frame, rfl⟩, ?_⟩
  · intro hEnd
    simp at hEnd
  · intro hOver
    simp [State.Over] at hOver
  · intro raised hLeft
    simp at hLeft

theorem createSignalsTask_awaitEnd {s : State} (h : Sound s)
    (hFresh : s.processEnd = some .fresh) (frame : Frame) (timeout termTimeout : Time) :
    Sound ((s.createSignalsTask timeout termTimeout).awaitEnd frame) := by
  have hTasks := h.fresh hFresh
  rw [State.awaitEnd_fresh (by simpa [State.createSignalsTask] using hFresh)]
  refine ⟨h.recorded, ?_, ?_, ?_, fun _ _ => rfl, fun _ => ⟨frame, rfl⟩, ?_⟩
  · intro hEnd
    simp at hEnd
  · intro hOver
    simp [State.Over] at hOver
  · exact .inr ⟨_, by simp [State.createSignalsTask, hTasks], by
      simp [State.createSignalsTask, hTasks]; rfl⟩
  · intro raised hLeft
    simp at hLeft

/-- Between calls, `communicate()` is over or was never awaited. -/
theorem fresh_of_not_over {s : State} (h : Sound s) (hCaller : ∀ f, s.caller ≠ .awaiting f)
    (hOver : ¬s.Over) : s.processEnd = some .fresh := by
  cases hEnd : s.processEnd with
  | none => exact absurd (.inl hEnd) hOver
  | some coroutine =>
      cases coroutine with
      | fresh => rfl
      | suspended =>
          obtain ⟨f, hf⟩ := h.suspended hEnd
          exact absurd hf (hCaller f)
      | spent => exact absurd (.inr hEnd) hOver

/-- Every call of `wait`, by whatever route, keeps the invariant. -/
theorem wait {s : State} (h : Sound s) (hCaller : ∀ f, s.caller ≠ .awaiting f) (frame : Frame)
    (timeout termTimeout : Time) : Sound (s.wait frame timeout termTimeout) := by
  by_cases hOver : s.Over
  · rw [State.wait_of_not_running (h.settled hOver).1]
    exact h.awaitEnd_over hOver frame
  · have hFresh := h.fresh_of_not_over hCaller hOver
    unfold State.wait
    split
    · exact h.createSignalsTask_awaitEnd hFresh frame timeout termTimeout
    · exact h.awaitEnd_fresh hFresh frame

/-- The task `communicate` cancels is the only one there is. -/
theorem cancelSignalsTask {s : State} (h : Sound s) :
    ¬s.cancelSignalsTask.Armed ∧
      ((s.cancelSignalsTask.sendSignalsTask = none ∧ s.cancelSignalsTask.tasks = []) ∨
        ∃ task, s.cancelSignalsTask.sendSignalsTask = some 0 ∧
          s.cancelSignalsTask.tasks = [task]) := by
  rcases h.single with ⟨hNone, hTasks⟩ | ⟨task, hCurrent, hTasks⟩
  · have hEq : s.cancelSignalsTask = s := by simp [State.cancelSignalsTask, hNone]
    rw [hEq]
    exact ⟨by simp [State.Armed, hTasks], .inl ⟨hNone, hTasks⟩⟩
  · rw [State.cancelSignalsTask_eq hCurrent hTasks]
    refine ⟨?_, .inr ⟨_, hCurrent, rfl⟩⟩
    rintro ⟨other, hMem, hArmed⟩
    obtain rfl := List.mem_singleton.mp hMem
    rw [SignalsTask.cancel_unarmed] at hArmed
    exact Bool.noConfusion hArmed

theorem communicated {s : State} (h : Sound s) (hRecorded : s.isRunning = false) (frame : Frame) :
    Sound (s.communicated frame) := by
  obtain ⟨processEnd, output, raised, hEq, hEnd⟩ := s.communicated_eq frame
  obtain ⟨hUnarmed, hSingle⟩ := h.cancelSignalsTask
  obtain ⟨caller, hFinish, hCaller⟩ :=
    { s.cancelSignalsTask with processEnd := processEnd, output := output }.finish_eq frame raised
  have hFrame : s.cancelSignalsTask.returncode = s.returncode ∧
      s.cancelSignalsTask.exited = s.exited := by
    unfold State.cancelSignalsTask
    split <;> exact ⟨rfl, rfl⟩
  rw [hEq, hFinish]
  refine ⟨?_, ?_, ?_, hSingle, ?_, ?_, fun _ _ => hEnd⟩
  · intro _
    simpa [hFrame.2] using h.recorded hRecorded
  · rintro rfl
    simp at hEnd
  · intro _
    exact ⟨by simpa [State.isRunning, hFrame.1] using hRecorded, hUnarmed⟩
  · intro f hf
    exact absurd hf (hCaller f)
  · rintro rfl
    simp at hEnd

/-- A harmless cancellation spends `process_end` in a state that could have
collected it. -/
theorem cancelled {s : State} (h : Sound s) (hRecorded : s.isRunning = false) (hArmed : ¬s.Armed)
    (frame : Frame) : Sound (s.cancelled frame) := by
  have hSpent : Sound { s with processEnd := some .spent, caller := .body none } :=
    ⟨h.recorded, by simp, fun _ => ⟨hRecorded, hArmed⟩, h.single, by simp, by simp, by simp⟩
  have hFinish := hSpent.finish (.inr rfl) frame (some ⟨.cancelledError, ""⟩)
  cases frame <;> exact hFinish

theorem programExit {s : State} (h : Sound s) (hCaller : ∀ f, s.caller ≠ .awaiting f) :
    Sound s.programExit := by
  have hCgroups : Sound s.cancelCgroupsTask :=
    ⟨h.recorded, h.fresh, h.settled, h.single, h.awaiting, h.suspended, h.left⟩
  unfold State.programExit
  cases hEnd : s.cancelCgroupsTask.processEnd with
  | none =>
      have hLeft := hCgroups.finish (.inl hEnd) .exitDead none
      simpa only [State.finish, hEnd] using hLeft
  | some coroutine =>
      simp only [hEnd]
      split
      · exact hCgroups.wait hCaller .exitKill 0 defaultTermTimeout
      · rename_i hRunning
        rw [← State.wait_of_not_running (by simpa using hRunning) .exitDead 0 0]
        exact hCgroups.wait hCaller .exitDead 0 0

theorem leave {s : State} (h : Sound s) (hCaller : ∀ f, s.caller ≠ .awaiting f)
    (hEnd : s.processEnd ≠ some .suspended) : Sound s.leave := by
  unfold State.leave
  cases s.context with
  | program => exact h.programExit hCaller
  | displayServer startTime =>
      simp only [State.displayServerExit]
      split
      · exact ⟨h.recorded, h.fresh, h.settled, h.single, by simp, fun hSus => absurd hSus hEnd,
          by simp⟩
      · exact h.wait hCaller .exitKill 0 defaultTermTimeout

/-- A task found in the list is the only one. -/
theorem only_task {s : State} (h : Sound s) {i : Nat} {task : SignalsTask}
    (hTask : s.tasks[i]? = some task) : i = 0 ∧ s.tasks = [task] := by
  obtain ⟨-, hTasks⟩ | ⟨only, -, hTasks⟩ := h.single
  · simp [hTasks] at hTask
  · cases i with
    | zero => simpa [hTasks] using hTask
    | succ i => simp [hTasks] at hTask

/-- A turn of the signals task arms nothing that was not armed before. -/
theorem resume {s t : State} {i : Nat} {task : SignalsTask} {delivered : Bool} (h : Sound s)
    (hTask : s.tasks[i]? = some task) (hStep : s.resume i task delivered = some t) : Sound t := by
  obtain ⟨stage, kills, sigkillSent, rfl, hStage⟩ := State.resume_frame hStep
  obtain ⟨rfl, hTasks⟩ := h.only_task hTask
  have hCurrent : s.sendSignalsTask = some 0 := by
    rcases h.single with ⟨-, hNone⟩ | ⟨_, hCurrent, -⟩
    · simp [hNone] at hTasks
    · exact hCurrent
  have hOverTask : s.Over → task.armed s.isRunning = false := by
    intro hOver
    simpa [State.Armed, hTasks] using (h.settled hOver).2
  refine ⟨h.recorded, ?_, ?_, .inr ⟨_, hCurrent, by simp [State.setStage, hTasks]; rfl⟩,
    h.awaiting, h.suspended, h.left⟩
  · intro hFresh
    simp [State.setStage, h.fresh hFresh]
  · intro hOver
    refine ⟨(h.settled hOver).1, ?_⟩
    rcases hStage with hArmed | ⟨⟨raised, rfl⟩, -⟩
    · rw [hOverTask hOver] at hArmed
      exact Bool.noConfusion hArmed
    · simp [State.Armed, State.setStage, hTasks, SignalsTask.armed]

/-- Every step keeps the invariant, a cancellation only a harmless one. -/
theorem step {s t : State} {a : Action} (h : Sound s) (hCancel : HarmlessCancel s a)
    (hStep : step s a = some t) : Sound t := by
  have hSuspended : (∀ f, s.caller ≠ .awaiting f) → s.processEnd ≠ some .suspended := by
    intro hCaller hEnd
    obtain ⟨f, hf⟩ := h.suspended hEnd
    exact hCaller f hf
  cases a with
  | wait timeout termTimeout =>
      cases hCaller : s.caller <;> simp only [Program.step, hCaller] at hStep <;> cases hStep
      exact h.wait (by simp [hCaller]) _ _ _
  | kill timeout =>
      cases hCaller : s.caller <;> simp only [Program.step, hCaller] at hStep <;> cases hStep
      exact h.wait (by simp [hCaller]) _ _ _
  | cancel =>
      obtain ⟨hRecorded, hArmed⟩ := hCancel rfl
      simp only [Program.step] at hStep
      split at hStep <;> cases hStep <;> exact h.cancelled hRecorded hArmed _
  | leave =>
      cases hCaller : s.caller <;> simp only [Program.step, hCaller] at hStep <;> cases hStep
      have hFree : ∀ f, s.caller ≠ .awaiting f := by simp [hCaller]
      exact h.leave hFree (hSuspended hFree)
  | wake =>
      cases hCaller : s.caller <;> simp only [Program.step, hCaller] at hStep <;>
        first | cases hStep | skip
      split at hStep <;> cases hStep
      exact h.wait (by simp [hCaller]) _ _ _
  | tick elapsed =>
      simp only [Program.step] at hStep
      split at hStep <;> cases hStep
      exact ⟨h.recorded, h.fresh, h.settled, h.single, h.awaiting, h.suspended, h.left⟩
  | exit code =>
      simp only [Program.step] at hStep
      split at hStep <;> cases hStep
      exact ⟨fun _ => rfl, h.fresh, h.settled, h.single, h.awaiting, h.suspended, h.left⟩
  | record =>
      simp only [Program.step] at hStep
      split at hStep <;> cases hStep
      rename_i hExit
      simp only [Bool.and_eq_true] at hExit
      refine ⟨fun _ => hExit.1, h.fresh, ?_, h.single, h.awaiting, h.suspended, h.left⟩
      intro hOver
      have hRunning := (h.settled hOver).1
      simp [State.isRunning, hExit.2] at hRunning
  | communicate =>
      cases hCaller : s.caller <;> simp only [Program.step, hCaller] at hStep <;>
        first | cases hStep | skip
      split at hStep <;> cases hStep
      rename_i hRecorded
      exact h.communicated (by simpa [State.isRunning] using hRecorded) _
  | resume i delivered =>
      obtain ⟨task, hTask, hResume⟩ := Option.bind_eq_some_iff.mp hStep
      exact h.resume hTask hResume
  | cgroupFound =>
      simp only [Program.step] at hStep
      split at hStep <;> cases hStep
      exact ⟨h.recorded, h.fresh, h.settled, h.single, h.awaiting, h.suspended, h.left⟩

/-- The invariant holds all along a run whose cancellations are harmless. -/
theorem run {context : Context} {name : String} {rawOutput : List UInt8} {now : Time}
    {cgroupV2 : Bool} {actions : List Action} {s : State}
    (h : Runs Program.step HarmlessCancel (Program.entered context name rawOutput now cgroupV2)
      actions s) : Sound s :=
  h.invariant Sound (entered context name rawOutput now cgroupV2)
    fun _ _ _ hSound hCancel hStep => hSound.step hCancel hStep

/-- A context that has been left is clean. -/
theorem clean {s : State} (h : Sound s) {raised : Option Exc} (hLeft : s.caller = .left raised) :
    s.Clean :=
  have hSettled := h.settled (h.left raised hLeft)
  ⟨h.recorded hSettled.1, hSettled.2⟩

end Sound

/-- Leaving a `Program` block whose `process_end` is spent. With the process
still recorded as running, `kill` starts one more task and then fails. -/
theorem State.programExit_spent {s : State} (h : s.processEnd = some .spent) :
    ∃ raised, s.programExit.caller = .left raised ∧ s.programExit.returncode = s.returncode ∧
      s.programExit.tasks =
        if s.isRunning then s.tasks ++ [⟨s.now, 0, defaultTermTimeout, .created, false⟩]
        else s.tasks := by
  have hEnd : s.cancelCgroupsTask.processEnd = some .spent := h
  have hSame : s.cancelCgroupsTask.isRunning = s.isRunning := rfl
  unfold State.programExit
  cases hRunning : s.isRunning <;>
    simp [hEnd, hSame, hRunning, State.kill, State.wait, State.awaitEnd, State.finish,
      State.createSignalsTask] <;> simp [State.cancelCgroupsTask]

/-- A cancellation that is not harmless leaks if the block is left at once. -/
theorem leak_of_cancel {s t : State} (hProgram : s.context = .program)
    (hStep : step s .cancel = some t) (hCancel : ¬HarmlessCancel s .cancel) :
    ∃ u raised, step t .leave = some u ∧ u.caller = .left raised ∧ ¬u.Clean := by
  obtain ⟨raised, rfl⟩ : ∃ raised,
      t = { s with processEnd := some .spent, caller := .body raised } := by
    simp only [step] at hStep
    split at hStep <;> cases hStep <;> exact ⟨_, rfl⟩
  let spent : State := { s with processEnd := some .spent, caller := .body raised }
  obtain ⟨left, hLeft, hCode, hTasks⟩ := State.programExit_spent (show spent.processEnd = _ from rfl)
  have hLeave : step spent .leave = some spent.programExit := by
    simp [step, State.leave, spent, hProgram]
  refine ⟨spent.programExit, left, hLeave, hLeft, ?_⟩
  have hRunning : spent.programExit.isRunning = s.isRunning := by
    simp [State.isRunning, hCode, spent]
  rintro ⟨-, hArmed⟩
  apply hArmed
  cases hCase : s.isRunning with
  | true =>
      have hSpent : spent.isRunning = true := hCase
      refine ⟨⟨s.now, 0, defaultTermTimeout, .created, false⟩, ?_, by rw [hRunning, hCase]; rfl⟩
      rw [hTasks, hSpent]
      exact List.mem_append_right s.tasks (List.mem_singleton.mpr rfl)
  | false =>
      have hStill : s.Armed := by
        by_contra hNot
        exact hCancel fun _ => ⟨hCase, hNot⟩
      obtain ⟨task, hMem, hTask⟩ := hStill
      refine ⟨task, ?_, by rw [hRunning]; exact hTask⟩
      have hSpent : spent.isRunning = false := hCase
      rw [hTasks, hSpent]
      exact hMem

/-- A `Program` block is left clean after every run whose cancellations are
harmless, and every other cancellation has a continuation that leaks. -/
theorem aexit_leaves_nothing (name : String) (rawOutput : List UInt8) (now : Time)
    (cgroupV2 : Bool) :
    (∀ actions s raised,
      Runs step HarmlessCancel (entered .program name rawOutput now cgroupV2) actions s →
        s.caller = .left raised → s.Clean) ∧
    (∀ actions s t,
      Runs step Any (entered .program name rawOutput now cgroupV2) actions s →
        step s .cancel = some t → ¬HarmlessCancel s .cancel →
          ∃ u raised, step t .leave = some u ∧ u.caller = .left raised ∧ ¬u.Clean) := by
  refine ⟨fun actions s raised hRun hLeft => (Sound.run hRun).clean hLeft, ?_⟩
  intro actions s t hRun hStep hCancel
  exact leak_of_cancel (sameProgram_of_run hRun).1 hStep hCancel

theorem aexit_leaves_nothing_run :
    (∃ s raised, Runs step HarmlessCancel (entered .program "app" [] 0 true)
      [.wait 5 5, .exit 0, .record, .communicate, .leave] s ∧ s.caller = .left raised ∧ s.Clean) ∧
    (∃ u raised, execute step (entered .program "app" [] 0 true) [.wait 5 5, .cancel, .leave] =
      some u ∧ u.caller = .left raised ∧ ¬u.Clean) := by
  obtain ⟨hClean, hLeak⟩ := aexit_leaves_nothing "app" [] 0 true
  constructor
  · have hRun : Runs step HarmlessCancel (entered .program "app" [] 0 true)
        [.wait 5 5, .exit 0, .record, .communicate, .leave] _ :=
      runs_of_execute rfl (by simp [HarmlessCancel])
    exact ⟨_, _, hRun, rfl, hClean _ _ _ hRun rfl⟩
  · have hRun : Runs step Any (entered .program "app" [] 0 true) [.wait 5 5] _ :=
      runs_of_execute rfl fun _ _ _ => trivial
    obtain ⟨u, raised, hLeave, hLeft, hNot⟩ := hLeak _ _ _ hRun rfl (by
      simp [HarmlessCancel, State.wait, State.awaitEnd, State.isRunning, entered,
        State.createSignalsTask])
    exact ⟨u, raised, hLeave, hLeft, hNot⟩

/-- `asyncio.wait_for` gives up on a `wait` whose process is still running. The
block is left with the process alive and two tasks about to signal it. -/
theorem leak_after_cancelled_wait :
    ¬∀ actions s raised,
      Runs step Any (entered .program "app" [] 0 true) actions s →
        s.caller = .left raised → s.Clean := by
  intro h
  have hRun : Runs step Any (entered .program "app" [] 0 true) [.wait 5 5, .cancel, .leave] _ :=
    runs_of_execute rfl fun _ _ _ => trivial
  have hExited := (h _ _ _ hRun rfl).1
  exact Bool.noConfusion hExited

end MirCi.Program
