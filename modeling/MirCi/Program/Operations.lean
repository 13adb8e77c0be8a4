import MirCi.Program.Model

/-! What each operation of the program can change. The invariants of a run use
these facts and never unfold an operation themselves. -/
namespace MirCi.Program

open Python Semantics

/-- The task can still reach an `os.killpg` call. One that was only just created
checks `is_running` before anything else. -/
def SignalsTask.armed (running : Bool) (task : SignalsTask) : Bool :=
  !task.cancelling && match task.stage with
    | .created => running
    | .beforeTerm _ => true
    | .beforeKill _ => true
    | _ => false

theorem SignalsTask.cancel_unarmed (task : SignalsTask) (running : Bool) :
    task.cancel.armed running = false := by
  cases hStage : task.stage <;>
    simp [SignalsTask.cancel, SignalsTask.isDone, SignalsTask.armed, hStage]

namespace State

/-- Some task could still signal the process group. -/
def Armed (s : State) : Prop := ∃ task ∈ s.tasks, task.armed s.isRunning = true

/-- `communicate()` has ended: collected by `wait`, or spent by an exception. -/
def Over (s : State) : Prop := s.processEnd = none ∨ s.processEnd = some .spent

instance (s : State) : Decidable s.Armed := by unfold Armed; infer_instance
instance (s : State) : Decidable s.Over := by unfold Over; infer_instance

/-- Returning from a call only moves the caller, and not into an await. -/
theorem finish_eq (s : State) (frame : Frame) (raised : Option Exc) :
    ∃ caller, s.finish frame raised = { s with caller := caller } ∧
      ∀ f, caller ≠ .awaiting f := by
  cases frame <;> exact ⟨_, rfl, by simp⟩

/-- Awaiting `process_end` only moves it and the caller. -/
theorem awaitEnd_eq (s : State) (frame : Frame) :
    ∃ processEnd caller,
      s.awaitEnd frame = { s with processEnd := processEnd, caller := caller } := by
  have hFinish : ∀ raised, ∃ processEnd caller,
      s.finish frame raised = { s with processEnd := processEnd, caller := caller } := by
    intro raised
    obtain ⟨caller, hEq, -⟩ := s.finish_eq frame raised
    exact ⟨s.processEnd, caller, hEq⟩
  unfold awaitEnd
  split
  · exact hFinish none
  · exact ⟨some .suspended, .awaiting frame, rfl⟩
  · exact hFinish _
  · exact hFinish _

/-- The program as `wait` finds it once it has decided on a signals task. -/
def called (s : State) (timeout termTimeout : Time) : State :=
  if s.isRunning then s.createSignalsTask timeout termTimeout else s

theorem wait_eq (s : State) (frame : Frame) (timeout termTimeout : Time) :
    ∃ processEnd caller, s.wait frame timeout termTimeout =
      { s.called timeout termTimeout with processEnd := processEnd, caller := caller } :=
  (s.called timeout termTimeout).awaitEnd_eq frame

/-- Leaving the block calls `kill`, or does not look at the tasks at all. -/
theorem leave_eq (s : State) :
    (∃ processEnd cgroupsTask caller, s.leave =
      { s with processEnd := processEnd, cgroupsTask := cgroupsTask, caller := caller }) ∨
    ∃ cgroupsTask, s.leave =
      { s with cgroupsTask := cgroupsTask }.wait .exitKill 0 defaultTermTimeout := by
  unfold leave
  split
  · simp only [programExit]
    split
    · exact .inl ⟨_, _, _, rfl⟩
    · split
      · exact .inr ⟨_, rfl⟩
      · obtain ⟨processEnd, caller, hEq⟩ := s.cancelCgroupsTask.awaitEnd_eq .exitDead
        exact .inl ⟨processEnd, _, caller, hEq⟩
  · simp only [displayServerExit]
    split
    · exact .inl ⟨_, _, _, rfl⟩
    · exact .inr ⟨s.cgroupsTask, rfl⟩

/-- Awaiting a coroutine that is over returns or raises at once. -/
theorem awaitEnd_over {s : State} (h : s.Over) (frame : Frame) :
    ∃ raised, s.awaitEnd frame = s.finish frame raised := by
  rcases h with h | h <;> exact ⟨_, by simp [awaitEnd, h]; rfl⟩

theorem awaitEnd_fresh {s : State} (h : s.processEnd = some .fresh) (frame : Frame) :
    s.awaitEnd frame =
      { s with processEnd := some .suspended, caller := .awaiting frame } := by
  simp [awaitEnd, h]

/-- A call on a program recorded as exited creates no task. -/
theorem wait_of_not_running {s : State} (h : s.isRunning = false) (frame : Frame)
    (timeout termTimeout : Time) : s.wait frame timeout termTimeout = s.awaitEnd frame := by
  simp [wait, h]

/-- Leaving after `communicate()` is over ends at once, or sleeps first. -/
theorem leave_over {s : State} (h : s.Over) (hRunning : s.isRunning = false) :
    ∃ cgroupsTask caller, s.leave = { s with cgroupsTask := cgroupsTask, caller := caller } := by
  have hEnd : ∀ s : State, s.Over → ∀ frame, ∃ caller,
      s.awaitEnd frame = { s with caller := caller } := by
    intro s hOver frame
    obtain ⟨raised, hAwait⟩ := awaitEnd_over hOver frame
    obtain ⟨caller, hFinish, -⟩ := s.finish_eq frame raised
    exact ⟨caller, hAwait.trans hFinish⟩
  have hSame : s.cancelCgroupsTask.isRunning = false := hRunning
  unfold leave
  split
  · simp only [programExit]
    split
    · exact ⟨_, _, rfl⟩
    · rw [if_neg (by simp [hSame])]
      obtain ⟨caller, hEq⟩ := hEnd s.cancelCgroupsTask h .exitDead
      exact ⟨_, caller, hEq⟩
  · simp only [displayServerExit]
    split
    · exact ⟨s.cgroupsTask, _, rfl⟩
    · obtain ⟨caller, hEq⟩ := hEnd s h .exitKill
      exact ⟨s.cgroupsTask, caller, (wait_of_not_running hRunning _ _ _).trans hEq⟩

/-- After `communicate` has run its cancellation no task it knows is armed. -/
theorem cancelSignalsTask_eq {s : State} {task : SignalsTask}
    (hCurrent : s.sendSignalsTask = some 0) (hTasks : s.tasks = [task]) :
    s.cancelSignalsTask = { s with tasks := [task.cancel] } := by
  simp [cancelSignalsTask, hCurrent, hTasks]

/-- `communicate()` ends either collected or spent, and the call returns. -/
theorem communicated_eq (s : State) (frame : Frame) :
    ∃ processEnd output raised,
      s.communicated frame =
        { s.cancelSignalsTask with processEnd := processEnd, output := output }.finish frame raised ∧
      (processEnd = none ∨ processEnd = some .spent) := by
  cases hDecode : decodeUtf8 s.rawOutput with
  | none =>
      simp only [communicated, hDecode]
      exact ⟨some .spent, s.cancelSignalsTask.output, _, rfl, .inr rfl⟩
  | some text =>
      simp only [communicated, hDecode]
      cases frame with
      | exitDead => exact ⟨some .spent, strip text, _, rfl, .inr rfl⟩
      | wait => exact ⟨none, strip text, _, rfl, .inl rfl⟩
      | kill => exact ⟨none, strip text, _, rfl, .inl rfl⟩
      | exitKill => exact ⟨none, strip text, _, rfl, .inl rfl⟩

/-- Everything one turn of a signals task can be: it ends without a signal, or
falls asleep before SIGTERM, or sends SIGTERM, or sends SIGKILL. Only an armed
task does any but the first. -/
theorem resume_cases {s t : State} {i : Nat} {task : SignalsTask} {delivered : Bool}
    (h : s.resume i task delivered = some t) :
    (∃ raised, t = s.setStage i (.done raised)) ∨
    (task.armed s.isRunning = true ∧ task.stage = .created ∧
      t = s.setStage i (.beforeTerm (s.now + task.timeout))) ∨
    (task.armed s.isRunning = true ∧
      (task.stage = .created ∧ task.timeout = 0 ∨
        ∃ due, task.stage = .beforeTerm due ∧ due ≤ s.now) ∧
      t = s.killpg i .SIGTERM delivered (.beforeKill (s.now + task.termTimeout))) ∨
    (task.armed s.isRunning = true ∧ (∃ due, task.stage = .beforeKill due ∧ due ≤ s.now) ∧
      t = { s with sigkillSent := true }.killpg i .SIGKILL delivered (.afterKill (s.now + 1))) := by
  unfold resume at h
  split at h
  · cases h
  split at h
  · exact .inl ⟨_, (Option.some.inj h).symm⟩
  rename_i hDone hCancelling
  cases hStage : task.stage with
  | created =>
      simp only [hStage] at h
      split at h
      · exact .inl ⟨_, (Option.some.inj h).symm⟩
      rename_i hRunning
      have hArmed : task.armed s.isRunning = true := by
        simp_all [SignalsTask.armed]
      split at h
      · exact .inr (.inl ⟨hArmed, rfl, (Option.some.inj h).symm⟩)
      · rename_i hTimeout
        exact .inr (.inr (.inl ⟨hArmed, .inl ⟨rfl, not_not.mp hTimeout⟩, (Option.some.inj h).symm⟩))
  | beforeTerm due =>
      simp only [hStage] at h
      split at h
      · rename_i hDue
        exact .inr (.inr (.inl ⟨by simp [SignalsTask.armed, hStage, hCancelling],
          .inr ⟨due, rfl, hDue⟩, (Option.some.inj h).symm⟩))
      · cases h
  | beforeKill due =>
      simp only [hStage] at h
      split at h
      · rename_i hDue
        exact .inr (.inr (.inr ⟨by simp [SignalsTask.armed, hStage, hCancelling],
          ⟨due, rfl, hDue⟩, (Option.some.inj h).symm⟩))
      · cases h
  | afterKill due =>
      simp only [hStage] at h
      split at h
      · exact .inl ⟨_, (Option.some.inj h).symm⟩
      · cases h
  | done raised => simp [SignalsTask.isDone, hStage] at hDone

/-- A turn of a signals task moves nothing but that task, the signals and the
record of SIGKILL, and a task that is not armed only ends. -/
theorem resume_frame {s t : State} {i : Nat} {task : SignalsTask} {delivered : Bool}
    (h : s.resume i task delivered = some t) :
    ∃ stage kills sigkillSent,
      t = { s with kills := kills, sigkillSent := sigkillSent }.setStage i stage ∧
      (task.armed s.isRunning = true ∨
        (∃ raised, stage = .done raised) ∧ kills = s.kills ∧ sigkillSent = s.sigkillSent) := by
  obtain ⟨raised, rfl⟩ | ⟨hArmed, -, rfl⟩ | ⟨hArmed, -, rfl⟩ | ⟨hArmed, -, rfl⟩ := resume_cases h
  · exact ⟨_, _, _, rfl, .inr ⟨⟨raised, rfl⟩, rfl, rfl⟩⟩
  · exact ⟨_, _, _, rfl, .inl hArmed⟩
  · exact ⟨_, _, _, rfl, .inl hArmed⟩
  · exact ⟨_, _, _, rfl, .inl hArmed⟩

theorem step_resume_frame {s t : State} {i : Nat} {delivered : Bool}
    (h : Program.step s (.resume i delivered) = some t) :
    ∃ stage kills sigkillSent, t = { s with kills := kills, sigkillSent := sigkillSent }.setStage i stage := by
  obtain ⟨task, -, hResume⟩ := Option.bind_eq_some_iff.mp h
  obtain ⟨stage, kills, sigkillSent, hFrame, -⟩ := resume_frame hResume
  exact ⟨stage, kills, sigkillSent, hFrame⟩

/-- Who owns the program, what it is called and what it writes never change. -/
def SameProgram (s t : State) : Prop :=
  t.context = s.context ∧ t.name = s.name ∧ t.rawOutput = s.rawOutput

theorem wait_same (s : State) (frame : Frame) (timeout termTimeout : Time) :
    s.SameProgram (s.wait frame timeout termTimeout) := by
  obtain ⟨processEnd, caller, hEq⟩ := s.wait_eq frame timeout termTimeout
  rw [hEq]
  unfold called
  split <;> exact ⟨rfl, rfl, rfl⟩

theorem communicated_same (s : State) (frame : Frame) : s.SameProgram (s.communicated frame) := by
  obtain ⟨processEnd, output, raised, hEq, -⟩ := s.communicated_eq frame
  obtain ⟨caller, hFinish, -⟩ :=
    { s.cancelSignalsTask with processEnd := processEnd, output := output }.finish_eq frame raised
  rw [hEq, hFinish]
  unfold cancelSignalsTask
  split <;> exact ⟨rfl, rfl, rfl⟩

theorem leave_same (s : State) : s.SameProgram s.leave := by
  rcases s.leave_eq with ⟨_, _, _, hEq⟩ | ⟨cgroupsTask, hEq⟩
  · rw [hEq]
    exact ⟨rfl, rfl, rfl⟩
  · rw [hEq]
    exact { s with cgroupsTask := cgroupsTask }.wait_same .exitKill 0 defaultTermTimeout

end State

theorem step_same {s t : State} {a : Action} (h : step s a = some t) : s.SameProgram t := by
  cases a with
  | wait timeout termTimeout =>
      simp only [step] at h
      split at h <;> cases h
      exact s.wait_same .wait timeout termTimeout
  | kill timeout =>
      simp only [step] at h
      split at h <;> cases h
      exact s.wait_same .kill 0 timeout
  | cancel =>
      simp only [step] at h
      split at h <;> cases h <;> exact ⟨rfl, rfl, rfl⟩
  | leave =>
      simp only [step] at h
      split at h <;> cases h
      exact s.leave_same
  | wake =>
      simp only [step] at h
      split at h
      · split at h <;> cases h
        exact s.wait_same .exitKill 0 defaultTermTimeout
      · cases h
  | communicate =>
      simp only [step] at h
      split at h
      · split at h <;> cases h
        exact s.communicated_same _
      · cases h
  | resume i delivered =>
      obtain ⟨task, -, hResume⟩ := Option.bind_eq_some_iff.mp h
      obtain ⟨stage, kills, sigkillSent, rfl, -⟩ := State.resume_frame hResume
      exact ⟨rfl, rfl, rfl⟩
  | tick _ | exit _ | record | cgroupFound =>
      simp only [step] at h
      split at h <;> cases h
      exact ⟨rfl, rfl, rfl⟩

theorem sameProgram_of_run {ok : State → Action → Prop} {s t : State} {actions : List Action}
    (hRun : Runs step ok s actions t) : s.SameProgram t :=
  hRun.invariant s.SameProgram ⟨rfl, rfl, rfl⟩ fun _ _ _ h _ hStep =>
    have hSame := step_same hStep
    ⟨hSame.1.trans h.1, hSame.2.1.trans h.2.1, hSame.2.2.trans h.2.2⟩

end MirCi.Program
