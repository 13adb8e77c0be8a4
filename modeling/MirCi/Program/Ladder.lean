import MirCi.Program.Teardown

/-! The signals of a program whose calls run to completion. Its only signals
task climbs one rung at a time, SIGTERM then SIGKILL, each after its own sleep,
and is off the ladder once `communicate()` has cancelled it. -/
namespace MirCi.Program

open Python Semantics

/-- No call is cancelled at its await. -/
def Uncancelled (_ : State) (a : Action) : Prop := a ≠ .cancel

/-- The earliest time at which the task may send SIGTERM. -/
def SignalsTask.termDue (task : SignalsTask) : Time := task.called + task.timeout

/-- How far up the ladder signals were sent, and whether SIGKILL was reached. A
signal counts when `os.killpg` is called, delivered or not. -/
inductive Rung (termDue termTimeout : Time) : List KillCall → Bool → Prop where
  | ground : Rung termDue termTimeout [] false
  | term (sent : KillCall) (hSignal : sent.signal = .SIGTERM) (hElapsed : termDue ≤ sent.time) :
      Rung termDue termTimeout [sent] false
  | kill (sent last : KillCall) (hSignal : sent.signal = .SIGTERM)
      (hElapsed : termDue ≤ sent.time) (hLast : last.signal = .SIGKILL)
      (hTermElapsed : sent.time + termTimeout ≤ last.time) :
      Rung termDue termTimeout [sent, last] true

/-- Where the task stands on the ladder, and that no timer is due too early. -/
def Climbs (s : State) (task : SignalsTask) : Prop :=
  match task.stage with
  | .created => s.kills = [] ∧ s.sigkillSent = false
  | .beforeTerm due => s.kills = [] ∧ s.sigkillSent = false ∧ task.termDue ≤ due
  | .beforeKill due => ∃ sent, s.kills = [sent] ∧ s.sigkillSent = false ∧
      sent.signal = .SIGTERM ∧ task.termDue ≤ sent.time ∧ sent.time + task.termTimeout ≤ due
  | .afterKill _ | .done _ => Rung task.termDue task.termTimeout s.kills s.sigkillSent

/-- The signals sent so far are those of the only task. -/
structure Laddered (s : State) : Prop where
  idle : s.tasks = [] → s.kills = [] ∧ s.sigkillSent = false
  clock : ∀ task ∈ s.tasks, task.called ≤ s.now
  climbs : ∀ task ∈ s.tasks, Climbs s task

theorem Climbs.rung {s : State} {task : SignalsTask} (h : Climbs s task) :
    Rung task.termDue task.termTimeout s.kills s.sigkillSent := by
  unfold Climbs at h
  cases hStage : task.stage with
  | created =>
      obtain ⟨hKills, hSent⟩ : s.kills = [] ∧ s.sigkillSent = false := by simpa [hStage] using h
      rw [hKills, hSent]
      exact .ground
  | beforeTerm due =>
      obtain ⟨hKills, hSent, -⟩ : s.kills = [] ∧ s.sigkillSent = false ∧ _ := by
        simpa [hStage] using h
      rw [hKills, hSent]
      exact .ground
  | beforeKill due =>
      rw [hStage] at h
      obtain ⟨sent, hKills, hSent, hSignal, hElapsed, -⟩ := h
      rw [hKills, hSent]
      exact .term sent hSignal hElapsed
  | afterKill due => simpa [hStage] using h
  | done raised => simpa [hStage] using h

/-- Standing on the ladder is about the signals sent, and about nothing else. -/
theorem Climbs.congr {s t : State} {task : SignalsTask} (h : Climbs s task)
    (hKills : t.kills = s.kills) (hSent : t.sigkillSent = s.sigkillSent) : Climbs t task := by
  simpa only [Climbs, hKills, hSent] using h

/-- Cancelling a task leaves it where it is on the ladder. -/
theorem Climbs.cancel {s : State} {task : SignalsTask} (h : Climbs s task) :
    Climbs s task.cancel := by
  unfold SignalsTask.cancel
  split
  · exact h
  · exact h

namespace Laddered

theorem entered (context : Context) (name : String) (rawOutput : List UInt8) (now : Time)
    (cgroupV2 : Bool) : Laddered (entered context name rawOutput now cgroupV2) where
  idle _ := ⟨rfl, rfl⟩
  clock task hMem := by cases hMem
  climbs task hMem := by cases hMem

/-- A step that touches neither the tasks nor the signals keeps the ladder. -/
theorem congr {s t : State} (h : Laddered s) (hTasks : t.tasks = s.tasks)
    (hKills : t.kills = s.kills) (hSent : t.sigkillSent = s.sigkillSent) (hNow : s.now ≤ t.now) :
    Laddered t where
  idle hNone := by
    rw [hKills, hSent]
    exact h.idle (hTasks ▸ hNone)
  clock task hMem := (h.clock task (hTasks ▸ hMem)).trans hNow
  climbs task hMem := (h.climbs task (hTasks ▸ hMem)).congr hKills hSent

/-- A call adds its task at the foot of the ladder. -/
theorem called {s : State} (h : Laddered s) (hSound : Sound s)
    (hCaller : ∀ f, s.caller ≠ .awaiting f) (timeout termTimeout : Time) :
    Laddered (s.called timeout termTimeout) := by
  unfold State.called
  split
  · rename_i hRunning
    have hFresh := hSound.fresh_of_not_over hCaller fun hOver => by
      simp [(hSound.settled hOver).1] at hRunning
    have hTasks := hSound.fresh hFresh
    refine ⟨?_, ?_, ?_⟩
    · intro hNone
      simp [State.createSignalsTask] at hNone
    · intro task hMem
      obtain rfl : task = _ := by simpa [State.createSignalsTask, hTasks] using hMem
      exact le_refl s.now
    · intro task hMem
      obtain rfl : task = _ := by simpa [State.createSignalsTask, hTasks] using hMem
      exact h.idle hTasks
  · exact h

theorem wait {s : State} (h : Laddered s) (hSound : Sound s) (hCaller : ∀ f, s.caller ≠ .awaiting f)
    (frame : Frame) (timeout termTimeout : Time) : Laddered (s.wait frame timeout termTimeout) := by
  obtain ⟨processEnd, caller, hEq⟩ := s.wait_eq frame timeout termTimeout
  rw [hEq]
  exact (h.called hSound hCaller timeout termTimeout).congr rfl rfl rfl (le_refl _)

theorem leave {s : State} (h : Laddered s) (hSound : Sound s)
    (hCaller : ∀ f, s.caller ≠ .awaiting f) : Laddered s.leave := by
  rcases s.leave_eq with ⟨_, _, _, hEq⟩ | ⟨cgroupsTask, hEq⟩
  · rw [hEq]
    exact h.congr rfl rfl rfl (le_refl _)
  · have hSame : Sound { s with cgroupsTask := cgroupsTask } :=
      ⟨hSound.recorded, hSound.fresh, hSound.settled, hSound.single, hSound.awaiting,
        hSound.suspended, hSound.left⟩
    have hLadder : Laddered { s with cgroupsTask := cgroupsTask } :=
      h.congr rfl rfl rfl (le_refl _)
    rw [hEq]
    exact hLadder.wait hSame hCaller .exitKill 0 defaultTermTimeout

/-- `communicate` cancels the task where it stands. -/
theorem communicated {s : State} (h : Laddered s) (hSound : Sound s) (frame : Frame) :
    Laddered (s.communicated frame) := by
  obtain ⟨processEnd, output, raised, hEq, -⟩ := s.communicated_eq frame
  obtain ⟨caller, hFinish, -⟩ :=
    { s.cancelSignalsTask with processEnd := processEnd, output := output }.finish_eq frame raised
  have hCancel : Laddered s.cancelSignalsTask := by
    rcases hSound.single with ⟨hNone, hTasks⟩ | ⟨task, hCurrent, hTasks⟩
    · have hSame : s.cancelSignalsTask = s := by simp [State.cancelSignalsTask, hNone]
      rwa [hSame]
    · have hMem : task ∈ s.tasks := by simp [hTasks]
      have hCalled : task.cancel.called = task.called := by
        unfold SignalsTask.cancel
        split <;> rfl
      rw [State.cancelSignalsTask_eq hCurrent hTasks]
      refine ⟨by simp, ?_, ?_⟩
      · intro other hOther
        obtain rfl := List.mem_singleton.mp hOther
        rw [hCalled]
        exact h.clock task hMem
      · intro other hOther
        obtain rfl := List.mem_singleton.mp hOther
        exact ((h.climbs task hMem).congr rfl rfl).cancel
  rw [hEq, hFinish]
  exact hCancel.congr rfl rfl rfl (le_refl _)

/-- The only task after a turn that suspends it at `stage`. -/
theorem setStage {s : State} {task : SignalsTask} (h : Laddered s) (hTasks : s.tasks = [task])
    (kills : List KillCall) (sigkillSent : Bool) (stage : Stage)
    (hClimbs : ∀ t : State, t.kills = kills → t.sigkillSent = sigkillSent →
      Climbs t { task with stage := stage }) :
    Laddered ({ s with kills := kills, sigkillSent := sigkillSent }.setStage 0 stage) := by
  have hOnly : ({ s with kills := kills, sigkillSent := sigkillSent }.setStage 0 stage).tasks =
      [{ task with stage := stage }] := by
    simp [State.setStage, hTasks]
  refine ⟨by simp [hOnly], ?_, ?_⟩
  · intro other hMem
    rw [hOnly] at hMem
    obtain rfl := List.mem_singleton.mp hMem
    exact h.clock task (by simp [hTasks])
  · intro other hMem
    rw [hOnly] at hMem
    obtain rfl := List.mem_singleton.mp hMem
    exact hClimbs _ rfl rfl

/-- One turn of the task climbs at most one rung, and only when its sleep is over. -/
theorem resume {s t : State} {i : Nat} {task : SignalsTask} {delivered : Bool} (h : Laddered s)
    (hSound : Sound s) (hTask : s.tasks[i]? = some task)
    (hStep : s.resume i task delivered = some t) : Laddered t := by
  obtain ⟨rfl, hTasks⟩ := hSound.only_task hTask
  have hMem : task ∈ s.tasks := by simp [hTasks]
  have hClimbs := h.climbs task hMem
  have hClock := h.clock task hMem
  obtain ⟨raised, rfl⟩ | ⟨-, hStage, rfl⟩ | ⟨-, hStage, rfl⟩ | ⟨-, ⟨due, hStage, hDue⟩, rfl⟩ :=
    State.resume_cases hStep
  · refine h.setStage hTasks s.kills s.sigkillSent _ fun t hKills hSent => ?_
    show Rung task.termDue task.termTimeout t.kills t.sigkillSent
    rw [hKills, hSent]
    exact hClimbs.rung
  · obtain ⟨hKills, hSent⟩ : s.kills = [] ∧ s.sigkillSent = false := by
      simpa [Climbs, hStage] using hClimbs
    refine h.setStage hTasks s.kills s.sigkillSent _ fun t hKills' hSent' => ?_
    exact ⟨hKills'.trans hKills, hSent'.trans hSent, by
      simpa [SignalsTask.termDue] using hClock⟩
  · obtain ⟨hKills, hSent, hElapsed⟩ :
        s.kills = [] ∧ s.sigkillSent = false ∧ task.termDue ≤ s.now := by
      rcases hStage with ⟨hStage, hTimeout⟩ | ⟨due, hStage, hDue⟩
      · obtain ⟨hKills, hSent⟩ : s.kills = [] ∧ s.sigkillSent = false := by
          simpa [Climbs, hStage] using hClimbs
        exact ⟨hKills, hSent, by simpa [SignalsTask.termDue, hTimeout] using hClock⟩
      · obtain ⟨hKills, hSent, hElapsed⟩ :
            s.kills = [] ∧ s.sigkillSent = false ∧ task.termDue ≤ due := by
          simpa [Climbs, hStage] using hClimbs
        exact ⟨hKills, hSent, hElapsed.trans hDue⟩
    refine h.setStage hTasks (s.kills ++ [⟨.SIGTERM, s.now, delivered⟩]) s.sigkillSent _
      fun t hKills' hSent' => ?_
    rw [hKills, List.nil_append] at hKills'
    cases delivered with
    | true => exact ⟨_, hKills', hSent'.trans hSent, rfl, hElapsed, le_refl _⟩
    | false =>
        show Rung task.termDue task.termTimeout t.kills t.sigkillSent
        rw [hKills', hSent', hSent]
        exact .term _ rfl hElapsed
  · rw [Climbs, hStage] at hClimbs
    obtain ⟨sent, hKills, -, hSignal, hElapsed, hTermElapsed⟩ := hClimbs
    refine h.setStage hTasks (s.kills ++ [⟨.SIGKILL, s.now, delivered⟩]) true _
      fun t hKills' hSent' => ?_
    have hRung : Rung task.termDue task.termTimeout t.kills t.sigkillSent := by
      rw [hKills', hSent', hKills]
      exact .kill sent _ hSignal hElapsed rfl (hTermElapsed.trans hDue)
    cases delivered with
    | true => exact hRung
    | false => exact hRung

/-- Every step keeps the ladder. -/
theorem step {s t : State} {a : Action} (h : Laddered s) (hSound : Sound s)
    (hStep : step s a = some t) : Laddered t := by
  cases a with
  | wait timeout termTimeout =>
      cases hCaller : s.caller <;> simp only [Program.step, hCaller] at hStep <;> cases hStep
      exact h.wait hSound (by simp [hCaller]) _ _ _
  | kill timeout =>
      cases hCaller : s.caller <;> simp only [Program.step, hCaller] at hStep <;> cases hStep
      exact h.wait hSound (by simp [hCaller]) _ _ _
  | cancel =>
      simp only [Program.step] at hStep
      split at hStep <;> cases hStep <;> exact h.congr rfl rfl rfl (le_refl _)
  | leave =>
      cases hCaller : s.caller <;> simp only [Program.step, hCaller] at hStep <;> cases hStep
      exact h.leave hSound (by simp [hCaller])
  | wake =>
      cases hCaller : s.caller <;> simp only [Program.step, hCaller] at hStep <;>
        first | cases hStep | skip
      split at hStep <;> cases hStep
      exact h.wait hSound (by simp [hCaller]) _ _ _
  | tick elapsed =>
      simp only [Program.step] at hStep
      split at hStep <;> cases hStep
      rename_i hElapsed
      exact h.congr rfl rfl rfl (by simpa using hElapsed)
  | communicate =>
      cases hCaller : s.caller <;> simp only [Program.step, hCaller] at hStep <;>
        first | cases hStep | skip
      split at hStep <;> cases hStep
      exact h.communicated hSound _
  | resume i delivered =>
      obtain ⟨task, hTask, hResume⟩ := Option.bind_eq_some_iff.mp hStep
      exact h.resume hSound hTask hResume
  | exit _ | record | cgroupFound =>
      simp only [Program.step] at hStep
      split at hStep <;> cases hStep
      exact h.congr rfl rfl rfl (le_refl _)

end Laddered

/-- A wait on a process that is over sends nothing. -/
theorem State.Over.wait {s : State} (h : s.Over) (hRunning : s.isRunning = false) (frame : Frame)
    (timeout termTimeout : Time) :
    (s.wait frame timeout termTimeout).Over ∧
      (s.wait frame timeout termTimeout).kills = s.kills := by
  obtain ⟨raised, hEq⟩ := State.awaitEnd_over h frame
  obtain ⟨caller, hFinish, -⟩ := s.finish_eq frame raised
  rw [State.wait_of_not_running hRunning, hEq, hFinish]
  exact ⟨h, rfl⟩

/-- After `communicate()` the tasks fall silent: no step signals any more, and
none brings the coroutine back. -/
theorem silent_step {s t : State} {a : Action} (hSound : Sound s) (hOver : s.Over)
    (hStep : step s a = some t) : t.Over ∧ t.kills = s.kills := by
  have hRunning := (hSound.settled hOver).1
  have hCaller : ∀ f, s.caller ≠ .awaiting f := by
    intro f hf
    have hSuspended := hSound.awaiting f hf
    rcases hOver with hEnd | hEnd <;> simp [hEnd] at hSuspended
  cases a with
  | wait timeout termTimeout =>
      simp only [step] at hStep
      split at hStep <;> cases hStep
      exact hOver.wait hRunning _ _ _
  | kill timeout =>
      simp only [step] at hStep
      split at hStep <;> cases hStep
      exact hOver.wait hRunning _ _ _
  | cancel =>
      simp only [step] at hStep
      split at hStep <;> rename_i hAwait <;> first | exact absurd hAwait (hCaller _) | cases hStep
  | leave =>
      simp only [step] at hStep
      split at hStep <;> cases hStep
      obtain ⟨cgroupsTask, caller, hEq⟩ := State.leave_over hOver hRunning
      rw [hEq]
      exact ⟨hOver, rfl⟩
  | wake =>
      simp only [step] at hStep
      split at hStep
      · split at hStep <;> cases hStep
        exact hOver.wait hRunning _ _ _
      · cases hStep
  | communicate =>
      simp only [step] at hStep
      cases hStep
  | resume i delivered =>
      obtain ⟨task, hTask, hResume⟩ := Option.bind_eq_some_iff.mp hStep
      obtain ⟨stage, kills, sigkillSent, rfl, hArmed | ⟨-, hKills, -⟩⟩ :=
        State.resume_frame hResume
      · exact absurd ⟨task, List.mem_of_getElem? hTask, hArmed⟩ (hSound.settled hOver).2
      · exact ⟨hOver, hKills⟩
  | tick _ | exit _ | record | cgroupFound =>
      simp only [step] at hStep
      split at hStep <;> cases hStep
      exact ⟨hOver, rfl⟩

/-- The timeouts of the call the action makes, `__aexit__`'s own `kill` included. -/
def Action.timeouts : Action → Option (Time × Time)
  | .wait timeout termTimeout => some (timeout, termTimeout)
  | .kill timeout => some (0, timeout)
  | .leave | .wake => some (0, defaultTermTimeout)
  | _ => none

/-- A call of the run, made at `called` with these timeouts, found the process
running. -/
def FoundRunning (start : State) (actions : List Action) (called timeout termTimeout : Time) :
    Prop :=
  ∃ before a after s, actions = before ++ a :: after ∧ Runs step Any start before s ∧
    s.isRunning = true ∧ s.now = called ∧ a.timeouts = some (timeout, termTimeout)

/-- The call a signals task was created by. -/
def SignalsTask.call (task : SignalsTask) : Time × Time × Time :=
  (task.called, task.timeout, task.termTimeout)

theorem SignalsTask.cancel_call (task : SignalsTask) : task.cancel.call = task.call := by
  unfold SignalsTask.cancel
  split <;> rfl

/-- Resuming or cancelling a task leaves the calls of all of them. -/
theorem modify_calls (tasks : List SignalsTask) (i : Nat) {f : SignalsTask → SignalsTask}
    (hCall : ∀ task, (f task).call = task.call) :
    (tasks.modify i f).map SignalsTask.call = tasks.map SignalsTask.call := by
  apply List.ext_getElem (by simp)
  intro j hj hj'
  simp only [List.getElem_map, List.getElem_modify]
  split
  · exact hCall _
  · rfl

theorem State.cancelSignalsTask_calls (s : State) :
    s.cancelSignalsTask.tasks.map SignalsTask.call = s.tasks.map SignalsTask.call := by
  unfold State.cancelSignalsTask
  split
  · rfl
  · exact modify_calls s.tasks _ SignalsTask.cancel_call

/-- Between the two states the call `a` makes created its task, or no task was
created. -/
def Calls (s : State) (a : Action) (t : State) : Prop :=
  (∃ timeout termTimeout, a.timeouts = some (timeout, termTimeout) ∧ s.isRunning = true ∧
    t.tasks.map SignalsTask.call = s.tasks.map SignalsTask.call ++
      [(s.now, timeout, termTimeout)]) ∨
  t.tasks.map SignalsTask.call = s.tasks.map SignalsTask.call

theorem Calls.wait (s : State) {a : Action} (frame : Frame) {timeout termTimeout : Time}
    (hTimeouts : a.timeouts = some (timeout, termTimeout)) :
    Calls s a (s.wait frame timeout termTimeout) := by
  obtain ⟨processEnd, caller, hEq⟩ := s.wait_eq frame timeout termTimeout
  rw [hEq]
  unfold State.called
  split
  · rename_i hRunning
    exact .inl ⟨timeout, termTimeout, hTimeouts, hRunning, by
      simp [State.createSignalsTask, SignalsTask.call]⟩
  · exact .inr rfl

/-- A step creates a task for a call that finds the process running, or leaves
the tasks' calls as they are. -/
theorem step_calls {s t : State} {a : Action} (hStep : step s a = some t) : Calls s a t := by
  cases a with
  | wait timeout termTimeout =>
      simp only [step] at hStep
      split at hStep <;> cases hStep
      exact .wait s .wait rfl
  | kill timeout =>
      simp only [step] at hStep
      split at hStep <;> cases hStep
      exact .wait s .kill rfl
  | cancel =>
      simp only [step] at hStep
      split at hStep <;> cases hStep <;> exact .inr rfl
  | leave =>
      simp only [step] at hStep
      split at hStep <;> cases hStep
      rcases s.leave_eq with ⟨_, _, _, hEq⟩ | ⟨cgroupsTask, hEq⟩
      · exact .inr (by rw [hEq])
      · rw [hEq]
        exact Calls.wait { s with cgroupsTask := cgroupsTask } .exitKill rfl
  | wake =>
      simp only [step] at hStep
      split at hStep
      · split at hStep <;> cases hStep
        exact .wait s .exitKill rfl
      · cases hStep
  | communicate =>
      simp only [step] at hStep
      split at hStep
      · split at hStep <;> cases hStep
        rename_i frame _ _
        obtain ⟨processEnd, output, raised, hEq, -⟩ := s.communicated_eq frame
        obtain ⟨caller, hFinish, -⟩ :=
          { s.cancelSignalsTask with processEnd := processEnd, output := output }.finish_eq
            frame raised
        rw [hEq, hFinish]
        exact .inr s.cancelSignalsTask_calls
      · cases hStep
  | resume i delivered =>
      obtain ⟨stage, kills, sigkillSent, rfl⟩ := State.step_resume_frame hStep
      exact .inr (modify_calls s.tasks i fun _ => rfl)
  | tick _ | exit _ | record | cgroupFound =>
      simp only [step] at hStep
      split at hStep <;> cases hStep
      exact .inr rfl

/-- Every task of a run was created by a call that found the process running. -/
theorem foundRunning_of_mem {start s : State} {actions : List Action}
    {ok : State → Action → Prop} (hRun : Runs step ok start actions s) (hStart : start.tasks = [])
    {called timeout termTimeout : Time}
    (hMem : (called, timeout, termTimeout) ∈ s.tasks.map SignalsTask.call) :
    FoundRunning start actions called timeout termTimeout := by
  induction hRun with
  | nil => simp [hStart] at hMem
  | @snoc t u actions a prior admitted last ih =>
      have hPrior : (called, timeout, termTimeout) ∈ t.tasks.map SignalsTask.call →
          FoundRunning start (actions ++ [a]) called timeout termTimeout := by
        intro hOld
        obtain ⟨before, b, after, v, rfl, hFound⟩ := ih hOld
        exact ⟨before, b, after ++ [a], v, by simp, hFound⟩
      obtain ⟨newTimeout, newTerm, hTimeouts, hRunning, hCalls⟩ | hCalls := step_calls last
      · rw [hCalls, List.mem_append] at hMem
        rcases hMem with hOld | hNew
        · exact hPrior hOld
        · simp only [List.mem_singleton, Prod.mk.injEq] at hNew
          obtain ⟨rfl, rfl, rfl⟩ := hNew
          exact ⟨actions, a, [], t, rfl, prior.mono fun _ _ _ => trivial, hRunning, rfl, hTimeouts⟩
      · exact hPrior (hCalls ▸ hMem)

/-- Both invariants hold all along a run in which no call is cancelled. -/
theorem sound_laddered_of_run {context : Context} {name : String} {rawOutput : List UInt8}
    {now : Time} {cgroupV2 : Bool} {actions : List Action} {s : State}
    (hRun : Runs step Uncancelled (entered context name rawOutput now cgroupV2) actions s) :
    Sound s ∧ Laddered s :=
  hRun.invariant (fun s => Sound s ∧ Laddered s)
    ⟨.entered context name rawOutput now cgroupV2, .entered context name rawOutput now cgroupV2⟩
    fun _ _ _ h hCancel hStep =>
      ⟨h.1.step (fun hEq => absurd hEq hCancel) hStep, h.2.step h.1 hStep⟩

/-- The kills of a run and SIGKILL's record stand on one rung of one ladder. -/
theorem Laddered.rung {s : State} (h : Laddered s) (hSound : Sound s) :
    (s.kills = [] ∧ s.sigkillSent = false) ∨
      ∃ task ∈ s.tasks, Rung task.termDue task.termTimeout s.kills s.sigkillSent := by
  obtain ⟨-, hTasks⟩ | ⟨task, -, hTasks⟩ := hSound.single
  · exact .inl (h.idle hTasks)
  · have hMem : task ∈ s.tasks := by simp [hTasks]
    exact .inr ⟨task, hMem, (h.climbs task hMem).rung⟩

theorem Rung.sigkill_iff {termDue termTimeout : Time} {kills : List KillCall} {sigkillSent : Bool}
    (h : Rung termDue termTimeout kills sigkillSent) :
    sigkillSent = true ↔ .SIGKILL ∈ kills.map KillCall.signal := by
  cases h with
  | ground => simp
  | term sent hSignal hElapsed => simp [hSignal]
  | kill sent last hSignal hElapsed hLast hTermElapsed => simp [hLast]

/-- `sigkill_sent` records whether the ladder reached SIGKILL. -/
theorem Laddered.sigkill_iff {s : State} (h : Laddered s) (hSound : Sound s) :
    s.sigkillSent = true ↔ .SIGKILL ∈ s.kills.map KillCall.signal := by
  obtain ⟨hKills, hSent⟩ | ⟨task, -, hRung⟩ := h.rung hSound
  · simp [hKills, hSent]
  · exact hRung.sigkill_iff

/-- The signals of a program whose calls all run to completion: a prefix of
SIGTERM, SIGKILL, neither too early, and none once `communicate()` is over. -/
theorem signals_climb_ladder (context : Context) (name : String) (rawOutput : List UInt8)
    (now : Time) (cgroupV2 : Bool) (actions : List Action) (s : State)
    (hRun : Runs step Uncancelled (entered context name rawOutput now cgroupV2) actions s) :
    s.kills.map KillCall.signal <+: [.SIGTERM, .SIGKILL] ∧
    (∀ sent ∈ s.kills, sent.signal = .SIGTERM →
      ∃ called timeout termTimeout,
        FoundRunning (entered context name rawOutput now cgroupV2) actions
          called timeout termTimeout ∧
        called + timeout ≤ sent.time) ∧
    (∀ last ∈ s.kills, last.signal = .SIGKILL →
      ∃ called timeout termTimeout,
        FoundRunning (entered context name rawOutput now cgroupV2) actions
          called timeout termTimeout ∧
        ∃ sent ∈ s.kills, sent.signal = .SIGTERM ∧ sent.time + termTimeout ≤ last.time) ∧
    (s.Over → ∀ later t, Runs step Uncancelled s later t → t.kills = s.kills) ∧
    (s.sigkillSent = true ↔ .SIGKILL ∈ s.kills.map KillCall.signal) := by
  obtain ⟨hSound, hLadder⟩ := sound_laddered_of_run hRun
  have hSilent : s.Over → ∀ later t, Runs step Uncancelled s later t → t.kills = s.kills := by
    intro hOver later t hLater
    have hInv := hLater.invariant (fun t => Sound t ∧ t.Over ∧ t.kills = s.kills)
      ⟨hSound, hOver, rfl⟩ fun t a u ⟨hSound, hOver, hKills⟩ hCancel hStep => by
        obtain ⟨hOver', hKills'⟩ := silent_step hSound hOver hStep
        exact ⟨hSound.step (fun hEq => absurd hEq hCancel) hStep, hOver', hKills'.trans hKills⟩
    exact hInv.2.2
  have hFound : ∀ task ∈ s.tasks,
      FoundRunning (entered context name rawOutput now cgroupV2) actions
        task.called task.timeout task.termTimeout := by
    intro task hMem
    exact foundRunning_of_mem hRun rfl (List.mem_map_of_mem hMem)
  have hSigkill := hLadder.sigkill_iff hSound
  rcases hLadder.rung hSound with ⟨hKills, -⟩ | ⟨task, hMem, hRung⟩
  · rw [hKills] at hSilent hSigkill ⊢
    exact ⟨by simp, by simp, by simp, hSilent, hSigkill⟩
  · generalize hKills : s.kills = kills at hRung hSilent hSigkill ⊢
    generalize hSent : s.sigkillSent = sigkillSent at hRung hSigkill ⊢
    cases hRung with
    | ground => exact ⟨by simp, by simp, by simp, hSilent, hSigkill⟩
    | term sent hSignal hElapsed =>
        refine ⟨by simp [hSignal], ?_, by simp [hSignal], hSilent, hSigkill⟩
        intro other hOther _
        obtain rfl := List.mem_singleton.mp hOther
        exact ⟨_, _, _, hFound task hMem, hElapsed⟩
    | kill sent last hSignal hElapsed hLast hTermElapsed =>
        refine ⟨by simp [hSignal, hLast], ?_, ?_, hSilent, hSigkill⟩
        · intro other hOther hOtherSignal
          rcases List.mem_pair.mp hOther with rfl | rfl
          · exact ⟨_, _, _, hFound task hMem, hElapsed⟩
          · simp [hLast] at hOtherSignal
        · intro other hOther hOtherSignal
          rcases List.mem_pair.mp hOther with rfl | rfl
          · simp [hSignal] at hOtherSignal
          · exact ⟨_, _, _, hFound task hMem, sent, by simp, hSignal, hTermElapsed⟩

theorem signals_climb_ladder_run :
    ∃ s, Runs step Uncancelled (entered .program "app" [] 0 true)
      [.wait 1 2, .resume 0 true, .tick 1, .resume 0 true, .tick 2, .resume 0 true, .exit (-9),
        .record, .communicate] s ∧
      s.kills.map KillCall.signal = [.SIGTERM, .SIGKILL] ∧ s.sigkillSent = true := by
  have hSome : (execute step (entered .program "app" [] 0 true)
      [.wait 1 2, .resume 0 true, .tick 1, .resume 0 true, .tick 2, .resume 0 true, .exit (-9),
        .record, .communicate]).map (fun s => s.kills.map KillCall.signal) =
      some [.SIGTERM, .SIGKILL] := by decide +kernel
  obtain ⟨s, hExecute, hKills⟩ := Option.map_eq_some_iff.mp hSome
  have hRun : Runs step Uncancelled (entered .program "app" [] 0 true) _ s :=
    runs_of_execute hExecute (by simp [Uncancelled])
  have hSent := (signals_climb_ladder .program "app" [] 0 true _ s hRun).2.2.2.2
  exact ⟨s, hRun, hKills, hSent.mpr (by rw [hKills]; decide)⟩

end MirCi.Program
