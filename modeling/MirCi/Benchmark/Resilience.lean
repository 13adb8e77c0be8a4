import MirCi.Benchmark.Benchmarker
import MirCi.Benchmark.Cgroup

/-! Whether a program whose cgroup cannot be had stops the benchmark. `poll` only
handles `RuntimeError`; the readers raise nothing else, but the resolver of the
cgroup and the two `get_cgroup` methods do. -/
namespace MirCi.Benchmark

open Python Semantics

/-- Nothing but a `RuntimeError` is raised. -/
def OnlyRuntimeError {α : Type} (result : Except Exc α) : Prop :=
  ∀ e, result = .error e → e.isa .runtimeError = true

theorem onlyRuntimeError_ok {α : Type} (a : α) : OnlyRuntimeError (.ok a) := nofun

theorem onlyRuntimeError_error {α : Type} (e : Exc) :
    OnlyRuntimeError (.error e : Except Exc α) ↔ e.isa .runtimeError = true := by
  constructor
  · intro h
    exact h e rfl
  · rintro h e ⟨⟩
    exact h

theorem onlyRuntimeError_bind {α β : Type} (x : Except Exc α) (f : α → Except Exc β) :
    OnlyRuntimeError (x >>= f) ↔
      OnlyRuntimeError x ∧ ∀ a, x = .ok a → OnlyRuntimeError (f a) := by
  cases x with
  | error e =>
      have hBind : ((.error e : Except Exc α) >>= f) = .error e := rfl
      rw [hBind, onlyRuntimeError_error, onlyRuntimeError_error]
      simp
  | ok a =>
      have hBind : ((.ok a : Except Exc α) >>= f) = f a := rfl
      rw [hBind]
      simp [onlyRuntimeError_ok]

/-- The file can be read and is empty or begins with the line of the unified
hierarchy. -/
def Honest (file : FileRead) : Prop :=
  ∃ content, file = .ok content ∧ (content.toList = [] ∨ ['0', ':', ':'] <+: content.toList)

/-- The cgroup the file names. -/
def named : FileRead → Option Path
  | .error _ => none
  | .ok content =>
      match readline content.toList with
      | '0' :: ':' :: ':' :: rest =>
          some (Path.parse (strip ("/sys/fs/cgroup/" ++ String.ofList rest)))
      | _ => none

/-- Every file read until the process has left its parent's cgroup is honest. -/
def HonestUntilMoved (parentPath : Path) : ℕ → (ℕ → FileRead) → Prop
  | 0, _ => True
  | left + 1, attempts =>
      Honest (attempts 0) ∧
        (named (attempts 0) = some parentPath →
          HonestUntilMoved parentPath left fun n => attempts (n + 1))

/-- Every file the resolver gets to read is honest, and it may count attempts. -/
def Resolution.Honest (slowdown : ℚ) (r : Resolution) : Prop :=
  ∃ attempts, maxAttempts slowdown = .ok attempts ∧ Benchmark.Honest r.own ∧
    ∀ parentPath, named r.own = some parentPath →
      Benchmark.Honest r.first ∧
        ((named r.first).isSome = true → HonestUntilMoved parentPath attempts.toNat r.attempts)

/-- There is a cgroup task, it was not cancelled, and its files are honest. -/
def Benchmarked.Tolerable (slowdown : ℚ) : Benchmarked → Prop
  | .program (some (.ran r)) => r.Honest slowdown
  | .displayServer (some (some (.ran r))) => r.Honest slowdown
  | _ => False

theorem unified_line {chars : List Char} :
    ['0', ':', ':'] <+: chars ↔ ∃ rest, readline chars = '0' :: ':' :: ':' :: rest := by
  constructor
  · rintro ⟨rest, rfl⟩
    exact ⟨readline rest, by simp [readline_cons]⟩
  · rintro ⟨rest, hLine⟩
    obtain ⟨second, rfl, hSecond⟩ := readline_eq_cons hLine (by decide)
    obtain ⟨third, rfl, hThird⟩ := readline_eq_cons hSecond (by decide)
    obtain ⟨fourth, rfl, -⟩ := readline_eq_cons hThird (by decide)
    exact ⟨fourth, rfl⟩

theorem honest_iff (content : String) :
    Honest (.ok content) ↔ readline content.toList = [] ∨
      ∃ rest, readline content.toList = '0' :: ':' :: ':' :: rest := by
  rw [readline_eq_nil, ← unified_line]
  constructor
  · rintro ⟨other, ⟨⟩, h⟩
    exact h
  · intro h
    exact ⟨content, rfl, h⟩

/-- An honest file names a cgroup or is empty, which is a `RuntimeError`. -/
theorem getCgroupDirInternal_cases (pid : ℕ) (file : FileRead) :
    (∃ path, named file = some path ∧ getCgroupDirInternal pid file = .ok path ∧ Honest file) ∨
    (named file = none ∧ ∃ e, getCgroupDirInternal pid file = .error e ∧
      (e.isa .runtimeError = true ↔ Honest file)) := by
  cases file with
  | error e =>
      refine .inr ⟨rfl, e.val, rfl, ?_⟩
      rw [(Exc.isa_of_fileError e.property).2]
      constructor
      · intro h
        cases h
      · rintro ⟨content, hContent, -⟩
        cases hContent
  | ok content =>
      have hInternal : getCgroupDirInternal pid (.ok content) =
          cgroupOfLine pid (readline content.toList) := rfl
      rw [hInternal, honest_iff, named]
      cases hLine : readline content.toList using cgroupOfLine.fun_cases_unfolding pid with
      | case1 => exact .inr ⟨rfl, _, rfl, by simp [Exc.isa, ExcClass.mro]⟩
      | case2 rest => exact .inl ⟨_, rfl, rfl, .inr ⟨rest, rfl⟩⟩
      | case3 line hNil hUnified =>
          refine .inr ⟨?_, _, rfl, ?_⟩
          · split
            · exact absurd rfl (hUnified _)
            · rfl
          · constructor
            · intro h
              cases h
            · rintro (hEmpty | ⟨rest, hRest⟩)
              · exact absurd hEmpty hNil
              · exact absurd hRest (hUnified rest)

/-- Waiting for the move raises nothing but `RuntimeError` exactly when every
file it reads is honest. -/
theorem awaitMove_onlyRuntimeError (pid : ℕ) (parentPath : Path) (left : ℕ)
    (attempts : ℕ → FileRead) :
    OnlyRuntimeError (awaitMove pid parentPath left attempts) ↔
      HonestUntilMoved parentPath left attempts := by
  induction left generalizing attempts with
  | zero =>
      rw [awaitMove, onlyRuntimeError_error]
      simp [HonestUntilMoved, Exc.isa, ExcClass.mro]
  | succ left ih =>
      rw [awaitMove, onlyRuntimeError_bind, HonestUntilMoved]
      rcases getCgroupDirInternal_cases pid (attempts 0) with
        ⟨path, hNamed, hOk, hHonest⟩ | ⟨hNamed, e, hError, hHonest⟩
      · rw [hOk, hNamed]
        simp only [onlyRuntimeError_ok, true_and, hHonest, Except.ok.injEq, forall_eq',
          Option.some.injEq]
        by_cases hMoved : path = parentPath
        · simp [hMoved, ih]
        · simp [hMoved, onlyRuntimeError_ok]
      · rw [hError, hNamed, onlyRuntimeError_error, hHonest]
        simp

theorem getCgroupDir_onlyRuntimeError (slowdown : ℚ) (r : Resolution) :
    OnlyRuntimeError (getCgroupDir slowdown r) ↔ r.Honest slowdown := by
  have hAttempts : ∀ e, maxAttempts slowdown = .error e → e.isa .runtimeError = false := by
    intro e hError
    unfold maxAttempts at hError
    split at hError <;> cases hError
    rfl
  rw [getCgroupDir, onlyRuntimeError_bind, Resolution.Honest]
  cases hMax : maxAttempts slowdown with
  | error e =>
      rw [onlyRuntimeError_error, hAttempts e hMax]
      simp
  | ok attempts =>
      simp only [onlyRuntimeError_ok, true_and, Except.ok.injEq, forall_eq', exists_eq_left']
      rw [onlyRuntimeError_bind]
      rcases getCgroupDirInternal_cases r.ownPid r.own with
        ⟨parentPath, hParent, hOk, hOwn⟩ | ⟨hParent, e, hError, hOwn⟩
      · rw [hOk, hParent]
        simp only [onlyRuntimeError_ok, true_and, hOwn, Except.ok.injEq, forall_eq',
          Option.some.injEq]
        rw [onlyRuntimeError_bind]
        rcases getCgroupDirInternal_cases r.pid r.first with
          ⟨path, hFirst, hOkFirst, hHonest⟩ | ⟨hFirst, e, hError, hHonest⟩
        · rw [hOkFirst, hFirst]
          simp [onlyRuntimeError_ok, hHonest, awaitMove_onlyRuntimeError]
        · rw [hError, hFirst, onlyRuntimeError_error, hHonest]
          simp
      · rw [hError, hParent, onlyRuntimeError_error, hOwn]
        simp

/-- All failures of `get_cgroup` are `RuntimeError`s exactly when the program is
tolerable. -/
theorem getCgroup_onlyRuntimeError (slowdown : ℚ) (benchmarked : Benchmarked) :
    OnlyRuntimeError (benchmarked.getCgroup slowdown) ↔ benchmarked.Tolerable slowdown := by
  have hProgram : ∀ cgroupsTask, OnlyRuntimeError (programGetCgroup slowdown cgroupsTask) ↔
      (Benchmarked.program cgroupsTask).Tolerable slowdown := by
    intro cgroupsTask
    cases cgroupsTask with
    | none =>
        rw [programGetCgroup, onlyRuntimeError_error]
        simp [Benchmarked.Tolerable, Exc.isa, ExcClass.mro]
    | some task =>
        cases task with
        | cancelled =>
            rw [programGetCgroup, onlyRuntimeError_error]
            simp [Benchmarked.Tolerable, Exc.isa, ExcClass.mro]
        | ran r => exact getCgroupDir_onlyRuntimeError slowdown r
  cases benchmarked with
  | program cgroupsTask => exact hProgram cgroupsTask
  | displayServer server =>
      cases server with
      | none =>
          rw [Benchmarked.getCgroup, onlyRuntimeError_error]
          simp [Benchmarked.Tolerable, Exc.isa, ExcClass.mro]
      | some cgroupsTask =>
          rw [Benchmarked.getCgroup, hProgram cgroupsTask]
          cases cgroupsTask with
          | none => rfl
          | some task => cases task <;> rfl

theorem orRuntimeError_onlyRuntimeError (text : String) {result : Except Exc ℤ}
    (h : ∀ e, result = .error e → e.isa .exception = true) :
    OnlyRuntimeError (orRuntimeError text result) := by
  cases result with
  | ok n => exact onlyRuntimeError_ok n
  | error e =>
      rw [orRuntimeError, onlyRuntimeError_error, h e rfl]
      rfl

/-- Reading a line and going on raises an `Exception` if going on does. -/
theorem readFile_exception (file : FileRead) (f : String → Except Exc ℤ)
    (h : ∀ line e, f line = .error e → e.isa .exception = true) (e : Exc)
    (hError : (readFile file >>= f) = .error e) : e.isa .exception = true := by
  cases file with
  | error fileError =>
      cases hError
      exact (Exc.isa_of_fileError fileError.property).1
  | ok content => exact h _ e hError

theorem int_exception (text : String) (e : Exc) (h : int text = .error e) :
    e.isa .exception = true := by
  have hValue : e.cls = .valueError := by
    unfold int at h
    dsimp only at h
    split at h
    · cases h
      rfl
    · split at h <;> cases h
      rfl
  simp [Exc.isa, hValue, ExcClass.mro]

theorem getCpuTimeMicroseconds_onlyRuntimeError (path : Path) (file : FileRead) :
    OnlyRuntimeError (getCpuTimeMicroseconds path file) := by
  apply orRuntimeError_onlyRuntimeError
  apply readFile_exception
  intro line e hError
  split at hError
  · exact int_exception _ e hError
  · cases hError
    rfl
  · cases hError
    rfl

theorem getCurrentMemory_onlyRuntimeError (path : Path) (file : FileRead) :
    OnlyRuntimeError (getCurrentMemory path file) := by
  apply orRuntimeError_onlyRuntimeError
  apply readFile_exception
  exact int_exception

theorem getPeakMemory_onlyRuntimeError (path : Path) (file : FileRead) :
    OnlyRuntimeError (getPeakMemory path file) := by
  apply orRuntimeError_onlyRuntimeError
  apply readFile_exception
  exact int_exception

variable {P : Type}

/-- A record's turn survives exactly when the program is tolerable: once there is
a cgroup, no reader stops it. -/
theorem poll_survives_iff (slowdown : ℚ) (info : ProcessInfo P) (target : Target) :
    (∃ result, info.poll (target.reads slowdown) = .ok result) ↔
      target.benchmarked.Tolerable slowdown := by
  have hSample : OnlyRuntimeError (info.sample (target.reads slowdown)) ↔
      target.benchmarked.Tolerable slowdown := by
    rw [← getCgroup_onlyRuntimeError]
    constructor
    · intro h e hError
      apply h e
      apply ProcessInfo.sample_of_no_cgroup
      simp [Target.reads, hError, bind, Except.bind]
    · intro hCgroup e hError
      have hReader : ∀ read : Path → Except Exc ℤ, (∀ path, OnlyRuntimeError (read path)) →
          OnlyRuntimeError (target.benchmarked.getCgroup slowdown >>= read) := by
        intro read hRead
        rw [onlyRuntimeError_bind]
        exact ⟨hCgroup, fun path _ => hRead path⟩
      rcases ProcessInfo.sample_raised hError with h | h | h | h
      · have hNone : OnlyRuntimeError (target.reads slowdown).getCgroup := by
          rw [Target.reads, onlyRuntimeError_bind]
          exact ⟨hCgroup, fun _ _ => onlyRuntimeError_ok _⟩
        exact hNone e h
      · exact hReader _ (fun path => getCpuTimeMicroseconds_onlyRuntimeError path _) e h
      · exact hReader _ (fun path => getCurrentMemory_onlyRuntimeError path _) e h
      · exact hReader _ (fun path => getPeakMemory_onlyRuntimeError path _) e h
  rw [← hSample]
  obtain ⟨sampled, hOk, hPoll⟩ | ⟨ex, hError, hRuntime, hPoll⟩ | ⟨ex, hError, hOther, hPoll⟩ :=
    info.poll_cases (target.reads slowdown)
  · rw [hPoll, hOk]
    simp [onlyRuntimeError_ok]
  · rw [hPoll, hError, onlyRuntimeError_error]
    simp [hRuntime]
  · rw [hPoll, hError, onlyRuntimeError_error]
    simp [hOther]

/-- While the task polls, exactly the programs of the dictionary are recorded. -/
structure Enlisted (programs : Dict String P) (s : State P) : Prop where
  same : s.programs = programs
  recorded : ∀ name ∈ s.backend.dataRecords.keys, name ∈ programs.keys
  polling : s.task = some .pending →
    s.running = true ∧ ∀ name ∈ programs.keys, name ∈ s.backend.dataRecords.keys

theorem mem_keys_addAll (items : List (String × P)) (b : CgroupsBackend P) (name : String) :
    name ∈ (items.foldl (fun b item => b.add item.1 item.2) b).dataRecords.keys ↔
      name ∈ b.dataRecords.keys ∨ name ∈ items.map Prod.fst := by
  induction items generalizing b with
  | nil => simp
  | cons item rest ih =>
      rw [List.foldl_cons, ih, CgroupsBackend.add, Dict.mem_keys_set, List.map_cons, List.mem_cons]
      tauto

theorem enteredBy_subset (raises : Raises) (items : List (String × P)) :
    ∀ item ∈ enteredBy raises items, item ∈ items := by
  induction items generalizing raises with
  | nil => simp [enteredBy]
  | cons first rest ih =>
      intro item hItem
      rw [enteredBy] at hItem
      split at hItem
      · cases hItem
      · rcases List.mem_cons.mp hItem with rfl | hRest
        · exact List.mem_cons_self
        · exact List.mem_cons_of_mem _ (ih _ item hRest)

theorem enteredBy_of_no_failure {raises : Raises} {items : List (String × P)}
    (h : enterFailure raises items = none) : enteredBy raises items = items := by
  induction items generalizing raises with
  | nil => rfl
  | cons first rest ih =>
      rw [enterFailure] at h
      split at h
      · cases h
      · rename_i hFirst
        rw [enteredBy, hFirst, ih h]

theorem Enlisted.idle {programs : Dict String P} {s : State P} (h : Enlisted programs s)
    (hIdle : s.running = false) : s.task ≠ some .pending := by
  intro hPending
  have hRunning := (h.polling hPending).1
  rw [hIdle] at hRunning
  cases hRunning

theorem cancelAndAwait_not_pending (task : TaskState) : task.cancelAndAwait.1 ≠ .pending := by
  cases task <;> simp [TaskState.cancelAndAwait]

theorem Enlisted.aenter {programs : Dict String P} {s : State P} (h : Enlisted programs s)
    (raises unwinding : Raises) : Enlisted programs (s.aenter raises unwinding) := by
  cases hRunning : s.running with
  | true =>
      rw [State.aenter_of_running raises unwinding hRunning]
      exact ⟨h.same, h.recorded, h.polling⟩
  | false =>
      have hIdle := h.idle hRunning
      have hKeys : ∀ name, name ∈ ((enteredBy raises s.programs.items).foldl
          (fun b item => b.add item.1 item.2) s.backend).dataRecords.keys →
            name ∈ programs.keys := by
        intro name hName
        rw [mem_keys_addAll] at hName
        rcases hName with hOld | hNew
        · exact h.recorded name hOld
        · obtain ⟨item, hItem, rfl⟩ := List.mem_map.mp hNew
          rw [← h.same]
          exact List.mem_map_of_mem (enteredBy_subset raises _ item hItem)
      simp only [State.aenter, hRunning, Bool.false_eq_true, if_false, enterAll_eq]
      cases hFailure : enterFailure raises s.programs.items with
      | none =>
          refine ⟨h.same, hKeys, fun _ => ⟨rfl, fun name hName => ?_⟩⟩
          rw [mem_keys_addAll, enteredBy_of_no_failure hFailure, h.same]
          exact .inr hName
      | some e =>
          simp only
          split
          · exact ⟨h.same, hKeys, fun hPending => absurd hPending hIdle⟩
          · exact ⟨h.same, hKeys, fun hPending => absurd hPending hIdle⟩

theorem Enlisted.aexit {programs : Dict String P} {s : State P} (h : Enlisted programs s)
    (raises : Raises) : Enlisted programs (s.aexit raises) := by
  simp only [State.aexit]
  split
  · refine ⟨h.same, h.recorded, fun hPending => ?_⟩
    simp only [Option.map_map, Option.map_eq_some_iff] at hPending
    obtain ⟨task, -, hTask⟩ := hPending
    exact absurd hTask (cancelAndAwait_not_pending task)
  · exact ⟨h.same, h.recorded, h.polling⟩

/-- A poll answers for the programs recorded, and records no others. -/
theorem Enlisted.poll {programs : Dict String P} {s : State P} (h : Enlisted programs s)
    (hPending : s.task = some .pending) (reads : String → CgroupReads) :
    Enlisted programs (s.poll reads) := by
  obtain ⟨hRunning, hAll⟩ := h.polling hPending
  have hKeys : (s.backend.poll reads).1.dataRecords.keys = s.backend.dataRecords.keys :=
    pollItems_keys reads s.backend.dataRecords.items
  simp only [State.poll, hRunning, if_true]
  split
  · rename_i backend warned hPoll
    obtain rfl : (s.backend.poll reads).1 = backend := by rw [hPoll]
    exact ⟨h.same, by simpa only [hKeys] using h.recorded,
      fun _ => ⟨rfl, by simpa only [hKeys] using hAll⟩⟩
  · rename_i backend warned e hPoll
    obtain rfl : (s.backend.poll reads).1 = backend := by rw [hPoll]
    refine ⟨h.same, by simpa only [hKeys] using h.recorded, fun hStill => ?_⟩
    split at hStill <;> cases hStill

theorem Enlisted.step {programs : Dict String P} {s t : State P} {a : Action P}
    (h : Enlisted programs s) (hStep : Benchmark.step s a = some t) : Enlisted programs t := by
  cases a with
  | aenter raises unwinding =>
      obtain rfl := Option.some.inj hStep
      exact h.aenter raises unwinding
  | aexit raises =>
      obtain rfl := Option.some.inj hStep
      exact h.aexit raises
  | poll reads =>
      simp only [Benchmark.step] at hStep
      split at hStep <;> cases hStep
      rename_i hPending
      exact h.poll hPending reads

/-- The answers of the recorded programs to one poll. -/
def answers (slowdown : ℚ) (targets : String → Target) : String → CgroupReads :=
  fun name => (targets name).reads slowdown

/-- A record after the polls in order. -/
def polledThrough (slowdown : ℚ) (polls : List (String → Target)) (name : String)
    (info : ProcessInfo P) : ProcessInfo P :=
  polls.foldl (fun info targets => info.polled (answers slowdown targets name)) info

/-- A poll of the running task when every recorded program is tolerable. -/
theorem step_poll_of_tolerable {slowdown : ℚ} {s : State P} (hRunning : s.running = true)
    (hPending : s.task = some .pending) {targets : String → Target}
    (h : ∀ name ∈ s.backend.dataRecords.keys, (targets name).benchmarked.Tolerable slowdown) :
    step s (.poll (answers slowdown targets)) = some
      { s with backend := ⟨s.backend.dataRecords.mapValues (polledThrough slowdown [targets])⟩ } := by
  have hSurvive : ∀ item ∈ s.backend.dataRecords.items,
      ∃ result, item.2.poll (answers slowdown targets item.1) = .ok result := by
    intro item hItem
    exact (poll_survives_iff slowdown item.2 (targets item.1)).mpr
      (h item.1 (List.mem_map_of_mem hItem))
  obtain ⟨hRecords, hRaised⟩ := CgroupsBackend.poll_of_survive hSurvive
  simp only [step, hPending, if_true, State.poll, hRunning]
  split
  · rename_i backend warned hPoll
    rw [hPoll] at hRecords
    simp only at hRecords
    obtain ⟨records⟩ := backend
    subst hRecords
    rfl
  · rename_i backend warned e hPoll
    rw [hPoll] at hRaised
    cases hRaised

/-- One program that is not tolerable ends the task. -/
theorem step_poll_of_not_tolerable {slowdown : ℚ} {s t : State P} (hRunning : s.running = true)
    {targets : String → Target}
    (h : ¬∀ name ∈ s.backend.dataRecords.keys, (targets name).benchmarked.Tolerable slowdown)
    (hStep : step s (.poll (answers slowdown targets)) = some t) : t.task ≠ some .pending := by
  have hRaised : (s.backend.poll (answers slowdown targets)).2.2 ≠ none := by
    intro hNone
    apply h
    intro name hName
    obtain ⟨item, hItem, rfl⟩ := List.mem_map.mp hName
    have hSurvive := (pollItems_raised_iff _ _).mp hNone item hItem
    exact (poll_survives_iff slowdown item.2 (targets item.1)).mp hSurvive
  simp only [step] at hStep
  split at hStep <;> cases hStep
  simp only [State.poll, hRunning, if_true]
  split
  · rename_i backend warned hPoll
    rw [hPoll] at hRaised
    exact absurd rfl hRaised
  · intro hStill
    split at hStill <;> cases hStill

/-- A task that has ended polls no more. -/
theorem execute_polls_of_not_pending {slowdown : ℚ} {s t : State P}
    (hEnded : s.task ≠ some .pending) {polls : List (String → Target)}
    (h : execute step s (polls.map fun targets => .poll (answers slowdown targets)) = some t) :
    t.task ≠ some .pending := by
  cases polls with
  | nil =>
      cases h
      exact hEnded
  | cons targets rest => simp [execute, step, hEnded] at h

/-- Polls in which every recorded program is tolerable. -/
theorem execute_polls_of_tolerable {slowdown : ℚ} {s : State P} (hRunning : s.running = true)
    (hPending : s.task = some .pending) {polls : List (String → Target)}
    (h : ∀ targets ∈ polls, ∀ name ∈ s.backend.dataRecords.keys,
      (targets name).benchmarked.Tolerable slowdown) :
    execute step s (polls.map fun targets => .poll (answers slowdown targets)) = some
      { s with backend := ⟨s.backend.dataRecords.mapValues (polledThrough slowdown polls)⟩ } := by
  induction polls generalizing s with
  | nil =>
      have hSame : s.backend.dataRecords.mapValues (polledThrough slowdown []) =
          s.backend.dataRecords := by
        apply Dict.ext
        simp [Dict.mapValues, polledThrough]
      rw [hSame]
      rfl
  | cons targets rest ih =>
      obtain ⟨hFirst, hLater⟩ := List.forall_mem_cons.mp h
      let middle : State P :=
        { s with backend := ⟨s.backend.dataRecords.mapValues (polledThrough slowdown [targets])⟩ }
      have hKeys : middle.backend.dataRecords.keys = s.backend.dataRecords.keys :=
        Dict.keys_mapValues _ _
      have hRest := ih (s := middle) hRunning hPending (by rwa [hKeys])
      have hRecords : middle.backend.dataRecords.mapValues (polledThrough slowdown rest) =
          s.backend.dataRecords.mapValues (polledThrough slowdown (targets :: rest)) := by
        apply Dict.ext
        simp [middle, Dict.mapValues, polledThrough]
      rw [List.map_cons, execute, step_poll_of_tolerable hRunning hPending hFirst,
        Option.bind_some, hRest, hRecords]

/-- A task that is still pending after some polls met tolerable programs only. -/
theorem tolerable_of_execute_polls {slowdown : ℚ} {s t : State P} (hRunning : s.running = true)
    (hPending : s.task = some .pending) {polls : List (String → Target)}
    (h : execute step s (polls.map fun targets => .poll (answers slowdown targets)) = some t)
    (hStill : t.task = some .pending) :
    ∀ targets ∈ polls, ∀ name ∈ s.backend.dataRecords.keys,
      (targets name).benchmarked.Tolerable slowdown := by
  induction polls generalizing s with
  | nil => simp
  | cons targets rest ih =>
      rw [List.map_cons, execute] at h
      obtain ⟨middle, hFirst, hRest⟩ := Option.bind_eq_some_iff.mp h
      by_cases hTolerable :
          ∀ name ∈ s.backend.dataRecords.keys, (targets name).benchmarked.Tolerable slowdown
      · rw [step_poll_of_tolerable hRunning hPending hTolerable] at hFirst
        obtain rfl := Option.some.inj hFirst
        let middle : State P :=
          { s with backend := ⟨s.backend.dataRecords.mapValues (polledThrough slowdown [targets])⟩ }
        have hKeys : middle.backend.dataRecords.keys = s.backend.dataRecords.keys :=
          Dict.keys_mapValues _ _
        have hLater := ih (s := middle) hRunning hPending hRest
        rw [hKeys] at hLater
        exact List.forall_mem_cons.mpr ⟨hTolerable, hLater⟩
      · have hEnded := step_poll_of_not_tolerable hRunning hTolerable hFirst
        exact absurd hStill (execute_polls_of_not_pending hEnded hRest)

/-- From any moment a benchmark is being polled: the task outlives the polls that
follow, and each of them handles every program of the dictionary, exactly when no
program fails to give its cgroup other than by a `RuntimeError`. -/
theorem polling_survives_iff (slowdown : ℚ) (programs : Dict String P) (actions : List (Action P))
    (s : State P) (hRun : Runs step Any (fresh programs) actions s)
    (hPending : s.task = some .pending) (polls : List (String → Target)) :
    (∃ t, execute step s (polls.map fun targets => .poll (answers slowdown targets)) = some t ∧
      t.task = some .pending ∧
      ∀ name ∈ programs.keys, ∃ info, s.backend.dataRecords.get? name = some info ∧
        t.backend.dataRecords.get? name = some (polledThrough slowdown polls name info)) ↔
    ∀ targets ∈ polls, ∀ name ∈ programs.keys,
      (targets name).benchmarked.Tolerable slowdown := by
  have hEnlisted : Enlisted programs s :=
    hRun.invariant (Enlisted programs) ⟨rfl, by simp [fresh], by simp [fresh]⟩
      fun _ _ _ h _ hStep => h.step hStep
  obtain ⟨hRunning, hAll⟩ := hEnlisted.polling hPending
  constructor
  · rintro ⟨t, hExecute, hStill, -⟩ targets hTargets name hName
    exact tolerable_of_execute_polls hRunning hPending hExecute hStill targets hTargets name
      (hAll name hName)
  · intro h
    have hExecute := execute_polls_of_tolerable hRunning hPending fun targets hTargets name hName =>
      h targets hTargets name (hEnlisted.recorded name hName)
    refine ⟨_, hExecute, hPending, fun name hName => ?_⟩
    have hSome : s.backend.dataRecords.get? name ≠ none := by
      rw [ne_eq, Dict.get?_eq_none, not_not]
      exact hAll name hName
    obtain ⟨info, hInfo⟩ := Option.ne_none_iff_exists'.mp hSome
    exact ⟨info, hInfo, by simp [hInfo]⟩

/-- A program whose scope is found at the first attempt. -/
def moved : Benchmarked := .program (some (.ran
  { ownPid := 1
    pid := 2
    own := .ok "0::/user.slice\n"
    first := .ok "0::/user.slice\n"
    attempts := fun _ => .ok "0::/user.slice/mirci.scope\n" }))

/-- A program whose process is gone before its cgroup is read. -/
def gone : Benchmarked := .program (some (.ran
  { ownPid := 1
    pid := 2
    own := .ok "0::/user.slice\n"
    first := .error ⟨{ cls := .fileNotFoundError }, .inl rfl⟩
    attempts := fun _ => .ok "" }))

theorem polling_survives_iff_run :
    let programs : Dict String ℕ := ⟨[("app", 1)], by decide⟩
    let target : Target := ⟨moved, .ok "usage_usec 7\n", .ok "12\n", .ok "15\n"⟩
    ∃ t, execute step ((fresh programs).aenter (fun _ => none) fun _ => none)
      [.poll (answers 1 fun _ => target)] = some t ∧ t.task = some .pending := by
  intro programs target
  have hRun : Runs step Any (fresh programs) [.aenter (fun _ => none) fun _ => none]
      ((fresh programs).aenter (fun _ => none) fun _ => none) := .single trivial rfl
  have hMoved : moved.Tolerable 1 := by
    have hMax : maxAttempts 1 = .ok 20 := by decide +kernel
    have hFirst : Honest (.ok "0::/user.slice\n") := ⟨_, rfl, .inr (by decide)⟩
    have hLater : Honest (.ok "0::/user.slice/mirci.scope\n") := ⟨_, rfl, .inr (by decide)⟩
    have hMoves : named (.ok "0::/user.slice\n") ≠ named (.ok "0::/user.slice/mirci.scope\n") := by
      decide +kernel
    refine ⟨20, hMax, hFirst, fun parentPath hParent => ⟨hFirst, fun _ => ?_⟩⟩
    change HonestUntilMoved parentPath (19 + 1) _
    exact ⟨hLater, fun hStayed => absurd (hParent.trans hStayed.symm) hMoves⟩
  have hSurvives := polling_survives_iff 1 programs _ _ hRun rfl [fun _ => target]
  obtain ⟨t, hExecute, hStill, -⟩ := hSurvives.mpr (by
    intro targets hTargets name _
    rw [List.mem_singleton.mp hTargets]
    exact hMoved)
  exact ⟨t, hExecute, hStill⟩

/-- The `FileNotFoundError` of one process that is gone ends the polling task. -/
theorem polling_stopped_by_gone_process :
    ¬∀ (slowdown : ℚ) (programs : Dict String ℕ) actions s,
      Runs step Any (fresh programs) actions s → s.task = some .pending →
        ∀ targets : String → Target, ∃ t,
          step s (.poll (answers slowdown targets)) = some t ∧ t.task = some .pending := by
  intro h
  let programs : Dict String ℕ := ⟨[("server", 1), ("app", 2)], by decide⟩
  let targets : String → Target := fun name =>
    ⟨if name = "server" then gone else moved, .ok "usage_usec 7\n", .ok "12\n", .ok "15\n"⟩
  have hRun : Runs step Any (fresh programs) [.aenter (fun _ => none) fun _ => none]
      ((fresh programs).aenter (fun _ => none) fun _ => none) := .single trivial rfl
  obtain ⟨t, hStep, hStill⟩ := h 1 programs _ _ hRun rfl targets
  have hGone : ¬gone.Tolerable 1 := by
    rintro ⟨attempts, -, -, hFirst⟩
    obtain ⟨⟨content, hContent, -⟩, -⟩ := hFirst _ rfl
    cases hContent
  refine step_poll_of_not_tolerable rfl ?_ hStep hStill
  intro hAll
  exact hGone (hAll "server" (by decide))

end MirCi.Benchmark
