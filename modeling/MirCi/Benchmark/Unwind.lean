import MirCi.Benchmark.Benchmarker

/-! Exits that raise. `__aexit__` collects what its programs raise and goes on;
the handler in `__aenter__` does not, so the first exit that raises there ends the
unwinding and takes the place of the exception being handled. -/
namespace MirCi.Benchmark

open Python Semantics

variable {P : Type}

/-- One exit of each program in order, whatever they raise. -/
def exitCalls (raises : Raises) : List P → List (Call P)
  | [] => []
  | program :: rest => .aexit program (raises 0) :: exitCalls raises.later rest

/-- What the exits of the programs raise, in order. -/
def exitFailures (raises : Raises) : List P → List Exc
  | [] => []
  | _ :: rest => (raises 0).toList ++ exitFailures raises.later rest

theorem exitCalls_eq_nil {raises : Raises} {programs : List P} :
    exitCalls raises programs = [] ↔ programs = [] := by
  cases programs <;> simp [exitCalls]

theorem exitFailures_ne_nil (raises : Raises) (programs : List P) :
    exitFailures raises programs ≠ [] ↔ ∃ i < programs.length, raises i ≠ none := by
  induction programs generalizing raises with
  | nil => simp [exitFailures]
  | cons program rest ih =>
      cases hFirst : raises 0 with
      | some e =>
          simp only [exitFailures, hFirst, Option.toList_some]
          exact ⟨fun _ => ⟨0, by simp, by simp [hFirst]⟩, fun _ => by simp⟩
      | none =>
          simp only [exitFailures, hFirst, Option.toList_none, List.nil_append, ih]
          constructor
          · rintro ⟨i, hi, hRaises⟩
            exact ⟨i + 1, by simpa using hi, hRaises⟩
          · rintro ⟨i, hi, hRaises⟩
            cases i with
            | zero => exact absurd hFirst hRaises
            | succ i => exact ⟨i, by simpa using hi, hRaises⟩

/-- The loop of `__aexit__` reaches every program when only `Exception`s are raised. -/
theorem exitAll_of_exceptions {raises : Raises}
    (h : ∀ n e, raises n = some e → e.isa .exception = true) (programs : List P) :
    exitAll raises programs = (exitCalls raises programs, exitFailures raises programs, none) := by
  induction programs generalizing raises with
  | nil => rfl
  | cons program rest ih =>
      have hLater := @ih raises.later fun n => h (n + 1)
      cases hFirst : raises 0 with
      | none => simp [exitAll, exitCalls, exitFailures, hFirst, hLater]
      | some e => simp [exitAll, exitCalls, exitFailures, hFirst, hLater, h 0 e hFirst]

theorem silent_succ {raises : Raises} (hFirst : raises 0 = none) {n : ℕ} :
    (∀ i < n + 1, raises i = none) ↔ ∀ i < n, raises.later i = none := by
  rw [Nat.forall_lt_succ_left]
  exact and_iff_right hFirst

/-- The unwinding exits each of `entered` once and lets `e` pass exactly when no exit
raises and nothing else was listed, or only the last exit raises, and that `e` itself. -/
theorem unwindAll_iff (raises : Raises) (entered listed : List P) (e : Exc) :
    (unwindAll raises (entered ++ listed)).1 = exitCalls raises entered ∧
        (unwindAll raises (entered ++ listed)).2.getD e = e ↔
      (listed = [] ∧ ∀ i < entered.length, raises i = none) ∨
        ∃ i, i + 1 = entered.length ∧ raises i = some e ∧ ∀ j < i, raises j = none := by
  induction entered generalizing raises with
  | nil =>
      cases listed with
      | nil => simp [unwindAll, exitCalls]
      | cons program rest => cases hFirst : raises 0 <;> simp [unwindAll, exitCalls, hFirst]
  | cons program rest ih =>
      cases hFirst : raises 0 with
      | some first =>
          simp only [List.cons_append, unwindAll, hFirst, exitCalls, List.cons.injEq, true_and,
            Option.getD_some, eq_comm (a := ([] : List (Call P))), exitCalls_eq_nil]
          have hLoud : raises 0 ≠ none := by simp [hFirst]
          constructor
          · rintro ⟨rfl, rfl⟩
            exact .inr ⟨0, rfl, hFirst, by simp⟩
          · rintro (⟨-, hNone⟩ | ⟨i, hi, hRaises, hNone⟩)
            · exact absurd (hNone 0 (by simp)) hLoud
            · cases i with
              | zero =>
                  rw [hFirst] at hRaises
                  cases hRaises
                  exact ⟨List.length_eq_zero_iff.mp (by simpa using hi.symm), rfl⟩
              | succ i => exact absurd (hNone 0 (by simp)) hLoud
      | none =>
          simp only [List.cons_append, unwindAll, hFirst, exitCalls, List.cons.injEq, true_and, ih]
          apply or_congr
          · exact and_congr_right fun _ => (silent_succ hFirst).symm
          · constructor
            · rintro ⟨i, hi, hRaises, hNone⟩
              exact ⟨i + 1, by simpa using hi, hRaises, (silent_succ hFirst).mpr hNone⟩
            · rintro ⟨i, hi, hRaises, hNone⟩
              cases i with
              | zero =>
                  rw [hFirst] at hRaises
                  cases hRaises
              | succ i => exact ⟨i, by simpa using hi, hRaises, (silent_succ hFirst).mp hNone⟩

/-- The loop of `__aenter__` up to the first program that raises. -/
theorem enter_failed {raises : Raises} {before : List (String × P)} (item : String × P)
    (rest : List (String × P)) {e : Exc} (hBefore : ∀ i < before.length, raises i = none)
    (hFails : raises before.length = some e) :
    enteredBy raises (before ++ item :: rest) = before ∧
      enterFailure raises (before ++ item :: rest) = some e ∧
      enterCalls raises (before ++ item :: rest) =
        (before.map fun item => .aenter item.2 none) ++ [.aenter item.2 (some e)] := by
  induction before generalizing raises with
  | nil =>
      have hFirst : raises 0 = some e := hFails
      simp [enteredBy, enterFailure, enterCalls, hFirst]
  | cons first before ih =>
      have hFirst := hBefore 0 (by simp)
      obtain ⟨hEntered, hFailure, hCalls⟩ := @ih raises.later
        (fun i hi => hBefore (i + 1) (by simpa using hi)) hFails
      simp [enteredBy, enterFailure, enterCalls, hFirst, hEntered, hFailure, hCalls]

/-- What an `__aenter__` that starts in `s` and ends in `t` owes when `failing` raises `e`
after the programs `before` it: they are exited once each, the last entered first, no
other program is touched, no polling task is started, and `e` goes on. -/
structure Unwound (s t : State P) (before : List P) (failing : P) (e : Exc) (unwinding : Raises) :
    Prop where
  calls : t.calls = s.calls ++ ((before.map fun program => .aenter program none) ++
    [.aenter failing (some e)]) ++ exitCalls unwinding before.reverse
  task : t.task = s.task
  outcome : t.outcome = some (.aenter true (some e))

/-- A failed enter is unwound exactly when `running_programs` was empty and no exit raises,
or none raises but the last, and that the exception already in flight. -/
theorem unwound_iff (s : State P) (hIdle : s.running = false) (before rest : List (String × P))
    (item : String × P) (hPrograms : s.programs.items = before ++ item :: rest)
    (raises unwinding : Raises) (e : Exc) (hBefore : ∀ i < before.length, raises i = none)
    (hFails : raises before.length = some e) (hException : e.isa .exception = true) :
    Unwound s (s.aenter raises unwinding) (before.map Prod.snd) item.2 e unwinding ↔
      (s.runningPrograms = [] ∧ ∀ i < before.length, unwinding i = none) ∨
        ∃ i, i + 1 = before.length ∧ unwinding i = some e ∧ ∀ j < i, unwinding j = none := by
  obtain ⟨hEntered, hFailure, hCalls⟩ := enter_failed item rest hBefore hFails
  have hUnwind := unwindAll_iff unwinding (before.map Prod.snd).reverse s.runningPrograms e
  rw [List.length_reverse, List.length_map] at hUnwind
  have hEnd : s.aenter raises unwinding =
      { s with
        running := true
        calls := s.calls ++ ((before.map fun item => .aenter item.2 none) ++
            [.aenter item.2 (some e)]) ++
          (unwindAll unwinding ((before.map Prod.snd).reverse ++ s.runningPrograms)).1
        runningPrograms := (before.map Prod.snd).reverse ++ s.runningPrograms
        backend := before.foldl (fun b item => b.add item.1 item.2) s.backend
        outcome := some (.aenter true (some
          ((unwindAll unwinding ((before.map Prod.snd).reverse ++ s.runningPrograms)).2.getD e))) } := by
    simp [State.aenter, hIdle, enterAll_eq, hPrograms, hEntered, hFailure, hCalls, hException]
  rw [hEnd, ← hUnwind]
  constructor
  · rintro ⟨hCalls, -, hOutcome⟩
    have hMap : (before.map Prod.snd).map (fun program => Call.aenter program none) =
        before.map fun item => Call.aenter item.2 none := by
      rw [List.map_map]
      rfl
    rw [hMap] at hCalls
    refine ⟨List.append_cancel_left hCalls, ?_⟩
    simpa using hOutcome
  · rintro ⟨hExits, hRaised⟩
    refine ⟨?_, rfl, ?_⟩
    · simp [hExits]
    · simp [hRaised]

theorem unwound_iff_quiet :
    let programs : Dict String ℕ := ⟨[("server", 1), ("app", 2)], by decide⟩
    let failing : Raises := fun n => if n = 1 then some { cls := .exception } else none
    Unwound (fresh programs) ((fresh programs).aenter failing fun _ => none) [1] 2
      { cls := .exception } fun _ => none := by
  intro programs failing
  exact (unwound_iff (fresh programs) rfl [("server", 1)] [] ("app", 2) rfl failing (fun _ => none)
    { cls := .exception } (by decide) (by decide) (by decide)).mpr (.inl ⟨rfl, fun _ _ => rfl⟩)

/-- The third program fails to enter and the exit of the second raises: the first stays
entered. -/
theorem unwinding_stopped_by_exit :
    ¬∀ (programs : Dict String ℕ) before item rest raises unwinding e,
      programs.items = before ++ item :: rest → (∀ i < before.length, raises i = none) →
        raises before.length = some e → e.isa .exception = true →
          (∀ n e, unwinding n = some e → e.isa .exception = true) →
            Unwound (fresh programs) ((fresh programs).aenter raises unwinding)
              (before.map Prod.snd) item.2 e unwinding := by
  intro h
  let programs : Dict String ℕ := ⟨[("server", 1), ("app", 2), ("client", 3)], by decide⟩
  let failing : Raises := fun n => if n = 2 then some { cls := .exception, text := "enter" } else none
  let unwinding : Raises := fun n => if n = 0 then some { cls := .exception, text := "exit" } else none
  have hUnwinding : ∀ n e, unwinding n = some e → e.isa .exception = true := by
    intro n e hRaised
    simp only [unwinding] at hRaised
    split at hRaised <;> cases hRaised
    rfl
  have hCalls := (h programs [("server", 1), ("app", 2)] ("client", 3) [] failing unwinding
    { cls := .exception, text := "enter" } rfl (by decide) (by decide) (by decide) hUnwinding).calls
  revert hCalls
  decide

/-- What an `__aexit__` that ends a run owes: the programs entered are exited once each,
the last entered first, and it raises if the polling task had failed or an exit raises,
with the texts of all that the exits raised, in order, if any does. -/
structure TornDown (s t : State P) (entered : List P) (task : TaskState) (raises : Raises) :
    Prop where
  calls : t.calls = s.calls ++ exitCalls raises entered.reverse
  outcome : ∃ raised, t.outcome = some (.aexit true raised) ∧
    (raised.isSome = true ↔
      (∃ e, task = .failed e) ∨ ∃ i < entered.length, raises i ≠ none) ∧
    (exitFailures raises entered.reverse ≠ [] → raised = some
      { cls := .exception, text := "; ".intercalate ((exitFailures raises entered.reverse).map Exc.text) })

/-- A fresh benchmarker that has entered all its programs, with whatever its polling
task has become and has recorded by now. -/
def entered (programs : Dict String P) (backend : CgroupsBackend P) (task : TaskState) : State P :=
  { (fresh programs).aenter (fun _ => none) fun _ => none with backend := backend, task := some task }

theorem enter_quiet (items : List (String × P)) :
    enteredBy (fun _ => none) items = items ∧ enterFailure (fun _ => none) items = none := by
  induction items with
  | nil => exact ⟨rfl, rfl⟩
  | cons item rest ih =>
      have hLater : Raises.later (fun _ => none) = fun _ => none := rfl
      simp [enteredBy, enterFailure, hLater, ih]

theorem entered_listed (programs : Dict String P) (backend : CgroupsBackend P) (task : TaskState) :
    (entered programs backend task).running = true ∧
      (entered programs backend task).runningPrograms = (programs.items.map Prod.snd).reverse := by
  obtain ⟨hEntered, hFailure⟩ := enter_quiet programs.items
  simp [entered, State.aenter, fresh, enterAll_eq, hEntered, hFailure]

/-- Whatever the polling task has come to and whichever exits raise, all is torn down. -/
theorem torn_down (programs : Dict String P) (backend : CgroupsBackend P) (task : TaskState)
    (raises : Raises) (hRaises : ∀ n e, raises n = some e → e.isa .exception = true) :
    TornDown (entered programs backend task) ((entered programs backend task).aexit raises)
      (programs.items.map Prod.snd) task raises := by
  obtain ⟨hRunning, hListed⟩ := entered_listed programs backend task
  have hTask : (entered programs backend task).task = some task := rfl
  have hFailures := exitFailures_ne_nil raises (programs.items.map Prod.snd).reverse
  rw [List.length_reverse] at hFailures
  constructor
  · simp [State.aexit, hRunning, hListed, exitAll_of_exceptions hRaises]
  · simp only [State.aexit, hRunning, if_true, hListed, exitAll_of_exceptions hRaises, hTask,
      Option.map_some, Option.bind_some]
    refine ⟨_, rfl, ?_, fun hSome => by rw [if_neg hSome, joined]⟩
    rw [← hFailures]
    by_cases hQuiet : exitFailures raises (programs.items.map Prod.snd).reverse = []
    · rw [if_pos hQuiet]
      cases task <;> simp [TaskState.cancelAndAwait, hQuiet]
    · simp [hQuiet]

theorem torn_down_all_failed :
    let programs : Dict String ℕ := ⟨[("server", 1), ("app", 2)], by decide⟩
    let raises : Raises := fun n => some { cls := .exception, text := toString n }
    TornDown (entered programs {} (.failed { cls := .runtimeError }))
      ((entered programs {} (.failed { cls := .runtimeError })).aexit raises) [1, 2]
      (.failed { cls := .runtimeError }) raises := by
  intro programs raises
  exact torn_down programs {} (.failed { cls := .runtimeError }) raises (by
    intro n e hRaised
    cases hRaised
    rfl)

end MirCi.Benchmark
