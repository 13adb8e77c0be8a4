import MirCi.Benchmark.CgroupsBackend
import MirCi.Semantics.Run

/-! `Benchmarker`: entering and exiting a dictionary of programs around a polling
task. Calls are made one after another, and what the programs answer is an input
of the call; polls happen between the calls, whenever the task gets a turn. -/
namespace MirCi.Benchmark

open Python Semantics

/-- The polling task as an `asyncio.Task`. -/
inductive TaskState where
  | pending
  | finished
  | failed (e : Exc)
  | cancelled
  deriving DecidableEq

/-- A call of a program's `__aenter__` or `__aexit__` and the exception it raised. -/
inductive Call (P : Type) where
  | aenter (program : P) (raised : Option Exc)
  | aexit (program : P) (raised : Option Exc)
  deriving DecidableEq

/-- How the last call on the benchmarker ended; `began` and `ended` are false
where it returned at once. -/
inductive Outcome where
  | aenter (began : Bool) (raised : Option Exc)
  | aexit (ended : Bool) (raised : Option Exc)
  deriving DecidableEq

structure State (P : Type) where
  programs : Dict String P
  backend : CgroupsBackend P := {}
  task : Option TaskState := none
  running : Bool := false
  runningPrograms : List P := []
  calls : List (Call P) := []
  outcome : Option Outcome := none

/-- What the programs' methods raise, by position in the order they are called. -/
abbrev Raises := ℕ → Option Exc

/-- What the calls after the first one raise. -/
def Raises.later (raises : Raises) : Raises := fun n => raises (n + 1)

inductive Action (P : Type) where
  | aenter (raises unwinding : Raises)
  | aexit (raises : Raises)
  | poll (reads : String → CgroupReads)

variable {P : Type}

/-- The loop of `__aenter__`: the state after it and the exception that left it. -/
def enterAll (raises : Raises) : List (String × P) → State P → State P × Option Exc
  | [], s => (s, none)
  | (programId, program) :: rest, s =>
      match raises 0 with
      | some e => ({ s with calls := s.calls ++ [.aenter program (some e)] }, some e)
      | none =>
          enterAll raises.later rest
            { s with
              calls := s.calls ++ [.aenter program none]
              runningPrograms := program :: s.runningPrograms
              backend := s.backend.add programId program }

/-- The loop of the handler in `__aenter__`: the calls it makes and the exception
that left it. -/
def unwindAll (raises : Raises) : List P → List (Call P) × Option Exc
  | [] => ([], none)
  | program :: rest =>
      match raises 0 with
      | some e => ([.aexit program (some e)], some e)
      | none =>
          let (calls, left) := unwindAll raises.later rest
          (.aexit program none :: calls, left)

/-- The loop in the `finally` of `__aexit__`: the calls it makes, the list `exs`
and the exception that left it. Only an `Exception` is collected. -/
def exitAll (raises : Raises) : List P → List (Call P) × List Exc × Option Exc
  | [] => ([], [], none)
  | program :: rest =>
      match raises 0 with
      | none =>
          let (calls, exs, left) := exitAll raises.later rest
          (.aexit program none :: calls, exs, left)
      | some e =>
          if e.isa .exception then
            let (calls, exs, left) := exitAll raises.later rest
            (.aexit program (some e) :: calls, e :: exs, left)
          else ([.aexit program (some e)], [], some e)

/-- `Benchmarker.__aenter__`. An exception of the handler's own replaces the one
it handles; what is no `Exception` is not handled. -/
def State.aenter (s : State P) (raises unwinding : Raises) : State P :=
  if s.running then { s with outcome := some (.aenter false none) }
  else
    match enterAll raises s.programs.items { s with running := true } with
    | (entered, none) =>
        { entered with task := some .pending, outcome := some (.aenter true none) }
    | (entered, some e) =>
        if e.isa .exception then
          let (calls, left) := unwindAll unwinding entered.runningPrograms
          { entered with
            calls := entered.calls ++ calls
            outcome := some (.aenter true (some (left.getD e))) }
        else { entered with outcome := some (.aenter true (some e)) }

/-- `cancel` and the suppressed `await`: the task afterwards and the exception
awaiting it raised. -/
def TaskState.cancelAndAwait : TaskState → TaskState × Option Exc
  | .pending => (.cancelled, none)
  | .finished => (.finished, none)
  | .failed e => (.failed e, some e)
  | .cancelled => (.cancelled, none)

/-- `"; ".join(str(ex) for ex in exs)`. -/
def joined (exs : List Exc) : String := "; ".intercalate (exs.map Exc.text)

/-- `Benchmarker.__aexit__`. The programs exited stay in `running_programs`. -/
def State.aexit (s : State P) (raises : Raises) : State P :=
  if s.running then
    let awaited := s.task.map TaskState.cancelAndAwait
    let (calls, exs, left) := exitAll raises s.runningPrograms
    let raised : Option Exc :=
      match left with
      | some e => some e
      | none =>
          if exs = [] then awaited.bind Prod.snd
          else some { cls := .exception, text := joined exs }
    { s with
      running := false
      task := awaited.map Prod.fst
      calls := s.calls ++ calls
      outcome := some (.aexit true raised) }
  else { s with outcome := some (.aexit false none) }

/-- A turn of `_run`, at its start or after the sleep. -/
def State.poll (s : State P) (reads : String → CgroupReads) : State P :=
  if s.running then
    match s.backend.poll reads with
    | (backend, _, none) => { s with backend := backend }
    | (backend, _, some e) =>
        { s with
          backend := backend
          task := some (if e.isa .cancelledError then .cancelled else .failed e) }
  else { s with task := some .finished }

/-- The polling task only gets a turn while it is pending. -/
def step (s : State P) : Action P → Option (State P)
  | .aenter raises unwinding => some (s.aenter raises unwinding)
  | .aexit raises => some (s.aexit raises)
  | .poll reads => if s.task = some .pending then some (s.poll reads) else none

/-- `Benchmarker(programs)`. -/
def fresh (programs : Dict String P) : State P := { programs := programs }

theorem State.aenter_of_running {s : State P} (raises unwinding : Raises)
    (hRunning : s.running = true) :
    s.aenter raises unwinding = { s with outcome := some (.aenter false none) } := by
  simp [State.aenter, hRunning]

theorem State.aexit_of_idle {s : State P} (raises : Raises) (hIdle : s.running = false) :
    s.aexit raises = { s with outcome := some (.aexit false none) } := by
  simp [State.aexit, hIdle]

/-- The programs a loop of `__aenter__` enters: those before the first that raises. -/
def enteredBy (raises : Raises) : List (String × P) → List (String × P)
  | [] => []
  | item :: rest =>
      match raises 0 with
      | some _ => []
      | none => item :: enteredBy raises.later rest

/-- The exception of the first program that raises. -/
def enterFailure (raises : Raises) : List (String × P) → Option Exc
  | [] => none
  | _ :: rest =>
      match raises 0 with
      | some e => some e
      | none => enterFailure raises.later rest

/-- The `__aenter__` calls the loop makes. -/
def enterCalls (raises : Raises) : List (String × P) → List (Call P)
  | [] => []
  | item :: rest =>
      match raises 0 with
      | some e => [.aenter item.2 (some e)]
      | none => .aenter item.2 none :: enterCalls raises.later rest

/-- All the loop of `__aenter__` does. -/
theorem enterAll_eq (raises : Raises) (items : List (String × P)) (s : State P) :
    enterAll raises items s =
      ({ s with
          calls := s.calls ++ enterCalls raises items
          runningPrograms := ((enteredBy raises items).map Prod.snd).reverse ++ s.runningPrograms
          backend := (enteredBy raises items).foldl (fun b item => b.add item.1 item.2) s.backend },
        enterFailure raises items) := by
  induction items generalizing raises s with
  | nil => simp [enterAll, enterCalls, enteredBy, enterFailure]
  | cons item rest ih =>
      obtain ⟨programId, program⟩ := item
      cases hFirst : raises 0 with
      | some e => simp [enterAll, enterCalls, enteredBy, enterFailure, hFirst]
      | none =>
          simp only [enterAll, enterCalls, enteredBy, enterFailure, hFirst]
          rw [ih]
          simp

/-- The exception that leaves the loop was raised by a program. -/
theorem enterFailure_raised {raises : Raises} {items : List (String × P)} {e : Exc}
    (h : enterFailure raises items = some e) : ∃ n, raises n = some e := by
  induction items generalizing raises with
  | nil => cases h
  | cons item rest ih =>
      cases hFirst : raises 0 with
      | some first =>
          simp only [enterFailure, hFirst] at h
          cases h
          exact ⟨0, hFirst⟩
      | none =>
          simp only [enterFailure, hFirst] at h
          obtain ⟨n, hn⟩ := ih h
          exact ⟨n + 1, hn⟩

theorem unwindAll_of_quiet {raises : Raises} (h : ∀ n, raises n = none) (programs : List P) :
    unwindAll raises programs = (programs.map fun program => .aexit program none, none) := by
  induction programs generalizing raises with
  | nil => rfl
  | cons program rest ih =>
      have hLater : ∀ n, raises.later n = none := fun n => h (n + 1)
      simp [unwindAll, h 0, ih hLater]

theorem exitAll_of_quiet {raises : Raises} (h : ∀ n, raises n = none) (programs : List P) :
    exitAll raises programs = (programs.map fun program => .aexit program none, [], none) := by
  induction programs generalizing raises with
  | nil => rfl
  | cons program rest ih =>
      have hLater : ∀ n, raises.later n = none := fun n => h (n + 1)
      simp [exitAll, h 0, ih hLater]

end MirCi.Benchmark
