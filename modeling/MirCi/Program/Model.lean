import MirCi.Semantics.Run
import MirCi.Python.Exception
import MirCi.Python.Text

/-! `Program` and the two context managers that tear one down, on one event loop.
The caller, the `communicate` coroutine and every `send_kill_signals` task ever
created are explicit, so a list of actions is one interleaving of the caller's
calls, cancellations, timers, the process and the loop's record of its exit.
Between two awaits the code runs alone and is one action. The end of the output
pipe, for which `process.communicate()` waits as well, is taken to come with the
recorded exit: no child that outlives the process holds the pipe open. -/
namespace MirCi.Program

open Python

/-- Seconds on the loop's clock. -/
abbrev Time := ℚ

inductive Signal where
  | SIGTERM
  | SIGKILL
  deriving DecidableEq, Repr

/-- One call of `os.killpg`. It fails when the process group is gone. -/
structure KillCall where
  signal : Signal
  time : Time
  delivered : Bool
  deriving DecidableEq, Repr

/-- The await at which a `send_kill_signals` task is suspended. A sleep carries
the time its timer is due. -/
inductive Stage where
  | created
  | beforeTerm (due : Time)
  | beforeKill (due : Time)
  | afterKill (due : Time)
  | done (raised : Option Exc)
  deriving DecidableEq, Repr

/-- A task running `send_kill_signals(timeout, term_timeout)`, created by a call
made at `called`. `cancelling` records a `cancel()` not yet delivered. -/
structure SignalsTask where
  called : Time
  timeout : Time
  termTimeout : Time
  stage : Stage := .created
  cancelling : Bool := false
  deriving DecidableEq, Repr

/-- `task.done()`. -/
def SignalsTask.isDone (task : SignalsTask) : Bool :=
  match task.stage with
  | .done _ => true
  | _ => false

/-- `task.cancel()`, which leaves a finished task alone. -/
def SignalsTask.cancel (task : SignalsTask) : SignalsTask :=
  if task.isDone then task else { task with cancelling := true }

/-- The coroutine object `communicate()`. It can be awaited once. -/
inductive Coroutine where
  | fresh
  | suspended
  | spent
  deriving DecidableEq, Repr

/-- The task resolving the process's cgroup. -/
inductive CgroupsTask where
  | running
  | finished
  | cancelled
  deriving DecidableEq, Repr

def CgroupsTask.cancel : CgroupsTask → CgroupsTask
  | .running => .cancelled
  | task => task

/-- The call that is suspended in `await self.process_end`. The last two belong
to a context manager's exit: through `kill()`, or directly in
`Program.__aexit__` when it finds the process dead. -/
inductive Frame where
  | wait
  | kill
  | exitKill
  | exitDead
  deriving DecidableEq, Repr

/-- Where the code using the context stands. `body` holds what the latest call
raised, `sleeping` is the sleep in `DisplayServer.__aexit__`. -/
inductive Caller where
  | body (raised : Option Exc)
  | awaiting (frame : Frame)
  | sleeping (due : Time)
  | left (raised : Option Exc)
  deriving DecidableEq, Repr

/-- Which context manager owns the program: `Program` itself, or the
`DisplayServer` that recorded `start_time` when it was entered. -/
inductive Context where
  | program
  | displayServer (startTime : Time)
  deriving DecidableEq, Repr

/-- `exited` is the process, `returncode` is what the loop has recorded of it.
`rawOutput` is all the process writes before its pipe closes. -/
structure State where
  context : Context
  name : String
  rawOutput : List UInt8
  now : Time
  exited : Option Int := none
  returncode : Option Int := none
  processEnd : Option Coroutine
  sendSignalsTask : Option Nat := none
  tasks : List SignalsTask := []
  cgroupsTask : Option CgroupsTask
  output : String := ""
  sigkillSent : Bool := false
  kills : List KillCall := []
  caller : Caller := .body none
  deriving DecidableEq, Repr

def defaultTermTimeout : Time := 10

def minMirRunTime : Time := 1 / 10

/-- A context that has just been entered: `Program.__aenter__` has started the
process and stored `communicate()`, and the cgroup task where cgroup v2 exists. -/
def entered (context : Context) (name : String) (rawOutput : List UInt8) (now : Time)
    (cgroupV2 : Bool) : State where
  context := context
  name := name
  rawOutput := rawOutput
  now := now
  processEnd := some .fresh
  cgroupsTask := if cgroupV2 then some .running else none

namespace State

def isRunning (s : State) : Bool := s.returncode.isNone

/-- `kill`'s `except ProgramError: pass`. -/
def suppressProgramError (raised : Option Exc) : Option Exc :=
  raised.filter fun e => !e.isa .programError

/-- Return from the suspended or just finished `await self.process_end`, and
with it from the call whose frame this is, with `raised` in flight. -/
def finish (s : State) (frame : Frame) (raised : Option Exc) : State :=
  match frame with
  | .wait => { s with caller := .body raised }
  | .kill => { s with caller := .body (suppressProgramError raised) }
  | .exitKill => { s with caller := .left (suppressProgramError raised) }
  | .exitDead => { s with caller := .left raised }

/-- `await self.process_end`, up to the suspension inside `communicate`. -/
def awaitEnd (s : State) (frame : Frame) : State :=
  match s.processEnd with
  | none => s.finish frame none
  | some .fresh => { s with processEnd := some .suspended, caller := .awaiting frame }
  | some .suspended =>
      s.finish frame (some ⟨.runtimeError, "coroutine is being awaited already"⟩)
  | some .spent =>
      s.finish frame (some ⟨.runtimeError, "cannot reuse already awaited coroutine"⟩)

/-- `self.send_signals_task = asyncio.create_task(self.send_kill_signals(...))`. -/
def createSignalsTask (s : State) (timeout termTimeout : Time) : State :=
  { s with
    tasks := s.tasks ++ [⟨s.now, timeout, termTimeout, .created, false⟩]
    sendSignalsTask := some s.tasks.length }

/-- `Program.wait` up to its await. -/
def wait (s : State) (frame : Frame) (timeout termTimeout : Time) : State :=
  let s := if s.isRunning then s.createSignalsTask timeout termTimeout else s
  s.awaitEnd frame

/-- `Program.kill` is `wait(0, timeout)` under an `except ProgramError`. -/
def kill (s : State) (frame : Frame) (timeout : Time) : State := s.wait frame 0 timeout

/-- The lines of `communicate` that cancel the signals task if it is not done. -/
def cancelSignalsTask (s : State) : State :=
  match s.sendSignalsTask with
  | none => s
  | some i => { s with tasks := s.tasks.modify i SignalsTask.cancel }

/-- What `wait` and `__aexit__` do once `await self.process_end` has returned.
`wait` clears `process_end` and judges the return code, `__aexit__` raises. -/
def ended (s : State) (frame : Frame) : State :=
  match frame with
  | .exitDead =>
      s.finish frame (some ⟨.assertionError, s.name ++ " died without being waited for or killed"⟩)
  | _ =>
      let s := { s with processEnd := none }
      s.finish frame <|
        if s.returncode = some 0 then none
        else if s.sigkillSent then some ⟨.programError, s.name ++ " refused to terminate"⟩
        else some ⟨.programError, s.name ++ " closed with exit code " ++
          (s.returncode.map toString).getD "None"⟩

/-- `process.communicate()` has completed: the rest of `communicate`, then the
rest of the call that awaited it. -/
def communicated (s : State) (frame : Frame) : State :=
  let gathered := { s.cancelSignalsTask with processEnd := some .spent }
  match decodeUtf8 s.rawOutput with
  | none => gathered.finish frame (some ⟨.unicodeDecodeError, "'utf-8' codec can't decode"⟩)
  | some text => { gathered with output := strip text }.ended frame

/-- Cancellation lands at `await self.process_end`: `CancelledError` is thrown
into `communicate`, which ends there without touching the signals task. -/
def cancelled (s : State) (frame : Frame) : State :=
  { s with processEnd := some .spent }.finish frame (some ⟨.cancelledError, ""⟩)

def cancelCgroupsTask (s : State) : State :=
  { s with cgroupsTask := s.cgroupsTask.map CgroupsTask.cancel }

/-- `Program.__aexit__` up to its await. -/
def programExit (s : State) : State :=
  let s := s.cancelCgroupsTask
  match s.processEnd with
  | none => { s with caller := .left none }
  | some _ =>
      if s.isRunning then s.kill .exitKill defaultTermTimeout
      else s.awaitEnd .exitDead

/-- `DisplayServer.__aexit__` up to its first await. -/
def displayServerExit (s : State) (startTime : Time) : State :=
  let sleepTime := startTime + minMirRunTime - s.now
  if 0 < sleepTime then { s with caller := .sleeping (s.now + sleepTime) }
  else s.kill .exitKill defaultTermTimeout

/-- Leave the `async with` block. -/
def leave (s : State) : State :=
  match s.context with
  | .program => s.programExit
  | .displayServer startTime => s.displayServerExit startTime

/-- Suspend the task at `i` at the await `stage`, or end it there. -/
def setStage (s : State) (i : Nat) (stage : Stage) : State :=
  { s with tasks := s.tasks.modify i fun task => { task with stage := stage } }

/-- `os.killpg(self.process.pid, signal)` by the task at `i`, which sleeps next
in `stage`, or ends when the process group is gone. -/
def killpg (s : State) (i : Nat) (signal : Signal) (delivered : Bool) (stage : Stage) : State :=
  let s : State := { s with kills := s.kills ++ [⟨signal, s.now, delivered⟩] }
  s.setStage i (if delivered then stage else .done (some ⟨.processLookupError, ""⟩))

/-- Resume the task at `i` until its next await. A task whose `cancel()` came
first is resumed with `CancelledError`, whether or not its timer is due. -/
def resume (s : State) (i : Nat) (task : SignalsTask) (delivered : Bool) : Option State :=
  if task.isDone then none
  else if task.cancelling then some (s.setStage i (.done (some ⟨.cancelledError, ""⟩)))
  else match task.stage with
  | .created =>
      if !s.isRunning then
        some (s.setStage i (.done (some ⟨.assertionError, s.name ++ " is dead"⟩)))
      else if task.timeout ≠ 0 then some (s.setStage i (.beforeTerm (s.now + task.timeout)))
      else some (s.killpg i .SIGTERM delivered (.beforeKill (s.now + task.termTimeout)))
  | .beforeTerm due =>
      if due ≤ s.now then
        some (s.killpg i .SIGTERM delivered (.beforeKill (s.now + task.termTimeout)))
      else none
  | .beforeKill due =>
      if due ≤ s.now then
        some ({ s with sigkillSent := true }.killpg i .SIGKILL delivered (.afterKill (s.now + 1)))
      else none
  | .afterKill due =>
      if due ≤ s.now then
        some (s.setStage i (.done (some ⟨.programError, "failed to kill " ++ s.name⟩)))
      else none
  | .done _ => none

end State

/-- The moves of the body (`wait`, `kill`, `leave`), of its canceller, of the
process, and of the event loop. -/
inductive Action where
  | wait (timeout termTimeout : Time)
  | kill (timeout : Time)
  | cancel
  | leave
  | wake
  | tick (elapsed : Time)
  | exit (code : Int)
  | record
  | communicate
  | resume (task : Nat) (delivered : Bool)
  | cgroupFound
  deriving DecidableEq, Repr

/-- The program at its next await, where the action is enabled. A call can only
be made, and the block only left, while no earlier call is suspended. -/
def step (s : State) : Action → Option State
  | .wait timeout termTimeout =>
      match s.caller with
      | .body _ => some (s.wait .wait timeout termTimeout)
      | _ => none
  | .kill timeout =>
      match s.caller with
      | .body _ => some (s.kill .kill timeout)
      | _ => none
  | .cancel =>
      match s.caller with
      | .awaiting .wait => some (s.cancelled .wait)
      | .awaiting .kill => some (s.cancelled .kill)
      | _ => none
  | .leave =>
      match s.caller with
      | .body _ => some s.leave
      | _ => none
  | .wake =>
      match s.caller with
      | .sleeping due => if due ≤ s.now then some (s.kill .exitKill defaultTermTimeout) else none
      | _ => none
  | .tick elapsed => if 0 ≤ elapsed then some { s with now := s.now + elapsed } else none
  | .exit code => if s.exited.isNone then some { s with exited := some code } else none
  | .record =>
      if s.exited.isSome && s.returncode.isNone then some { s with returncode := s.exited } else none
  | .communicate =>
      match s.caller with
      | .awaiting frame => if s.returncode.isSome then some (s.communicated frame) else none
      | _ => none
  | .resume i delivered => s.tasks[i]? |>.bind fun task => s.resume i task delivered
  | .cgroupFound =>
      if s.cgroupsTask = some .running then some { s with cgroupsTask := some .finished } else none

end MirCi.Program
