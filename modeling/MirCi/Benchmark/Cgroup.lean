import MirCi.Benchmark.CgroupsBackend
import MirCi.Python.Path

/-! `Cgroup`, and the two `get_cgroup` methods in front of it. What every file
holds when it is read is an input. -/
namespace MirCi.Benchmark

open Python

/-- Opening and reading a text file fails with an `OSError` or a decoding error. -/
abbrev FileError := { e : Exc // e.isa .osError = true ∨ e.isa .valueError = true }

/-- What reading a file as text gives. -/
abbrev FileRead := Except FileError String

def FileRead.run : FileRead → Except Exc String
  | .ok content => .ok content
  | .error e => .error e

/-- The files read while `Cgroup.create` resolves the cgroup of a process: the
reader's own, then the process's once and again after every sleep. -/
structure Resolution where
  ownPid : ℕ
  pid : ℕ
  own : FileRead
  first : FileRead
  attempts : ℕ → FileRead

/-- What `_get_cgroup_dir_internal` makes of the first line; there is none in an
empty file. -/
def cgroupOfLine (pid : ℕ) : List Char → Except Exc Path
  | [] =>
      .error { cls := .runtimeError
               text := "Unable to find path for process with pid: " ++ toString pid }
  | '0' :: ':' :: ':' :: rest =>
      .ok (Path.parse (strip ("/sys/fs/cgroup/" ++ String.ofList rest)))
  | _ =>
      .error { cls := .assertionError
               text := "Line in cgroup file does not start with 0:: for pid: " ++ toString pid }

/-- `_get_cgroup_dir_internal`. -/
def getCgroupDirInternal (pid : ℕ) (file : FileRead) : Except Exc Path := do
  let content ← file.run
  cgroupOfLine pid (readline content.toList)

/-- `MAX_ATTEMPTS`, that is `int(10 * (SLOWDOWN + 1))`. The factor is the value of a finite float, a
rational: a `SLOWDOWN` of `inf` or `nan`, of which `int` makes an exception, is left out. -/
def maxAttempts (slowdown : ℚ) : Except Exc ℤ :=
  match (toDouble (slowdown + 1)).bind fun sum => toDouble (10 * sum) with
  | some product => .ok (truncate product)
  | none =>
      .error { cls := .overflowError, text := "cannot convert float infinity to integer" }

/-- The loop of `get_cgroup_dir`: wait for the process to leave its parent's
cgroup. -/
def awaitMove (pid : ℕ) (parentPath : Path) : ℕ → (ℕ → FileRead) → Except Exc Path
  | 0, _ =>
      .error { cls := .runtimeError
               text := "Unable to read cgroup directory for pid: " ++ toString pid }
  | left + 1, attempts => do
      let path ← getCgroupDirInternal pid (attempts 0)
      if path ≠ parentPath then .ok path
      else awaitMove pid parentPath left fun n => attempts (n + 1)

/-- `get_cgroup_dir`. -/
def getCgroupDir (slowdown : ℚ) (r : Resolution) : Except Exc Path := do
  let attempts ← maxAttempts slowdown
  let parentPath ← getCgroupDirInternal r.ownPid r.own
  let _ ← getCgroupDirInternal r.pid r.first
  awaitMove r.pid parentPath attempts.toNat r.attempts

/-- The `except Exception` around each reader. -/
def orRuntimeError (text : String) : Except Exc ℤ → Except Exc ℤ
  | .ok n => .ok n
  | .error e => .error (if e.isa .exception then { cls := .runtimeError, text := text } else e)

/-- `_read_file` yields one line. -/
def readFile (file : FileRead) : Except Exc String := do
  let content ← file.run
  return String.ofList (readline content.toList)

def getCpuTimeMicroseconds (path : Path) (cpuStat : FileRead) : Except Exc ℤ :=
  orRuntimeError ("Unable to get the cpu time for cgroup: " ++ path.str) do
    let line ← readFile cpuStat
    match split ' ' line with
    | "usage_usec" :: value :: _ => int value
    | ["usage_usec"] => .error { cls := .indexError, text := "list index out of range" }
    | _ => .error { cls := .runtimeError, text := "usage_usec line not found" }

def getCurrentMemory (path : Path) (memoryCurrent : FileRead) : Except Exc ℤ :=
  orRuntimeError ("Unable to get the current memory for cgroup: " ++ path.str) do
    let line ← readFile memoryCurrent
    int line

def getPeakMemory (path : Path) (memoryPeak : FileRead) : Except Exc ℤ :=
  orRuntimeError ("Unable to get the peak memory for cgroup: " ++ path.str) do
    let line ← readFile memoryPeak
    int line

/-- The task `Cgroup.create` made, once it is done. -/
inductive CgroupTask where
  | ran (r : Resolution)
  | cancelled

/-- What the two benchmarkable classes hold when `get_cgroup` is called. -/
inductive Benchmarked where
  | program (cgroupsTask : Option CgroupTask)
  | displayServer (server : Option (Option CgroupTask))

/-- `Program.get_cgroup`. -/
def programGetCgroup (slowdown : ℚ) : Option CgroupTask → Except Exc Path
  | none =>
      .error { cls := .assertionError, text := "Cgroup task is None, is cgroupv2 supported?" }
  | some .cancelled => .error { cls := .cancelledError }
  | some (.ran r) => getCgroupDir slowdown r

/-- `get_cgroup`, either one. -/
def Benchmarked.getCgroup (slowdown : ℚ) : Benchmarked → Except Exc Path
  | .program cgroupsTask => programGetCgroup slowdown cgroupsTask
  | .displayServer none => .error { cls := .assertionError }
  | .displayServer (some cgroupsTask) => programGetCgroup slowdown cgroupsTask

/-- One recorded program as a poll finds it. -/
structure Target where
  benchmarked : Benchmarked
  cpuStat : FileRead
  memoryCurrent : FileRead
  memoryPeak : FileRead

/-- The answers a poll gets from a program. Without a cgroup nothing is read. -/
def Target.reads (slowdown : ℚ) (target : Target) : CgroupReads :=
  let cgroup := target.benchmarked.getCgroup slowdown
  { getCgroup := do
      let _ ← cgroup
    getCpuTimeMicroseconds := do getCpuTimeMicroseconds (← cgroup) target.cpuStat
    getCurrentMemory := do getCurrentMemory (← cgroup) target.memoryCurrent
    getPeakMemory := do getPeakMemory (← cgroup) target.memoryPeak }

end MirCi.Benchmark
