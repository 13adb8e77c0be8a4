import MirCi.PytestPlugin.Subprocess
import MirCi.Python.Regex
import MirCi.Python.Text

/-! `_snap_install`: a snap is installed without waiting, and the list of changes is
polled until it shows what became of the change. -/
namespace MirCi.PytestPlugin.Deps

open Python Semantics Effect

/-- `^{change}\s+{status}\s`. The id of a change is a number, so it stands for itself. -/
def statusPattern (change status : String) : Regex :=
  .seq .lineStart (.seq (.literal change.toList)
    (.seq (.rep true 1 isSpace) (.seq (.literal status.toList) (.char isSpace))))

/-- `re.search`, in a condition. -/
def shows (change status output : String) : Bool := ((statusPattern change status).search output).isSome

/-- The changes in progress. -/
def doing (output : String) : String :=
  "\n".intercalate ((splitlines output).filter (contains "Doing"))

/-- The polling loop, for so many polls at most. Says whether it ended. -/
def waitForChange (host : Host) (change : String) : ℕ → Call Bool
  | 0 => pure false
  | polls + 1 => do
      let output ← checkOutput host .snapChanges
      if output = "" then pure true
      else if shows change "Done" output then pure true
      else if shows change "Error" output then do
        let tasks ← checkOutput host (.snapTasks change)
        throw { cls := .runtimeError, text := tasks }
      else do
        happen (.printed (doing output))
        happen (.slept 10)
        waitForChange host change polls

/-- `_snap_install`, for so many polls at most. Says whether it ended. -/
def snapInstall (host : Host) (polls : ℕ) (snap channel : String) (classic : Bool) : Call Bool := do
  let change := strip (← checkOutput host (.snapInstall snap channel classic))
  if change = "" then pure true
  else waitForChange host change polls

end MirCi.PytestPlugin.Deps
