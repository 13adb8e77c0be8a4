import MirCi.Python.Method

/-! The commands the plugin runs to install dependencies, and the state of a session
that they and the fixtures share. Everything outside answers by what happened so far. -/
namespace MirCi.PytestPlugin.Deps

open Python Semantics Effect

inductive Command where
  /-- `sudo snap install --no-wait snap --channel channel`, with `--classic` if classic -/
  | snapInstall (snap channel : String) (classic : Bool)
  /-- `snap changes` -/
  | snapChanges
  /-- `snap tasks change` -/
  | snapTasks (change : String)
  /-- `sudo /snap/snap/current/bin/setup.sh` -/
  | setup (snap : String)
  /-- `sudo snap connect plug`, and the slot if there is one -/
  | snapConnect (plug : String) (slot : Option String)
  /-- `dpkg --status` of these, in some order -/
  | dpkgStatus (debs : Finset String)
  /-- `sudo DEBIAN_FRONTEND=noninteractive apt-get install --yes` of these, in some order -/
  | aptInstall (debs : Finset String)
  /-- `apt-cache policy` -/
  | aptCachePolicy
  /-- `sudo add-apt-repository --yes ppa:mir-team/release` -/
  | addAptRepository
  /-- `python3 -m pip install` of these -/
  | pipInstall (pkgs : List String)
  deriving DecidableEq

/-- How a command ends: with an exit status and what it printed, or in an exception, be it because
it cannot be started or because the wait for it is interrupted. -/
inductive Ended where
  | exited (status : ℤ) (stdout : String)
  | raised (e : Exc)
  deriving DecidableEq

/-- What happens in a session, and what is recorded of it. -/
inductive Event where
  | ran (command : Command) (ended : Ended)
  | recordedDebs (debs : Finset String)
  | recordedSnap (snap : String)
  | printed (text : String)
  | slept (seconds : ℕ)
  | warned (text : String)
  deriving DecidableEq

abbrev History := List Event

/-- How the import of a module ends. -/
inductive Imported where
  | found
  | missing
  | raised (e : Exc)

/-- What the plugin asks of its surroundings. -/
structure Host where
  ends : History → Command → Ended
  which : History → String → Bool
  imports : History → String → Imported
  environ : String → Option String
  codename : String

/-- The session's keywords `debs` and `snaps`, the outcome of the `ppa` fixture once it ran, and all
that happened. -/
structure Session where
  debs : Finset String := ∅
  snaps : Finset String := ∅
  ppa : Option (Option Exc) := none
  history : History := []

abbrev Call (α : Type) := Method Session α

def happen (e : Event) : Call Unit := modify fun s => { s with history := s.history ++ [e] }

def run (host : Host) (command : Command) : Call Ended := do
  let ended := host.ends (← get).history command
  happen (.ran command ended)
  return ended

def calledProcessError : Exc where
  cls := .calledProcessError

/-- `subprocess.check_output`. -/
def checkOutput (host : Host) (command : Command) : Call String := do
  match ← run host command with
  | .exited status stdout => if status = 0 then pure stdout else throw calledProcessError
  | .raised e => throw e

/-- `subprocess.check_call`. -/
def checkCall (host : Host) (command : Command) : Call Unit := do
  let _ ← checkOutput host command

/-- `subprocess.call`, whose result is not looked at. -/
def call (host : Host) (command : Command) : Call Unit := do
  match ← run host command with
  | .exited _ _ => pure ()
  | .raised e => throw e

/-- The state after an event. -/
def Session.after (s : Session) (e : Event) : Session := { s with history := s.history ++ [e] }

section Run

variable {host : Host} {command : Command} {s : Session}

theorem run_run (host : Host) (command : Command) (s : Session) :
    (run host command).run s =
      .ok (host.ends s.history command) (s.after (.ran command (host.ends s.history command))) := rfl

theorem checkOutput_run_of_exited {status : ℤ} {stdout : String}
    (h : host.ends s.history command = .exited status stdout) :
    (checkOutput host command).run s =
      if status = 0 then .ok stdout (s.after (.ran command (.exited status stdout)))
      else .error calledProcessError (s.after (.ran command (.exited status stdout))) := by
  rw [checkOutput, EStateM.run_bind, run_run, h]
  dsimp only
  split <;> rfl

theorem checkOutput_run_of_raised {e : Exc} (h : host.ends s.history command = .raised e) :
    (checkOutput host command).run s = .error e (s.after (.ran command (.raised e))) := by
  rw [checkOutput, EStateM.run_bind, run_run, h]
  rfl

/-- Whichever way it ends, a checked command is one event. -/
theorem state_checkOutput (host : Host) (command : Command) (s : Session) :
    state ((checkOutput host command).run s) =
      s.after (.ran command (host.ends s.history command)) := by
  cases h : host.ends s.history command with
  | exited status stdout =>
      rw [checkOutput_run_of_exited h]
      split <;> rfl
  | raised e => rw [checkOutput_run_of_raised h, state_error]

end Run

end MirCi.PytestPlugin.Deps
