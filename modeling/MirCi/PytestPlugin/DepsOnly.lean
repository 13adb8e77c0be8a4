import MirCi.Fixtures.Servers
import MirCi.PytestPlugin.DepsProvided
import MirCi.Semantics.Contract

/-! A run under `--deps`: tests are set up to the last fixture that installs something, and skipped there. -/
namespace MirCi.PytestPlugin.Deps

open Python Semantics Effect Fixtures

/-- A `deps` mark: all of it given by position, or the command given so and the rest by keyword. -/
inductive Mark where
  | positional (args : List Spec)
  | keyword (args : List String) (cmd : Option (List String)) (kwargs : SpecDict)

/-- `mark.kwargs and dict({"cmd": mark.args}, **mark.kwargs) or mark.args[0]`. -/
def Mark.spec : Mark → Except Exc Spec
  | .positional [] => .error { cls := .indexError, text := "tuple index out of range" }
  | .positional (spec :: _) => .ok spec
  | .keyword args cmd kwargs => .ok (.dict { kwargs with cmd := cmd.getD args })

/-- The keyword arguments of the mark that comes with a server. -/
def serverSpec (mark : DepsMark) : Spec :=
  .dict
    { cmd := mark.cmd
      debs := mark.debs
      snap := mark.snap
      channel := some mark.channel
      classic := mark.classic
      pipPkgs := mark.pipPkgs.map fun pkg => { pkg }
      appType := some mark.appType }

/-- What ends the set-up of a test before its body. -/
inductive Stop where
  /-- `pytest.skip("dependency-only run")` -/
  | skipped
  | raised (e : Exc)
  /-- a snap is still being installed -/
  | waiting

/-- Whether `--deps` is given, how long an installation of a snap is waited for, and the process. -/
structure Setting where
  deps : Bool
  polls : ℕ
  pid : ℕ

/-- What `app.App` is made of. -/
abbrev AppArgs := List (Option String) × Option AppType

/-- The set-up of a test: the session, the entry `depfixtures` of the test's keywords, and the values
of its fixtures. -/
structure State where
  session : Session
  depfixtures : Finset String := ∅
  funcargs : List (String × Option AppArgs) := []

abbrev SettingUp (α : Type) := EStateM Stop State α

/-- `DEP_FIXTURES`. -/
def depFixtures : Finset String := {"any_server", "deps"}

section Fixtures

variable (host : Host) (setting : Setting)

/-- A call of `_deps_install` in the set-up of a test. -/
def provide (spec : Except Exc Spec) : SettingUp AppArgs := fun s =>
  match spec with
  | .error e => .error (.raised e) s
  | .ok spec =>
      match (depsInstall host setting.deps setting.polls spec).run s.session with
      | .ok (some app) session => .ok app { s with session }
      | .ok none session => .error .waiting { s with session }
      | .error e session => .error (.raised e) { s with session }

/-- `_deps_skip`. -/
def depsSkip (fixturenames : List String) (fixturename : String) : SettingUp Unit :=
  if fixturename ∈ depFixtures then
    if setting.deps then do
      modify fun s => { s with depfixtures := insert fixturename s.depfixtures }
      let s ← get
      if s.depfixtures = depFixtures ∩ fixturenames.toFinset then throw .skipped
      else pure ()
    else pure ()
  else throw (.raised { cls := .assertionError, text := s!"`{fixturename}` not in DEP_FIXTURES" })

def anyServer (fixturenames : List String) (server : Fixtures.Server) : SettingUp (Option AppArgs) := do
  let app ← provide host setting (.ok (serverSpec (server.call ⟨host.environ, setting.pid⟩).deps))
  depsSkip setting fixturenames "any_server"
  pure (some app)

/-- The marks that are left, from near to far, and the closest one last. -/
def provideAll (closest : Mark) (marks : List Mark) : SettingUp AppArgs := do
  forM marks fun mark => do
    let _ ← provide host setting mark.spec
  provide host setting closest.spec

/-- Whether `error` is still unset in the `finally` clause. What never ends gets to no clause. -/
def Stop.unset : Stop → Bool
  | .skipped => true
  | .raised e => !e.isa .exception
  | .waiting => false

/-- An exception on its way through the `finally` clause. -/
def finish (fixturenames : List String) (stop : Stop) : SettingUp AppArgs :=
  if stop.unset then do
    depsSkip setting fixturenames "deps"
    throw stop
  else throw stop

def deps (fixturenames : List String) : List Mark → SettingUp (Option AppArgs)
  | [] => do
      depsSkip setting fixturenames "deps"
      pure none
  | closest :: marks => do
      let app ← tryCatch (provideAll host setting closest marks) (finish setting fixturenames)
      depsSkip setting fixturenames "deps"
      pure (some app)

/-- A fixture that a test requests. Of others it matters only whether they raise. -/
inductive Fixture where
  | anyServer (server : Fixtures.Server)
  | deps (marks : List Mark)
  | other (name : {name : String // name ∉ depFixtures}) (raises : Option Exc)

def Fixture.name : Fixture → String
  | .anyServer _ => "any_server"
  | .deps _ => "deps"
  | .other name _ => name

/-- A test with its fixtures, in the order of their set-up. -/
structure Item where
  fixtures : List Fixture
  nodup : (fixtures.map Fixture.name).Nodup

def Item.fixturenames (item : Item) : List String := item.fixtures.map Fixture.name

end Fixtures

/-! ### What is provided -/

def SpecProvided (host : Host) (history : History) (spec : Except Exc Spec) : Prop :=
  ∃ known r, spec = .ok known ∧ known.read = .ok r ∧ Provided host history r

/-- The specifications that a fixture installs. -/
def Fixture.specs (host : Host) (setting : Setting) : Fixture → List (Except Exc Spec)
  | .anyServer server => [.ok (serverSpec (server.call ⟨host.environ, setting.pid⟩).deps)]
  | .deps marks => marks.map Mark.spec
  | .other _ _ => []

/-- All that the fixture is for is there. -/
def Fixture.Met (host : Host) (setting : Setting) (history : History) (fixture : Fixture) : Prop :=
  ∀ spec ∈ fixture.specs host setting, SpecProvided host history spec

/-- The installation for a `deps` fixture was broken off, by what is no `Exception`. -/
def Fixture.Interrupted (host : Host) (setting : Setting) (history : History) (fixture : Fixture) : Prop :=
  ∃ closest marks s e t, fixture = .deps (closest :: marks) ∧
    (provideAll host setting closest marks).run s = .error (.raised e) t ∧ e.isa .exception = false ∧
    t.session.history <+: history

/-- A later moment of a set-up, with no fixture evaluated since. -/
structure After (host : Host) (s t : State) : Prop where
  sound : RecordSound host t.session
  past : s.session.history <+: t.session.history
  seen : t.depfixtures = s.depfixtures

section Provide

variable {host : Host} {setting : Setting} {s : State}

theorem SpecProvided.later {history further : History} {spec : Except Exc Spec}
    (h : SpecProvided host history spec) (hLater : history <+: further) : SpecProvided host further spec := by
  obtain ⟨known, r, hKnown, hRead, hProvided⟩ := h
  exact ⟨known, r, hKnown, hRead, hProvided.later hLater⟩

theorem After.trans {t u : State} (h : After host s t) (hNext : After host t u) : After host s u :=
  ⟨hNext.sound, h.past.trans hNext.past, hNext.seen.trans h.seen⟩

end Provide

/-! ### A test, and a run of tests -/

/-- The test is skipped at the last of its fixtures that install something, and all that they are for is
there, unless the installation for that last one was broken off. -/
def SkippedRightly (host : Host) (setting : Setting) (history : History) (item : Item) : Prop :=
  ∃ before last after, item.fixtures = before ++ last :: after ∧
    (∀ fixture ∈ before, fixture.Met host setting history) ∧
    (last.Met host setting history ∨ last.Interrupted host setting history) ∧ last.name ∈ depFixtures ∧
    ∀ fixture ∈ after, fixture.name ∉ depFixtures

/-- How a set-up stops. -/
structure Stopped (host : Host) (setting : Setting) (item : Item) (s : Session) (stop : Stop) (t : State) : Prop where
  sound : RecordSound host t.session
  past : s.history <+: t.session.history
  skipped : stop = .skipped → SkippedRightly host setting t.session.history item

section Run

variable {host : Host} {setting : Setting} {s : Session}

theorem Fixture.Met.later {history further : History} {fixture : Fixture} (h : fixture.Met host setting history)
    (hLater : history <+: further) : fixture.Met host setting further := fun spec hSpec => (h spec hSpec).later hLater

theorem Fixture.Interrupted.later {history further : History} {fixture : Fixture}
    (h : fixture.Interrupted host setting history) (hLater : history <+: further) :
    fixture.Interrupted host setting further := by
  obtain ⟨closest, marks, s, e, t, hMarks, hRun, hOther, hPast⟩ := h
  exact ⟨closest, marks, s, e, t, hMarks, hRun, hOther, hPast.trans hLater⟩

theorem SkippedRightly.later {history further : History} {item : Item}
    (h : SkippedRightly host setting history item) (hLater : history <+: further) :
    SkippedRightly host setting further item := by
  obtain ⟨before, last, after, hAll, hBefore, hLast, hRest⟩ := h
  exact ⟨before, last, after, hAll, fun fixture hMem => (hBefore fixture hMem).later hLater,
    hLast.imp (fun hMet => hMet.later hLater) fun hBroken => hBroken.later hLater, hRest⟩

end Run

/-! ### A run without `--deps` -/

section Off

variable {host : Host} {setting : Setting} {s : Session}

/-- Nothing happened in the session. -/
def Untouched (s : Session) (t : State) : Prop := t.session = s

end Off

end MirCi.PytestPlugin.Deps
