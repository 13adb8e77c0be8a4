import MirCi.Fixtures.Dependency
import MirCi.PytestPlugin.SnapInstall

/-! `_deps_install`: what a test needs is installed, unless the session has it on record. -/
namespace MirCi.PytestPlugin.Deps

open Python Semantics Effect Fixtures

/-- A package for `pip`, with the module it provides if that has another name. -/
structure PipPkg where
  pkg : String
  module : Option String := none
  deriving DecidableEq, Repr

/-- The keys that a specification can have. -/
structure SpecDict where
  cmd : List String := []
  debs : List String := []
  snap : Option String := none
  channel : Option String := none
  classic : Bool := false
  pipPkgs : List PipPkg := []
  appType : Option AppType := none

inductive Spec where
  | dict (spec : SpecDict)
  | str (spec : String)
  | other (repr : String)

/-- The variables that the function reads a specification into. -/
structure Request where
  cmd : List (Option String)
  debs : List String
  snap : Option String
  channel : String
  classic : Bool
  pipPkgs : List PipPkg
  appType : Option AppType

def Spec.read : Spec → Except Exc Request
  | .dict spec => .ok
      { cmd := if spec.cmd = [] then [spec.snap] else spec.cmd.map some
        debs := spec.debs
        snap := spec.snap
        channel := spec.channel.getD "latest/stable"
        classic := spec.classic
        pipPkgs := spec.pipPkgs
        appType := spec.appType }
  | .str spec => .ok
      { cmd := [some spec]
        debs := []
        snap := some spec
        channel := "latest/stable"
        classic := false
        pipPkgs := []
        appType := some .snap }
  | .other repr => .error
      { cls := .typeError
        text := "Bad value for argument `spec`: " ++ repr }

/-- `RELEASE_PPA_ENTRY`. -/
def releasePpaEntry (host : Host) : String :=
  s!"https://ppa.launchpadcontent.net/mir-team/release/ubuntu {host.codename}/main"

/-- The `ppa` fixture. -/
def ppa (host : Host) : Call Unit := do
  let history := (← get).history
  if host.which history "apt-cache" ∧ host.which history "apt-get" then do
    let policy ← checkOutput host .aptCachePolicy
    if contains (releasePpaEntry host) policy then pure ()
    else do
      checkCall host (.aptInstall {"software-properties-common"})
      checkCall host .addAptRepository
  else happen (.warned "Skipping PPA setup due to missing tools.")

/-- `request.getfixturevalue("ppa")`. The cache of session fixtures is that of pytest and is written out
here: the fixture runs once in a session, and how it ended is kept, also when it raised an `Exception`. -/
def getPpa (host : Host) : Call Unit := do
  match (← get).ppa with
  | some none => pure ()
  | some (some e) => throw e
  | none =>
      tryCatch (do ppa host; modify fun s => { s with ppa := some none }) fun e => do
        if e.isa .exception then modify fun s => { s with ppa := some (some e) }
        else pure ()
        throw e

def recordDebs (debs : Finset String) : Call Unit := do
  modify fun s => { s with debs := s.debs ∪ debs }
  happen (.recordedDebs debs)

def recordSnap (snap : String) : Call Unit := do
  modify fun s => { s with snaps := insert snap s.snaps }
  happen (.recordedSnap snap)

/-- Debs that are not on record and either there or installed. -/
def provideDebs (host : Host) (unchecked : Finset String) : Call Unit := do
  tryCatch (checkCall host (.dpkgStatus unchecked)) fun e =>
    if e.isa .calledProcessError then do
      getPpa host
      checkCall host (.aptInstall unchecked)
    else throw e
  recordDebs unchecked

def installDebs (host : Host) (debs : List String) : Call Unit := do
  let s ← get
  if debs = [] then pure ()
  else if host.which s.history "dpkg" ∧ host.which s.history "apt-get" then
    if debs.toFinset \ s.debs = ∅ then pure ()
    else provideDebs host (debs.toFinset \ s.debs)
  else happen (.warned "Skipping deb installation due to missing tools.")

def setupPath (snap : String) : String := s!"/snap/{snap}/current/bin/setup.sh"

/-- The set-up script of a snap, if it has one. -/
def setUp (host : Host) (snap : String) : Call Unit := do
  if host.which (← get).history (setupPath snap) then checkCall host (.setup snap)
  else pure ()

def connectSnap (host : Host) (snap : String) : Call Unit := do
  call host (.snapConnect s!"{snap}:login-session-control" none)
  match host.environ "MIR_CI_SNAP" with
  | some slot => call host (.snapConnect s!"{snap}:wayland" (some slot))
  | none => pure ()

/-- A snap that is not on record. Says whether the wait for it ended. -/
def provideSnap (host : Host) (polls : ℕ) (snap channel : String) (classic : Bool) : Call Bool := do
  let ended ← snapInstall host polls snap channel classic
  if ended then do
    setUp host snap
    connectSnap host snap
    recordSnap snap
    pure true
  else pure false

def installSnap (host : Host) (polls : ℕ) (r : Request) : Call Bool := do
  let s ← get
  match r.snap with
  | none => pure true
  | some snap =>
      if snap = "" ∨ snap ∈ s.snaps then pure true
      else provideSnap host polls snap r.channel r.classic

/-- `_find_pips`. -/
def findPips (host : Host) : List PipPkg → Call (List String)
  | [] => pure []
  | pkg :: rest => do
      match host.imports (← get).history (pkg.module.getD pkg.pkg) with
      | .found => findPips host rest
      | .missing => do
          let missing ← findPips host rest
          pure (pkg.pkg :: missing)
      | .raised e => throw e

def installPips (host : Host) (pipPkgs : List PipPkg) : Call Unit := do
  let missing ← findPips host pipPkgs
  if missing = [] then pure ()
  else checkCall host (.pipInstall missing)

/-- The three steps of a call under `--deps`. -/
def install (host : Host) (polls : ℕ) (r : Request) : Call Bool := do
  installDebs host r.debs
  let ended ← installSnap host polls r
  if ended then do
    installPips host r.pipPkgs
    pure true
  else pure false

/-- `_deps_install`, for so many polls of a change at most: what `app.App` is made of, or nothing
while it still waits. -/
def depsInstall (host : Host) (deps : Bool) (polls : ℕ) (spec : Spec) :
    Call (Option (List (Option String) × Option AppType)) := do
  let r ← compute spec.read
  if deps then do
    let ended ← install host polls r
    pure (if ended then some (r.cmd, r.appType) else none)
  else pure (some (r.cmd, r.appType))

/-! ### A session under `--deps` -/

/-- A session, and whether its last call is still waiting. -/
structure Progress where
  session : Session := {}
  waiting : Bool := false

/-- A call that is made, with the number of polls that it got to. -/
def step (host : Host) (p : Progress) (made : ℕ × Spec) : Option Progress :=
  if p.waiting then none
  else
    match (depsInstall host true made.1 made.2).run p.session with
    | .ok none s => some ⟨s, true⟩
    | .ok (some _) s => some ⟨s, false⟩
    | .error _ s => some ⟨s, false⟩

end MirCi.PytestPlugin.Deps
