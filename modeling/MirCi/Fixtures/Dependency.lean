import MirCi.Python.Exception

/-! The parameters of tests that stand for installable programs, each with the mark
that says what to install. -/
namespace MirCi.Fixtures

open Python

inductive AppType where
  | snap
  | deb
  | pip
  deriving DecidableEq, Repr

def AppType.all : List AppType := [.snap, .deb, .pip]

def AppType.name : AppType → String
  | .snap => "snap"
  | .deb => "deb"
  | .pip => "pip"

/-- `AppType[name]`. -/
def AppType.named (name : String) : Except Exc AppType :=
  match AppType.all.find? fun appType => appType.name = name with
  | some appType => .ok appType
  | none => .error { cls := .keyError, text := name }

theorem AppType.named_name (appType : AppType) : AppType.named appType.name = .ok appType := by
  cases appType <;> decide +kernel

theorem AppType.named_eq_ok {name : String} {appType : AppType} :
    AppType.named name = .ok appType ↔ name = appType.name := by
  constructor
  · intro h
    cases hFind : AppType.all.find? fun appType => appType.name = name with
    | none => simp [AppType.named, hFind] at h
    | some found =>
        obtain rfl : found = appType := by simpa [AppType.named, hFind] using h
        have hName : found.name = name := by simpa using List.find?_some hFind
        exact hName.symm
  · rintro rfl
    exact named_name appType

structure App where
  command : List String
  appType : Option AppType := none
  extensions : List String := []
  deriving DecidableEq, Repr

/-- The keyword arguments of a `deps` mark made by `_dependency`, with its defaults. -/
structure DepsMark where
  cmd : List String
  snap : Option String := none
  debs : List String := []
  pipPkgs : List String := []
  channel : String := "latest/stable"
  classic : Bool := false
  appType : AppType
  deriving DecidableEq, Repr

/-- `pytest.param`, the `deps` mark being the first of its marks. -/
structure Param where
  app : App
  deps : DepsMark
  id : String
  deriving DecidableEq, Repr

/-- `_dependency`. The command of the app and that of the mark are the same here; the other marks,
`extra` and `extensions` are left out. -/
def dependency (deps : DepsMark) (id : String) : Param where
  app := { command := deps.cmd, appType := some deps.appType }
  deps := deps
  id := id

/-- What the fixtures pass by keyword, with the defaults of `_dependency`. -/
structure Options where
  cmd : List String := []
  id : Option String := none
  channel : String := "latest/stable"
  classic : Bool := false
  debs : List String := []
  deriving DecidableEq, Repr

/-- `cmd or default`: a command that is given empty counts as none. -/
def Options.command (o : Options) (default : List String) : List String :=
  if o.cmd = [] then default else o.cmd

/-- `id or default`. -/
def Options.ident (o : Options) (default : String) : String :=
  match o.id with
  | some "" | none => default
  | some id => id

/-- The snap names the command, the dependency and the test, unless told otherwise. -/
def snap (snap : String) (args : List String := []) (o : Options := {}) : Param :=
  dependency
    { cmd := o.command (snap :: args), snap := some snap, channel := o.channel, classic := o.classic
      debs := o.debs, appType := .snap }
    (o.ident snap)

/-- The deb names the command. It is the one deb to install unless others are given. -/
def deb (deb : String) (args : List String := []) (o : Options := {}) : Param :=
  dependency
    { cmd := o.command (deb :: args), debs := if o.debs = [] then [deb] else o.debs
      channel := o.channel, classic := o.classic, appType := .deb }
    (o.ident deb)

/-- The package is run as a module. It is always the one package to install. -/
def pip (pkg : String) (args : List String := []) (o : Options := {}) : Param :=
  dependency
    { cmd := o.command ("python3" :: "-m" :: pkg :: args), pipPkgs := [pkg], debs := o.debs
      channel := o.channel, classic := o.classic, appType := .pip }
    (o.ident pkg)

end MirCi.Fixtures
