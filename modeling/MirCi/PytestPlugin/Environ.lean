import MirCi.Fixtures.Dependency
import MirCi.PytestPlugin.Xdg
import MirCi.Python.MonkeyPatch

/-! The environment of the processes that tests start. Tests run in `os.environ` as their `xdg` and
`env` fixtures patch it, and every program gets a part of it with variables of its own. -/
namespace MirCi.PytestPlugin.Environ

open Python Semantics Fixtures

abbrev Env := Dict String String

/-! ### Programs -/

/-- What of `os.environ` is left to a snap. -/
def reachesSnap (var : String) : Bool :=
  var ∈ ["DISPLAY", "XAUTHORITY", "PATH", "XDG_RUNTIME_DIR", "DBUS_SESSION_BUS_ADDRESS"] ||
    "MIR_SERVER_".toList.isPrefixOf var.toList

/-- `dict(base, **own)`. -/
def override (base own : Env) : Env := own.items.foldl (fun d item => d.set item.1 item.2) base

/-- The environment that `Program.__aenter__` gives to the process. -/
def programEnv (appType : Option AppType) (environ own : Env) : Env :=
  if appType = some .snap then
    override (Dict.ofItems (environ.items.filter fun item => reachesSnap item.1)) own
  else override environ own

def clientDefaults (displayName : String) : Env :=
  Dict.ofItems [("DISPLAY", "no"), ("QT_QPA_PLATFORM", "wayland"), ("WAYLAND_DISPLAY", displayName)]

/-- The variables of its own that `DisplayServer.program` gives to a program. -/
def clientEnv (displayName : String) (env : Env) : Env := override (clientDefaults displayName) env

/-- A program that a test starts on a display server. -/
structure Client where
  appType : Option AppType
  env : Env

/-! ### Fixtures -/

/-- A fixture of a test, with its marks, closest first. Writing the files of the marks may raise, after
some of what the fixture does. -/
inductive Fixture where
  | xdg (marks : List Xdg.Mark) (raises : Option ℕ)
  | env (marks : List Env)

/-- The directory of a test. -/
abbrev TmpPath := String

/-- `str(tmp_path / var)`. -/
def varPath (tmpPath : TmpPath) (var : String) : String := tmpPath ++ "/" ++ var

/-- The variable that a step of the `xdg` fixture sets. -/
def patchOf (tmpPath : TmpPath) : Xdg.XdgAction → Option (String × String)
  | .setenv var => some (var, varPath tmpPath var)
  | _ => none

section Session

variable (config : Xdg.Config) (tmpPath : TmpPath)

/-- What a fixture leaves of the dictionaries of its marks, the variables that it sets, and whether it raises. -/
def Fixture.setUp (heap : Xdg.Heap) : Fixture → Xdg.Heap × List (String × String) × Bool
  | .xdg marks raises =>
      let (heap, actions) := Xdg.xdg config heap marks
      match raises with
      | none => (heap, actions.filterMap (patchOf tmpPath), false)
      | some n => (heap, (actions.take n).filterMap (patchOf tmpPath), true)
  | .env marks => (heap, marks.reverse.flatMap Dict.items, false)

/-- The fixtures of a test around its body: what the body finds in `os.environ`, if it runs, and what is left in
it and of the dictionaries. -/
def around : List Fixture → Xdg.Heap → Env → Option Env × Xdg.Heap × Env
  | [], heap, environ => (some environ, heap, environ)
  | fixture :: rest, heap, environ =>
      let (heap, patches, raises) := fixture.setUp config tmpPath heap
      let (inside, saved) := patches.foldl MonkeyPatch.setitem (environ, [])
      if raises then (none, heap, MonkeyPatch.undo inside saved)
      else
        let (found, heap, left) := around rest heap inside
        (found, heap, MonkeyPatch.undo left saved)

end Session

/-- A test: its fixtures in the order in which they are set up, and the programs it starts. -/
structure Test where
  fixtures : List Fixture
  tmpPath : TmpPath
  displayName : String
  clients : List Client

/-- A test session, with the environments that the programs of each test were given. -/
structure Session where
  heap : Xdg.Heap
  environ : Env
  ran : List (Test × List (Client × Env)) := []

def step (config : Xdg.Config) (s : Session) (test : Test) : Option Session :=
  let (found, heap, environ) := around config test.tmpPath test.fixtures s.heap s.environ
  let started := match found with
    | none => []
    | some found => test.clients.map fun client =>
        (client, programEnv client.appType found (clientEnv test.displayName client.env))
  some { heap, environ, ran := s.ran ++ [(test, started)] }

/-! ### What is found -/

section Found

variable {config : Xdg.Config} {tmpPath : TmpPath}

/-- The last item of a key is the one that counts. -/
theorem get?_ofItems (items : List (String × String)) (var : String) :
    (Dict.ofItems items).get? var = items.reverse.lookup var := by
  induction items using List.reverseRecOn with
  | nil => rfl
  | append_singleton items item ih =>
      rw [Dict.get?_ofItems_append, ih, List.reverse_append, List.lookup_append]
      rfl

theorem get?_ofItems_items (d : Env) (var : String) : (Dict.ofItems d.items).get? var = d.get? var := by
  have hNodup : (d.items.reverse.map Prod.fst).Nodup := by
    rw [List.map_reverse, List.nodup_reverse]
    exact d.nodup
  rw [get?_ofItems]
  ext contents
  rw [Dict.lookup_eq_some hNodup, Dict.get?_eq_some, List.mem_reverse]

theorem get?_override (base own : Env) (var : String) :
    (override base own).get? var = (own.get? var).or (base.get? var) := by
  rw [override, Dict.get?_foldl_set, get?_ofItems_items]

theorem get?_filter (environ : Env) (var : String) :
    (Dict.ofItems (environ.items.filter fun item => reachesSnap item.1)).get? var =
      if reachesSnap var then environ.get? var else none := by
  have hNodup : ((environ.items.filter fun item => reachesSnap item.1).map Prod.fst).Nodup :=
    environ.nodup.sublist (List.filter_sublist.map Prod.fst)
  rw [get?_ofItems_items ⟨_, hNodup⟩]
  ext contents
  rw [Dict.get?_eq_some, List.mem_filter]
  by_cases hReaches : reachesSnap var = true
  · rw [if_pos hReaches, Dict.get?_eq_some]
    exact and_iff_left hReaches
  · simp [hReaches]

/-- What a fixture sets a variable to. -/
def Fixture.declares (config : Xdg.Config) (tmpPath : TmpPath) (var : String) : Fixture → Option String
  | .xdg marks _ =>
      if config.deps = false ∧ ∃ mark ∈ marks, var ∈ mark.keys then some (varPath tmpPath var) else none
  | .env marks => marks.findSome? (Dict.get? · var)

theorem get?_env_patches (marks : List Env) (var : String) :
    (Dict.ofItems (marks.reverse.flatMap Dict.items)).get? var = marks.findSome? (Dict.get? · var) := by
  induction marks with
  | nil => rfl
  | cons mark marks ih =>
      rw [List.reverse_cons, List.flatMap_append, Dict.get?_ofItems_append, ih, List.flatMap_singleton,
        get?_ofItems_items, List.findSome?_cons]
      cases mark.get? var <;> rfl

theorem mem_keys_foldl_mergeItem (items : List (String × Xdg.Ref)) (s : Xdg.Heap × Xdg.Vars) (var : String) :
    var ∈ (items.foldl Xdg.mergeItem s).2.keys ↔ var ∈ s.2.keys ∨ var ∈ items.map Prod.fst := by
  induction items generalizing s with
  | nil => simp
  | cons item items ih =>
      have hItem : var ∈ (Xdg.mergeItem s item).2.keys ↔ var ∈ s.2.keys ∨ var = item.1 := by
        unfold Xdg.mergeItem
        split
        · exact Dict.mem_keys_set _
        · rename_i r hKnown
          refine (or_iff_left_of_imp ?_).symm
          rintro rfl
          exact not_not.mp fun hAbsent => by simp [Dict.get?_eq_none.mpr hAbsent] at hKnown
      rw [List.foldl_cons, ih, hItem, List.map_cons, List.mem_cons, or_assoc]

theorem mem_keys_reduceMarks (heap : Xdg.Heap) (marks : List Xdg.Mark) (var : String) :
    var ∈ (Xdg.reduceMarks heap marks).2.keys ↔ ∃ mark ∈ marks, var ∈ mark.keys := by
  rw [Xdg.reduceMarks_eq, mem_keys_foldl_mergeItem, Xdg.uses, List.map_flatMap, Dict.keys_empty,
    or_iff_right List.not_mem_nil, List.mem_flatMap]
  rfl

theorem patches_of_actions (heap : Xdg.Heap) (items : List (String × Xdg.Ref)) :
    (items.flatMap fun item => Xdg.actionsOf config item.1 (heap item.2)).filterMap (patchOf tmpPath) =
      (items.map Prod.fst).map fun var => (var, varPath tmpPath var) := by
  induction items with
  | nil => rfl
  | cons item items ih =>
      have hItem : (Xdg.actionsOf config item.1 (heap item.2)).filterMap (patchOf tmpPath) =
          [(item.1, varPath tmpPath item.1)] := by
        unfold Xdg.actionsOf
        split <;> simp [List.filterMap_cons, patchOf]
      rw [List.flatMap_cons, List.filterMap_append, ih, hItem]
      rfl

/-- A fixture that does not raise sets each variable to what it declares. -/
theorem get?_setUp (config : Xdg.Config) (tmpPath : TmpPath) (fixture : Fixture) (heap : Xdg.Heap) (var : String)
    (h : (fixture.setUp config tmpPath heap).2.2 = false) :
    (Dict.ofItems (fixture.setUp config tmpPath heap).2.1).get? var = fixture.declares config tmpPath var := by
  cases fixture with
  | env marks => exact get?_env_patches marks var
  | xdg marks raises =>
      cases raises with
      | some n => cases h
      | none =>
          unfold Fixture.setUp Fixture.declares Xdg.xdg
          cases hDeps : config.deps with
          | true => rfl
          | false =>
              simp only [Bool.false_eq_true, if_false, true_and]
              rw [patches_of_actions, Dict.get?_ofItems_map]
              exact if_congr (mem_keys_reduceMarks heap marks var) rfl rfl

/-- What the fixtures of a test make of a variable. The last of them to set it counts. -/
def declared (config : Xdg.Config) (test : Test) (var : String) : Option String :=
  test.fixtures.reverse.findSome? (Fixture.declares config test.tmpPath var)

theorem around_found {fixtures : List Fixture} {heap : Xdg.Heap} {environ found : Env}
    (h : (around config tmpPath fixtures heap environ).1 = some found) (var : String) :
    found.get? var =
      (fixtures.reverse.findSome? (Fixture.declares config tmpPath var)).or (environ.get? var) := by
  induction fixtures generalizing heap environ with
  | nil =>
      cases h
      rfl
  | cons fixture rest ih =>
      rw [around] at h
      have hSetUp := get?_setUp config tmpPath fixture heap var
      generalize fixture.setUp config tmpPath heap = setUp at h hSetUp
      obtain ⟨heap', patches, raises⟩ := setUp
      cases raises with
      | true => cases h
      | false =>
          have hInside := MonkeyPatch.setitems_fst patches (environ, [])
          rw [ih h, hInside, Dict.get?_foldl_set, hSetUp rfl, List.reverse_cons, List.findSome?_append,
            List.findSome?_cons, List.findSome?_nil, Option.or_assoc]
          cases fixture.declares config tmpPath var <;> rfl

/-- Whatever is raised, `os.environ` is left as it was. -/
theorem around_restores (config : Xdg.Config) (tmpPath : TmpPath) (fixtures : List Fixture) (heap : Xdg.Heap)
    (environ : Env) :
    (around config tmpPath fixtures heap environ).2.2 = environ := by
  induction fixtures generalizing heap environ with
  | nil => rfl
  | cons fixture rest ih =>
      rw [around]
      generalize fixture.setUp config tmpPath heap = setUp
      obtain ⟨heap', patches, raises⟩ := setUp
      cases raises with
      | true => exact MonkeyPatch.undo_setitems environ patches
      | false =>
          have hRest := ih heap' (patches.foldl MonkeyPatch.setitem (environ, [])).1
          exact (congrArg (MonkeyPatch.undo · _) hRest).trans (MonkeyPatch.undo_setitems environ patches)

end Found

/-! ### A session -/

/-- What a program finds in a variable: what the test gives it or the server's default, else what the test's
fixtures declare, else what the session started with. A snap gets only some variables from outside. -/
def expected (config : Xdg.Config) (environ : Env) (test : Test) (client : Client) (var : String) :
    Option String :=
  ((client.env.get? var).or ((clientDefaults test.displayName).get? var)).or
    (if client.appType = some .snap ∧ ¬ reachesSnap var then none
      else (declared config test var).or (environ.get? var))

theorem get?_programEnv (appType : Option AppType) (environ own : Env) (var : String) :
    (programEnv appType environ own).get? var =
      (own.get? var).or (if appType = some .snap ∧ ¬ reachesSnap var then none else environ.get? var) := by
  unfold programEnv
  split
  · rename_i hSnap
    rw [get?_override, get?_filter]
    cases reachesSnap var <;> simp [hSnap]
  · rename_i hOther
    rw [get?_override, if_neg fun h => hOther h.1]

/-- The environment is the one the session started with, and every program of every test got what is expected. -/
def Sound (config : Xdg.Config) (environ : Env) (s : Session) : Prop :=
  s.environ = environ ∧ ∀ ran ∈ s.ran, ∀ started ∈ ran.2, ∀ var,
    started.2.get? var = expected config environ ran.1 started.1 var

theorem sound_step {config : Xdg.Config} {environ : Env} {s s' : Session} {test : Test}
    (h : Sound config environ s) (hStep : step config s test = some s') : Sound config environ s' := by
  obtain ⟨rfl, hRan⟩ := h
  have hRestores := around_restores config test.tmpPath test.fixtures s.heap s.environ
  have hFound : ∀ found, (around config test.tmpPath test.fixtures s.heap s.environ).1 = some found →
      ∀ var, found.get? var = (declared config test var).or (s.environ.get? var) := fun _ h => around_found h
  rw [step] at hStep
  generalize around config test.tmpPath test.fixtures s.heap s.environ = outcome at hStep hRestores hFound
  obtain ⟨found, heap, left⟩ := outcome
  cases hStep
  constructor
  · exact hRestores
  · intro ran hMem started hStarted var
    rw [List.mem_append, List.mem_singleton] at hMem
    cases hMem with
    | inl hOld => exact hRan ran hOld started hStarted var
    | inr hNew =>
        subst hNew
        cases found with
        | none => cases hStarted
        | some found =>
            obtain ⟨client, -, rfl⟩ := List.mem_map.mp hStarted
            rw [get?_programEnv, clientEnv, get?_override, hFound found rfl var]
            rfl

/-- No test changes the environment that later tests run in, and each program gets what its own test declares. -/
theorem started_environment {config : Xdg.Config} {heap : Xdg.Heap} {environ : Env} {tests : List Test} {s : Session}
    (h : Runs (step config) Any { heap, environ } tests s) :
    s.environ = environ ∧ ∀ ran ∈ s.ran, ∀ started ∈ ran.2, ∀ var,
      started.2.get? var = expected config environ ran.1 started.1 var :=
  h.invariant (Sound config environ) ⟨rfl, fun _ hRan => by cases hRan⟩ fun _ _ _ hSound _ hStep =>
    sound_step hSound hStep

def loginEnviron : Env := Dict.ofItems [("PATH", "/usr/bin"), ("GSETTINGS_BACKEND", "dconf")]

/-- A test with a keyfile for the settings, and a program of each kind. -/
def keyfileTest : Test where
  fixtures := [.xdg [Dict.empty.set "XDG_CONFIG_HOME" 0] none, .env [Dict.empty.set "GSETTINGS_BACKEND" "keyfile"]]
  tmpPath := "/tmp/test_scale0"
  displayName := "wayland-00"
  clients := [⟨some .deb, .empty⟩, ⟨some .snap, .empty⟩]

def keyfileSession : Session :=
  (step ⟨false, false⟩ { heap := fun _ => .empty, environ := loginEnviron } keyfileTest).get rfl

/-- The snap is not told of the keyfile. -/
theorem started_environment_keyfile :
    Runs (step ⟨false, false⟩) Any { heap := fun _ => .empty, environ := loginEnviron } [keyfileTest] keyfileSession ∧
      keyfileSession.environ = loginEnviron ∧
      ∀ ran ∈ keyfileSession.ran, ran.2.map (fun started => started.2.get? "GSETTINGS_BACKEND") =
        [some "keyfile", none] := by
  have hRun : Runs (step ⟨false, false⟩) Any { heap := fun _ => .empty, environ := loginEnviron } [keyfileTest]
      keyfileSession := Runs.single trivial rfl
  obtain ⟨hEnviron, hStarted⟩ := started_environment hRun
  refine ⟨hRun, hEnviron, fun ran hRan => ?_⟩
  rw [List.map_congr_left fun started hMem => hStarted ran hRan started hMem "GSETTINGS_BACKEND"]
  obtain rfl := List.mem_singleton.mp hRan
  rfl

end MirCi.PytestPlugin.Environ
