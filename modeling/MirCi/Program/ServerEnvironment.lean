import MirCi.Python.Dict
import MirCi.Semantics.Run

/-! The environments of display servers. A server that is made without an environment of
its own writes into the one dictionary that is the default of the argument. -/
namespace MirCi.Program.DisplayServer

open Python Semantics

/-- The identity of a dictionary. That of the default argument is 0. -/
abbrev EnvRef := ℕ

abbrev Env := Dict String String

/-- A server with what its constructor was given, and the dictionary it kept. -/
structure BuiltServer where
  addExtensions : List String
  given : Option Env
  env : EnvRef

/-- An entered server, and the environment that it handed to the program. -/
structure Handed where
  server : BuiltServer
  env : Env

structure Servers where
  dicts : EnvRef → Env := fun _ => .empty
  fresh : EnvRef := 1
  servers : List BuiltServer := []
  handed : List Handed := []

inductive ServerAction where
  /-- `DisplayServer(app, add_extensions, env)`, or without `env` -/
  | construct (addExtensions : List String) (env : Option Env)
  /-- `__aenter__` of a server -/
  | enter (index : ℕ)

def joined (addExtensions : List String) : String := ":".intercalate addExtensions

/-- What the constructor makes of the dictionary it was given. -/
def initEnv (displayName : String) (addExtensions : List String) (env : Env) : Env :=
  (env.set "WAYLAND_DISPLAY" displayName).set "MIR_SERVER_ADD_WAYLAND_EXTENSIONS" (joined addExtensions)

def construct (displayName : String) (addExtensions : List String) (given : Option Env) (s : Servers) : Servers :=
  let (env, before) := match given with
    | some given => (s.fresh, given)
    | none => (0, s.dicts 0)
  { s with
    dicts := Function.update s.dicts env (initEnv displayName addExtensions before)
    fresh := s.fresh + 1
    servers := s.servers ++ [⟨addExtensions, given, env⟩] }

def step (displayName : String) (s : Servers) : ServerAction → Option Servers
  | .construct addExtensions env => some (construct displayName addExtensions env s)
  | .enter index =>
      s.servers[index]?.map fun server =>
        { s with handed := s.handed ++ [⟨server, s.dicts server.env⟩] }

/-- What a server's environment has for a variable, by its own arguments. -/
def BuiltServer.own (displayName : String) (server : BuiltServer) (var : String) : Option String :=
  if var = "MIR_SERVER_ADD_WAYLAND_EXTENSIONS" then some (":".intercalate server.addExtensions)
  else if var = "WAYLAND_DISPLAY" then some displayName
  else (server.given.getD .empty).get? var

/-- The program got the server's own environment. -/
def Handed.Own (displayName : String) (handed : Handed) : Prop :=
  ∀ var, handed.env.get? var = handed.server.own displayName var

/-- The servers that were made without an environment. -/
def Servers.sharing (s : Servers) : List BuiltServer := s.servers.filter fun server => server.given.isNone

/-- A server that is entered has an environment of its own, or the last one that was made without adds
the same extensions. -/
def Unshared (s : Servers) : ServerAction → Prop
  | .construct _ _ => True
  | .enter index => ∀ server, s.servers[index]? = some server → server.given = none →
      ∀ last ∈ s.sharing.getLast?, ":".intercalate last.addExtensions = ":".intercalate server.addExtensions

section Run

variable {displayName : String} {s t : Servers} {server : BuiltServer}

theorem get?_initEnv (addExtensions : List String) (env : Env) (var : String) :
    (initEnv displayName addExtensions env).get? var =
      if var = "MIR_SERVER_ADD_WAYLAND_EXTENSIONS" then some (joined addExtensions)
      else if var = "WAYLAND_DISPLAY" then some displayName else env.get? var := by
  rw [initEnv, Dict.get?_set, Dict.get?_set]

/-- What every dictionary holds: the default one what the last server that shares it wrote, the others
what their servers want. -/
structure Written (displayName : String) (s : Servers) : Prop where
  shared : ∀ var, (s.dicts 0).get? var = s.sharing.getLast?.bind fun last => last.own displayName var
  without : ∀ server ∈ s.servers, server.given = none → server.env = 0
  refs : ∀ server ∈ s.servers, server.given ≠ none → 0 < server.env ∧ server.env < s.fresh
  own : ∀ server ∈ s.servers, server.given ≠ none → ∀ var,
    (s.dicts server.env).get? var = server.own displayName var
  fresh : 0 < s.fresh

theorem written_start : Written displayName {} := by
  refine ⟨fun _ => rfl, ?_, ?_, ?_, Nat.one_pos⟩ <;> simp

theorem sharing_construct_none (addExtensions : List String) :
    (construct displayName addExtensions none s).sharing = s.sharing ++ [⟨addExtensions, none, 0⟩] := by
  simp [construct, Servers.sharing, List.filter_append]

theorem sharing_construct_some (addExtensions : List String) (given : Env) :
    (construct displayName addExtensions (some given) s).sharing = s.sharing := by
  simp [construct, Servers.sharing, List.filter_append]

theorem dicts_construct_none (addExtensions : List String) :
    (construct displayName addExtensions none s).dicts =
      Function.update s.dicts 0 (initEnv displayName addExtensions (s.dicts 0)) := rfl

theorem dicts_construct_some (addExtensions : List String) (given : Env) :
    (construct displayName addExtensions (some given) s).dicts =
      Function.update s.dicts s.fresh (initEnv displayName addExtensions given) := rfl

/-- A server without an environment wants nothing else. -/
theorem own_of_sharing (hGiven : server.given = none) {var : String}
    (hExtensions : var ≠ "MIR_SERVER_ADD_WAYLAND_EXTENSIONS") (hDisplay : var ≠ "WAYLAND_DISPLAY") :
    server.own displayName var = none := by
  rw [BuiltServer.own, if_neg hExtensions, if_neg hDisplay, hGiven]
  rfl

/-- The servers that share are among those made without an environment. -/
theorem given_of_sharing (h : server ∈ s.sharing) : server.given = none := by
  simpa using (List.mem_filter.mp h).2

/-- A server made without an environment overwrites the default dictionary. -/
theorem Written.construct_none (h : Written displayName s) (addExtensions : List String) :
    Written displayName (construct displayName addExtensions none s) := by
  have hOthers : ∀ server ∈ s.servers, server.given ≠ none → server.env ≠ 0 :=
    fun server hServer hGiven => (h.refs server hServer hGiven).1.ne'
  refine ⟨?_, ?_, ?_, ?_, Nat.succ_pos _⟩
  · intro var
    rw [sharing_construct_none, List.getLast?_concat, Option.bind_some]
    rw [dicts_construct_none, Function.update_self, get?_initEnv, BuiltServer.own]
    split_ifs with hExtensions hDisplay
    · rfl
    · rfl
    · rw [h.shared]
      change _ = none
      rw [Option.bind_eq_none_iff]
      intro last hLast
      exact own_of_sharing (given_of_sharing (List.mem_of_getLast? hLast)) hExtensions hDisplay
  · intro server hServer hGiven
    rcases List.mem_append.mp hServer with hServer | hServer
    · exact h.without server hServer hGiven
    · rw [List.mem_singleton.mp hServer]
  · intro server hServer hGiven
    rcases List.mem_append.mp hServer with hServer | hServer
    · exact ⟨(h.refs server hServer hGiven).1, Nat.lt_succ_of_lt (h.refs server hServer hGiven).2⟩
    · rw [List.mem_singleton.mp hServer] at hGiven
      exact absurd rfl hGiven
  · intro server hServer hGiven var
    rcases List.mem_append.mp hServer with hServer | hServer
    · rw [dicts_construct_none, Function.update_of_ne (hOthers server hServer hGiven)]
      exact h.own server hServer hGiven var
    · rw [List.mem_singleton.mp hServer] at hGiven
      exact absurd rfl hGiven

/-- A server with an environment of its own writes there. -/
theorem Written.construct_some (h : Written displayName s) (addExtensions : List String) (given : Env) :
    Written displayName (construct displayName addExtensions (some given) s) := by
  refine ⟨?_, ?_, ?_, ?_, Nat.succ_pos _⟩
  · intro var
    rw [sharing_construct_some]
    rw [dicts_construct_some, Function.update_of_ne h.fresh.ne]
    exact h.shared var
  · intro server hServer hGiven
    rcases List.mem_append.mp hServer with hServer | hServer
    · exact h.without server hServer hGiven
    · rw [List.mem_singleton.mp hServer] at hGiven
      cases hGiven
  · intro server hServer hGiven
    rcases List.mem_append.mp hServer with hServer | hServer
    · exact ⟨(h.refs server hServer hGiven).1, Nat.lt_succ_of_lt (h.refs server hServer hGiven).2⟩
    · rw [List.mem_singleton.mp hServer]
      exact ⟨h.fresh, Nat.lt_succ_self _⟩
  · intro server hServer hGiven var
    rcases List.mem_append.mp hServer with hServer | hServer
    · rw [dicts_construct_some, Function.update_of_ne (h.refs server hServer hGiven).2.ne]
      exact h.own server hServer hGiven var
    · rw [List.mem_singleton.mp hServer]
      rw [dicts_construct_some, Function.update_self, get?_initEnv]
      rfl

theorem Written.step {action : ServerAction} (h : Written displayName s)
    (hStep : step displayName s action = some t) : Written displayName t := by
  cases action with
  | construct addExtensions given =>
      cases hStep
      cases given with
      | none => exact h.construct_none addExtensions
      | some given => exact h.construct_some addExtensions given
  | enter index =>
      obtain ⟨server, -, rfl⟩ := Option.map_eq_some_iff.mp hStep
      exact ⟨h.shared, h.without, h.refs, h.own, h.fresh⟩

/-- An entered server hands over its own environment just when it is unshared. -/
theorem Written.enter (h : Written displayName s) {index : ℕ} (hServer : s.servers[index]? = some server) :
    Handed.Own displayName ⟨server, s.dicts server.env⟩ ↔ Unshared s (.enter index) := by
  have hMem : server ∈ s.servers := List.mem_of_getElem? hServer
  by_cases hGiven : server.given = none
  · obtain ⟨last, hLast⟩ : ∃ last, s.sharing.getLast? = some last := by
      rw [← Option.isSome_iff_exists, List.getLast?_isSome]
      exact List.ne_nil_of_mem (List.mem_filter.mpr ⟨hMem, by simp [hGiven]⟩)
    have hLastGiven := given_of_sharing (List.mem_of_getLast? hLast)
    have hDict : ∀ var, (s.dicts server.env).get? var = last.own displayName var := by
      intro var
      rw [h.without server hMem hGiven, h.shared, hLast, Option.bind_some]
    constructor
    · intro hOwn server' hServer' _ last' hLast'
      obtain rfl := Option.some.inj (hServer.symm.trans hServer')
      obtain rfl := Option.some.inj (hLast.symm.trans hLast')
      have hSame := (hDict "MIR_SERVER_ADD_WAYLAND_EXTENSIONS").symm.trans
        (hOwn "MIR_SERVER_ADD_WAYLAND_EXTENSIONS")
      exact Option.some.inj hSame
    · intro hUnshared var
      rw [hDict, BuiltServer.own, BuiltServer.own, hUnshared server hServer hGiven last hLast, hLastGiven, hGiven]
  · constructor
    · intro _ server' hServer' hNone
      obtain rfl := Option.some.inj (hServer.symm.trans hServer')
      exact absurd hNone hGiven
    · exact fun _ var => h.own server hMem hGiven var

theorem written_of_run {actions : List ServerAction} (hRun : Runs (step displayName) Any {} actions s) :
    Written displayName s :=
  hRun.invariant (Written displayName) written_start fun _ _ _ h _ hStep => h.step hStep

/-- A step adds what the server hands over that is entered, if one is. -/
theorem step_handed {action : ServerAction} (h : Written displayName s)
    (hStep : step displayName s action = some t) :
    (∀ handed ∈ t.handed, handed.Own displayName) ↔
      (∀ handed ∈ s.handed, handed.Own displayName) ∧ Unshared s action := by
  cases action with
  | construct addExtensions given =>
      cases hStep
      exact ⟨fun hAll => ⟨hAll, trivial⟩, fun hAll => hAll.1⟩
  | enter index =>
      obtain ⟨server, hServer, rfl⟩ := Option.map_eq_some_iff.mp hStep
      rw [List.forall_mem_append, List.forall_mem_singleton, h.enter hServer]

/-- Every entered server handed its own environment to the program just when each was unshared at that time. -/
theorem own_environments (displayName : String) {actions : List ServerAction}
    (hRun : Runs (step displayName) Any {} actions s) :
    (∀ handed ∈ s.handed, handed.Own displayName) ↔ Runs (step displayName) Unshared {} actions s := by
  induction hRun with
  | nil => exact ⟨fun _ => .nil _, fun _ => by simp⟩
  | snoc prior admitted last ih =>
      rw [step_handed (written_of_run prior) last, ih]
      constructor
      · rintro ⟨hPrior, hUnshared⟩
        exact .snoc hPrior hUnshared last
      · intro hRun
        obtain ⟨middle, hPrior, hUnshared, -⟩ := hRun.snoc_inv
        obtain rfl := hPrior.unique prior
        exact ⟨hPrior, hUnshared⟩

theorem own_environments_alone : ∃ s, Runs (step "wayland-00123") Any {}
    ([.construct ["zwlr_screencopy_manager_v1"] none] ++ [.enter 0]) s ∧
      ∀ handed ∈ s.handed, handed.Own "wayland-00123" := by
  let made := construct "wayland-00123" ["zwlr_screencopy_manager_v1"] none {}
  have hMade : Runs (step "wayland-00123") Unshared {} [.construct ["zwlr_screencopy_manager_v1"] none] made :=
    Runs.single trivial rfl
  have hUnshared : Unshared made (.enter 0) := by
    intro server hServer _ last hLast
    cases hServer
    cases hLast
    rfl
  have hEntered := Runs.snoc hMade hUnshared rfl
  have hRun := hEntered.mono fun _ _ _ => (trivial : Any _ _)
  exact ⟨_, hRun, (own_environments "wayland-00123" hRun).mpr hEntered⟩

/-- A server that is made before another one, both without an environment, is started with the other's
extensions. -/
theorem environment_of_later_server : ∃ s, Runs (step "wayland-00123") Any {}
    [.construct ["zwlr_screencopy_manager_v1"] none, .construct [] none, .enter 0] s ∧
      ∃ handed ∈ s.handed, handed.server.addExtensions = ["zwlr_screencopy_manager_v1"] ∧
        handed.env.get? "MIR_SERVER_ADD_WAYLAND_EXTENSIONS" = some "" := by
  exact ⟨_, runs_of_execute rfl fun _ _ _ => trivial, _, List.mem_singleton_self _, rfl, by decide⟩

end Run

end MirCi.Program.DisplayServer
