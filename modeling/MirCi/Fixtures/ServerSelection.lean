import MirCi.Fixtures.Servers
import MirCi.Python.Dict

/-! Which values of `MIR_CI_SERVER` are accepted, and which servers the tests that ask
for some capabilities run on. -/
namespace MirCi.Fixtures

open Python Semantics Effect

/-- The value is a type, a command and at least one name of a capability. -/
structure Spells (value : String) (appType : AppType) (serverCommand : String) (names : List String) :
    Prop where
  text : value = ":".intercalate (appType.name :: serverCommand :: names)
  command : ':' ∉ serverCommand.toList
  nonempty : names ≠ []
  named : ∀ name ∈ names, name ∈ ServerCap.members.map Prod.fst

/-- The single capabilities that the names stand for together. -/
def granted (names : List String) : Set (Fin 7) :=
  {i | ∃ name ∈ names, ∃ capability, (name, capability) ∈ ServerCap.members ∧ i ∈ Flag.singles capability}

/-- The application that a value of the language describes. -/
def described (appType : AppType) (serverCommand : String) : App where
  command := if appType = .pip then ["python3", "-m", serverCommand] else [serverCommand]
  appType := some appType

/-- What is found in a value: the capabilities and the builder it describes if it is of the
language, else nothing. -/
structure Parsed (value : String) (found : Option (ServerCap × Server)) : Prop where
  accepted : ∀ appType serverCommand names, Spells value appType serverCommand names →
    ∃ k v, found = some (k, v) ∧ (Flag.singles k : Set (Fin 7)) = granted names ∧
      ∀ host, (v.call host).app = described appType serverCommand
  dropped : (¬∃ appType serverCommand names, Spells value appType serverCommand names) → found = none

/-- The server is registered with all these capabilities. -/
def Offers (caps : ServerCap) (v : Server) : Prop :=
  ∃ k, (k, v) ∈ servers ∧ Flag.singles caps ⊆ Flag.singles k

/-- The described server, if it is there and has all these capabilities. -/
def wanted (found : Option (ServerCap × Server)) (caps : ServerCap) : List Server :=
  ((found.filter fun item => Flag.singles caps ⊆ Flag.singles item.1).map Prod.snd).toList

/-! ### The names of the capabilities -/

theorem ServerCap.named_eq_ok {name : String} {capability : ServerCap} :
    ServerCap.named name = .ok capability ↔ (name, capability) ∈ ServerCap.members := by
  have hNodup : (ServerCap.members.map Prod.fst).Nodup := by decide +kernel
  rw [ServerCap.named, ← Dict.lookup_eq_some hNodup]
  cases ServerCap.members.lookup name <;> simp

theorem ServerCap.named_of_notMem {name : String} (h : name ∉ ServerCap.members.map Prod.fst) :
    ServerCap.named name = .error { cls := .keyError, text := name } := by
  cases hNamed : ServerCap.named name with
  | ok capability => exact absurd (List.mem_map_of_mem (named_eq_ok.mp hNamed)) h
  | error e =>
      unfold ServerCap.named at hNamed
      split at hNamed
      · cases hNamed
      · exact hNamed.symm

theorem granted_cons {name : String} {capability : ServerCap} {rest : List String}
    (h : (name, capability) ∈ ServerCap.members) :
    granted (name :: rest) = ↑(Flag.singles capability) ∪ granted rest := by
  have hUnique : ∀ other, (name, other) ∈ ServerCap.members ↔ other = capability := by
    intro other
    rw [← ServerCap.named_eq_ok, ServerCap.named_eq_ok.mpr h, Except.ok.injEq]
    exact eq_comm
  ext i
  simp [granted, hUnique]

section Parsing

variable {appType : AppType} {capability : ServerCap} {names warnings : List String}

variable (appType capability warnings) in
/-- When every name is one of a capability, the loop adds what they stand for. -/
theorem capabilityOf_run (h : ∀ name ∈ names, name ∈ ServerCap.members.map Prod.fst) :
    ∃ k, (capabilityOf appType capability names).run warnings = .ok (some k) warnings ∧
      (Flag.singles k : Set (Fin 7)) = ↑(Flag.singles capability) ∪ granted names := by
  induction names generalizing capability with
  | nil => exact ⟨capability, rfl, by simp [granted]⟩
  | cons name rest ih =>
      obtain ⟨⟨_, named⟩, hMember, rfl⟩ := List.mem_map.mp (h name (by simp))
      obtain ⟨k, hRun, hSingles⟩ :=
        ih (capability ||| named) fun other hOther => h other (by simp [hOther])
      refine ⟨k, ?_, ?_⟩
      · rw [capabilityOf, ServerCap.named_eq_ok.mpr hMember]
        exact hRun
      · rw [hSingles, Flag.singles_or, Finset.coe_union, Set.union_assoc, granted_cons hMember]

/-- A name that is none of a capability ends the loop with a warning. -/
theorem capabilityOf_run_none (h : ∃ name ∈ names, name ∉ ServerCap.members.map Prod.fst) :
    (capabilityOf appType capability names).run warnings =
      .ok none (warnings ++ [s!"Capability is invalid in MIR_CI_SERVER: AppType.{appType.name}"]) := by
  induction names generalizing capability with
  | nil =>
      obtain ⟨name, hName, -⟩ := h
      cases hName
  | cons name rest ih =>
      by_cases hName : name ∈ ServerCap.members.map Prod.fst
      · obtain ⟨⟨_, named⟩, hMember, rfl⟩ := List.mem_map.mp hName
        obtain ⟨other, hOther, hNot⟩ := h
        have hRest : other ∈ rest := by
          rcases List.mem_cons.mp hOther with rfl | hRest
          · exact absurd hName hNot
          · exact hRest
        rw [capabilityOf, ServerCap.named_eq_ok.mpr hMember]
        exact ih ⟨other, hRest, hNot⟩
      · rw [capabilityOf, ServerCap.named_of_notMem hName]
        rfl

end Parsing

/-! ### The language -/

theorem AppType.colon_notMem_name (appType : AppType) : ':' ∉ appType.name.toList := by
  cases appType <;> simp [AppType.name]

theorem ServerCap.colon_notMem {name : String} (h : name ∈ ServerCap.members.map Prod.fst) :
    ':' ∉ name.toList := by
  have hAll : ∀ name ∈ ServerCap.members.map Prod.fst, ':' ∉ name.toList := by decide +kernel
  exact hAll name h

variable {value serverCommand : String} {appType : AppType} {names : List String}

/-- A value is of the language just when its parts are. -/
theorem spells_iff : Spells value appType serverCommand names ↔
    split ':' value = appType.name :: serverCommand :: names ∧ names ≠ [] ∧
      ∀ name ∈ names, name ∈ ServerCap.members.map Prod.fst := by
  rw [split_eq_iff]
  constructor
  · intro h
    refine ⟨⟨by simp, ?_, h.text⟩, h.nonempty, h.named⟩
    intro part hPart
    rcases List.mem_cons.mp hPart with rfl | hPart
    · exact AppType.colon_notMem_name appType
    · rcases List.mem_cons.mp hPart with rfl | hPart
      · exact h.command
      · exact ServerCap.colon_notMem (h.named part hPart)
  · rintro ⟨⟨-, hFree, hText⟩, hNonempty, hNamed⟩
    exact ⟨hText, hFree serverCommand (by simp), hNonempty, hNamed⟩

theorem call_mirCiServer (host : Host) :
    ((Server.mirCiServer appType serverCommand).call host).app = described appType serverCommand := by
  cases appType <;> rfl

/-- A value of the language is accepted without a warning. -/
theorem mirCiServer_of_spells (h : Spells value appType serverCommand names) (warnings : List String) :
    ∃ k, (mirCiServer (some value)).run warnings =
        .ok (some (k, .mirCiServer appType serverCommand)) warnings ∧
      (Flag.singles k : Set (Fin 7)) = granted names := by
  obtain ⟨hSplit, hNonempty, hNamed⟩ := spells_iff.mp h
  obtain ⟨first, rest, rfl⟩ := List.exists_cons_of_ne_nil hNonempty
  obtain ⟨k, hRun, hSingles⟩ := capabilityOf_run appType .none warnings hNamed
  refine ⟨k, ?_, ?_⟩
  · simp only [mirCiServer, hSplit, AppType.named_name]
    exact run_bind_ok.mpr ⟨some k, warnings, hRun, rfl⟩
  · rw [hSingles, ServerCap.none, Flag.singles_zero, Finset.coe_empty, Set.empty_union]

/-- Every other value is dropped with a warning. -/
theorem mirCiServer_of_not_spells (h : ¬∃ appType serverCommand names,
    Spells value appType serverCommand names) (warnings : List String) :
    ∃ warning, (mirCiServer (some value)).run warnings = .ok none (warnings ++ [warning]) := by
  match hSplit : split ':' value with
  | [] | [_] | [_, _] =>
      refine ⟨s!"Too few parts for MIR_CI_SERVER specification: {value}", ?_⟩
      simp only [mirCiServer, hSplit]
      rfl
  | typeStr :: serverCommand :: first :: rest =>
      cases hType : AppType.named typeStr with
      | error e =>
          have hClass : e.isa .keyError = true := by
            unfold AppType.named at hType
            split at hType
            · cases hType
            · cases hType
              rfl
          refine ⟨s!"Invalid app type in MIR_CI_SERVER specification: {value}." ++
            s!"Expected 'snap', 'deb' or 'pip' but got {typeStr}", ?_⟩
          simp only [mirCiServer, hSplit, hType, hClass, if_true]
          rfl
      | ok appType =>
          have hName := AppType.named_eq_ok.mp hType
          have hBad : ∃ name ∈ first :: rest, name ∉ ServerCap.members.map Prod.fst := by
            by_contra hNone
            refine h ⟨appType, serverCommand, first :: rest, spells_iff.mpr ⟨?_, by simp, ?_⟩⟩
            · rw [hSplit, hName]
            · intro name hMem
              by_contra hNot
              exact hNone ⟨name, hMem, hNot⟩
          refine ⟨s!"Capability is invalid in MIR_CI_SERVER: AppType.{appType.name}", ?_⟩
          simp only [mirCiServer, hSplit, hType]
          exact run_bind_ok.mpr ⟨none, _, capabilityOf_run_none hBad, rfl⟩

theorem Spells.unique {appType' : AppType} {serverCommand' : String} {names' : List String}
    (h : Spells value appType serverCommand names) (h' : Spells value appType' serverCommand' names') :
    appType = appType' ∧ serverCommand = serverCommand' ∧ names = names' := by
  have hSplit := (spells_iff.mp h).1.symm.trans (spells_iff.mp h').1
  simp only [List.cons.injEq] at hSplit
  refine ⟨?_, hSplit.2⟩
  have hNamed := AppType.named_name appType
  rw [hSplit.1, AppType.named_name] at hNamed
  exact (Except.ok.inj hNamed).symm

/-- Whatever the value is, `_mir_ci_server` returns. -/
theorem mirCiServer_parsed (value : String) : ∃ found warnings,
    (mirCiServer (some value)).run [] = .ok found warnings ∧ Parsed value found ∧
      ∀ item ∈ found, ∃ appType serverCommand, item.2 = .mirCiServer appType serverCommand := by
  by_cases h : ∃ appType serverCommand names, Spells value appType serverCommand names
  · obtain ⟨appType, serverCommand, names, hSpells⟩ := h
    obtain ⟨k, hRun, hSingles⟩ := mirCiServer_of_spells hSpells []
    refine ⟨_, _, hRun, ⟨?_, ?_⟩, ?_⟩
    · intro appType' serverCommand' names' hSpells'
      obtain ⟨rfl, rfl, rfl⟩ := hSpells.unique hSpells'
      exact ⟨k, _, rfl, hSingles, call_mirCiServer⟩
    · intro hNone
      exact absurd ⟨appType, serverCommand, names, hSpells⟩ hNone
    · rintro item ⟨⟩
      exact ⟨appType, serverCommand, rfl⟩
  · obtain ⟨warning, hRun⟩ := mirCiServer_of_not_spells h []
    refine ⟨none, _, hRun, ⟨?_, fun _ => rfl⟩, by simp⟩
    intro appType serverCommand names hSpells
    exact absurd ⟨appType, serverCommand, names, hSpells⟩ h

/-! ### The selection -/

/-- The registered servers that `server_params` yields. -/
def registered (order : Iteration) (caps : ServerCap) : List Server :=
  (order.items.filter fun item => Flag.mem caps item.1).map Prod.snd

theorem registered_nodup (order : Iteration) (caps : ServerCap) : (registered order caps).Nodup := by
  have hServers : (servers.map Prod.snd).Nodup := by decide
  have hItems : (order.items.map Prod.snd).Nodup := (order.perm.map Prod.snd).nodup_iff.mpr hServers
  exact hItems.sublist (List.filter_sublist.map Prod.snd)

theorem mem_registered {order : Iteration} {caps : ServerCap} {v : Server} :
    v ∈ registered order caps ↔ Offers caps v := by
  simp [registered, Offers, order.perm.mem_iff, Flag.mem_iff]

/-- The builder that `_mir_ci_server` makes is none of the registered functions. -/
theorem not_offers_mirCiServer (caps : ServerCap) (appType : AppType) (serverCommand : String) :
    ¬Offers caps (.mirCiServer appType serverCommand) := by
  rintro ⟨k, hMember, -⟩
  simp [servers] at hMember

theorem serverParams_run {value : Option String} {order : Iteration} {caps : ServerCap}
    {found : Option (ServerCap × Server)} {warnings later : List String}
    (h : (mirCiServer value).run warnings = .ok found later) :
    (serverParams value order caps).run warnings =
      .ok (wanted found caps ++ registered order caps) later := by
  refine run_bind_ok.mpr ⟨found, later, h, ?_⟩
  cases found with
  | none => rfl
  | some item =>
      obtain ⟨k, v⟩ := item
      by_cases hCaps : Flag.singles caps ⊆ Flag.singles k
      · simp [wanted, registered, Flag.mem_iff.mpr hCaps, Option.filter, hCaps]
      · have hMem : Flag.mem caps k = false := by
          rw [Bool.eq_false_iff]
          exact fun hMem => hCaps (Flag.mem_iff.mp hMem)
        simp [wanted, registered, hMem, Option.filter, hCaps]

theorem mem_wanted {found : Option (ServerCap × Server)} {caps : ServerCap} {v : Server} :
    v ∈ wanted found caps ↔ ∃ k, found = some (k, v) ∧ Flag.singles caps ⊆ Flag.singles k := by
  cases found with
  | none => simp [wanted]
  | some item =>
      obtain ⟨k, w⟩ := item
      simp [wanted, Option.filter, and_comm]

section Selection

variable {found : Option (ServerCap × Server)} {order : Iteration} {caps : ServerCap} {v : Server}

/-- The server is the described one or a registered one, with these capabilities. -/
def Known (found : Option (ServerCap × Server)) (k : ServerCap) (v : Server) : Prop :=
  found = some (k, v) ∨ (k, v) ∈ servers

theorem mem_selection : v ∈ wanted found caps ++ registered order caps ↔
    ∃ k, Known found k v ∧ Flag.singles caps ⊆ Flag.singles k := by
  rw [List.mem_append, mem_wanted, mem_registered, Offers, ← exists_or]
  exact exists_congr fun k => or_and_right.symm

/-- Nothing is known of a server twice. -/
theorem Known.unique {k k' : ServerCap} (hFound : ∀ item ∈ found, ∃ appType serverCommand,
    item.2 = .mirCiServer appType serverCommand) (h : Known found k v) (h' : Known found k' v) :
    k = k' := by
  have hApart : ∀ k k', found = some (k, v) → (k', v) ∉ servers := by
    rintro k k' rfl hMember
    obtain ⟨appType, serverCommand, rfl⟩ := hFound (k, v) rfl
    exact not_offers_mirCiServer k' appType serverCommand ⟨k', hMember, subset_rfl⟩
  rcases h with h | h <;> rcases h' with h' | h'
  · rw [h] at h'
    cases h'
    rfl
  · exact absurd h' (hApart k k' h)
  · exact absurd h (hApart k' k h')
  · have hServers : (servers.map Prod.snd).Nodup := by decide
    exact congrArg Prod.fst (List.inj_on_of_nodup_map hServers h h' rfl)

/-- A request selects what both halves of it select. -/
theorem mem_selection_or {a b : ServerCap} (hFound : ∀ item ∈ found, ∃ appType serverCommand,
    item.2 = .mirCiServer appType serverCommand) :
    v ∈ wanted found (a ||| b) ++ registered order (a ||| b) ↔
      v ∈ wanted found a ++ registered order a ∧ v ∈ wanted found b ++ registered order b := by
  simp only [mem_selection, Flag.singles_or, Finset.union_subset_iff]
  constructor
  · rintro ⟨k, hKnown, ha, hb⟩
    exact ⟨⟨k, hKnown, ha⟩, ⟨k, hKnown, hb⟩⟩
  · rintro ⟨⟨k, hKnown, ha⟩, ⟨k', hKnown', hb⟩⟩
    obtain rfl := hKnown.unique hFound hKnown'
    exact ⟨k, hKnown, ha, hb⟩

theorem selection_nodup (hFound : ∀ item ∈ found, ∃ appType serverCommand,
    item.2 = .mirCiServer appType serverCommand) :
    (wanted found caps ++ registered order caps).Nodup := by
  rw [List.nodup_append']
  refine ⟨Option.toList_nodup _, registered_nodup order caps, ?_⟩
  intro v hWanted hRegistered
  obtain ⟨k, hKnown, -⟩ := mem_wanted.mp hWanted
  obtain ⟨appType, serverCommand, rfl⟩ := hFound (k, v) hKnown
  exact not_offers_mirCiServer caps appType serverCommand (mem_registered.mp hRegistered)

end Selection

/-- What is accepted and what it stands for, and whom a request for capabilities selects. -/
theorem server_selection (value : String) (order : Iteration) :
    ∃ found warnings, (mirCiServer (some value)).run [] = .ok found warnings ∧ Parsed value found ∧
      ∃ select : ServerCap → List Server,
        (∀ caps, (serverParams (some value) order caps).run [] = .ok (select caps) warnings) ∧
        (∀ caps, (select caps).Nodup ∧ ∃ offered, select caps = wanted found caps ++ offered ∧
          ∀ v, v ∈ offered ↔ Offers caps v) ∧
        ∀ a b v, v ∈ select (a ||| b) ↔ v ∈ select a ∧ v ∈ select b := by
  obtain ⟨found, warnings, hRun, hParsed, hFound⟩ := mirCiServer_parsed value
  refine ⟨found, warnings, hRun, hParsed, fun caps => wanted found caps ++ registered order caps,
    fun caps => serverParams_run hRun, ?_, fun a b v => mem_selection_or hFound⟩
  intro caps
  exact ⟨selection_nodup hFound, registered order caps, rfl, fun v => mem_registered⟩

end MirCi.Fixtures
