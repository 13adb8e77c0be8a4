import MirCi.ProcessSnaps.MainLoop

/-! When the loop requests builds for an entry. Every gate is read as the condition
on the answers under which it lets the entry through. -/
namespace MirCi.ProcessSnaps

open Python Semantics

/-- The processors' lookups answered with objects, the snaps among them can be read,
and comparing the paths raises nothing. -/
structure StoreReady (env : Environment) (entry : Entry) (answers : Answers)
    (processors : List String) : Prop where
  answered : ∀ processor ∈ processors, StoreAnswered env entry answers processor
  readable : ∀ snap ∈ offers env entry answers processors, Readable snap
  paths : entry.checkPaths ≠ [] →
    PathsTolerated answers (offers env entry answers processors) entry.checkPaths

/-- The snaps all name the Mir version of the source, if there is one. -/
def AllCarry (mirVersion : Option String) (snaps : List Json) : Prop :=
  ∀ version, mirVersion = some version → ∀ snap ∈ snaps, Carries version snap

/-- The snaps need a build. -/
def Due (env : Environment) (entry : Entry) (answers : Answers) (mirVersion : Option String)
    (snaps : List Json) : Prop :=
  (∃ version, mirVersion = some version ∧ FirstDiffers version snaps) ∨
    AllCarry mirVersion snaps ∧ UsnDue env entry answers snaps

/-- The gates on the sources let the entry through with this Mir version. -/
def SourcePassed (env : Environment) (entry : Entry) (answers : Answers) (recipe : Recipe) :
    Option String → Prop
  | none => entry.ppa = none
  | some version => ∃ ppa archive series sources source, entry.ppa = some ppa ∧
      answers.getPPAByName ppa = .ok archive ∧
      env.series (entry.release.getD defaultRelease) = .ok series ∧
      archive.getPublishedSources sourceName series = .ok sources ∧
      FirstValid sources source ∧ SourceReady recipe source version

theorem latestSource_eq {sources : List Source} {source : Source} :
    latestSource sources = some source ↔ FirstValid sources source := by
  rw [latestSource, List.find?_eq_some_iff_append, FirstValid]
  constructor
  · rintro ⟨hValid, before, after, hSources, hBefore⟩
    exact ⟨before, after, hSources, by simpa using hBefore, by simpa using hValid⟩
  · rintro ⟨before, after, hSources, hBefore, hValid⟩
    exact ⟨by simpa using hValid, before, after, hSources, by simpa using hBefore⟩

theorem built_iff {builds : List Build} {processors : List String} :
    Built builds processors ↔ (!(failedBuilds builds).isEmpty) = false ∧
      (builds.any fun b => b.archTag ∈ processors && b.buildstate ∈ pendingBuild) = false := by
  rw [Bool.not_eq_false', List.isEmpty_iff, failedBuilds, List.filter_eq_nil_iff,
    List.any_eq_false]
  simp only [decide_eq_true_eq, Bool.and_eq_true, not_and]
  constructor
  · rintro ⟨hFailed, hPending⟩
    exact ⟨hFailed, hPending⟩
  · rintro ⟨hFailed, hPending⟩
    exact ⟨hFailed, hPending⟩

theorem sourceGate_ok {recipe : Recipe} {ppa : String} {sources : List Source}
    {version : String} :
    (sourceGate recipe ppa sources).result = .ok version ↔
      ∃ source, FirstValid sources source ∧ SourceReady recipe source version := by
  simp only [sourceGate, Script.bind_ok, skipIf_ok, orSkip_ok, ask_ok, Script.result_pure,
    latestSource_eq]
  constructor
  · rintro ⟨_, -, source, hSource, _, hVersion, _, hStatus, builds, hBuilds, processors,
      hProcessors, _, hFailed, _, hPending, binaries, hBinaries, _, hPublished, ⟨⟩⟩
    refine ⟨source, hSource, hVersion, by simpa using hStatus, builds, processors, binaries, hBuilds,
      hProcessors, hBinaries, built_iff.mpr ⟨hFailed, hPending⟩, ?_⟩
    simpa using hPublished
  · rintro ⟨source, hSource, hVersion, hStatus, builds, processors, binaries, hBuilds, hProcessors,
      hBinaries, hBuilt, hPublished⟩
    obtain ⟨hFailed, hPending⟩ := built_iff.mp hBuilt
    obtain ⟨before, after, hSources, -⟩ := id hSource
    exact ⟨(), by simp [hSources], source, hSource, version, hVersion, (), by simp [hStatus], builds,
      hBuilds, processors, hProcessors, (), hFailed, (), hPending, binaries, hBinaries, (),
      by simpa using hPublished, rfl⟩

theorem checkUniform_ok {entry : Entry} {recipe : Recipe} {snaps : List Json} {u : Unit} :
    (checkUniform entry recipe snaps).result = .ok u ↔ ∀ snap ∈ snaps, Readable snap := by
  rw [← versions_readable .empty]
  simp only [checkUniform, Script.bind_ok, Script.result_lift]
  constructor
  · rintro ⟨found, hFound, table, hTable, -⟩
    exact ⟨⟨found, hFound⟩, table, hTable⟩
  · rintro ⟨⟨found, hFound⟩, table, hTable⟩
    refine ⟨found, hFound, table, hTable, ?_⟩
    split <;> rfl

theorem comparePaths_ok {entry : Entry} {answers : Answers} {snaps : List Json} {u : Unit} :
    (comparePaths entry answers snaps).result = .ok u ↔
      (entry.checkPaths ≠ [] → PathsTolerated answers snaps entry.checkPaths) := by
  rw [comparePaths]
  split
  · rename_i hNone
    simp [hNone]
  · rename_i hPaths
    simp only [Script.bind_ok, Script.result_report, ← checkPaths_returns, Script.Returns]
    simp [hPaths]

theorem compareVersion_ok {version : String} {snap : Json} {same : Bool} :
    compareVersion version snap = .ok same ↔
      ∃ text, snap.getItem "version" = .ok (.str text) ∧ sameMirVersion version text = some same := by
  simp only [compareVersion, bind_ok]
  constructor
  · rintro ⟨found, hFound, h⟩
    split at h
    · rename_i text
      split at h
      · rename_i other hSame
        cases h
        exact ⟨text, hFound, hSame⟩
      · cases h
    · cases h
  · rintro ⟨text, hFound, hSame⟩
    exact ⟨_, hFound, by simp [hSame]⟩

theorem carries_not_differs {version : String} {snap : Json} (hCarries : Carries version snap) :
    ¬Differs version snap := by
  rintro ⟨text, hText, hOther⟩
  obtain ⟨text', hText', hSame⟩ := hCarries
  rw [hText] at hText'
  cases hText'
  rw [hOther] at hSame
  cases hSame

section Current

variable {mirVersion : Option String} {snap : Json} {rest : List Json}

/-- The comparison of one snap and of the rest. -/
theorem allCurrent_cons {current : Bool} (hSnap : snap ≠ .null) :
    allCurrent mirVersion (snap :: rest) = .ok current ↔
      (∀ version, mirVersion = some version → Carries version snap) ∧
          allCurrent mirVersion rest = .ok current ∨
        current = false ∧ ∃ version, mirVersion = some version ∧ Differs version snap := by
  rw [allCurrent.eq_def]
  simp only [hSnap, if_false]
  cases mirVersion with
  | none => simp
  | some version =>
      simp only [bind_ok, compareVersion_ok, Option.some.injEq, forall_eq', exists_eq_left']
      constructor
      · rintro ⟨same, hSame, h⟩
        cases same with
        | true => exact .inl ⟨hSame, h⟩
        | false =>
            cases h
            exact .inr ⟨rfl, hSame⟩
      · rintro (⟨hCarries, h⟩ | ⟨rfl, hDiffers⟩)
        · exact ⟨true, hCarries, h⟩
        · exact ⟨false, hDiffers, rfl⟩

theorem firstDiffers_cons {version : String} :
    FirstDiffers version (snap :: rest) ↔
      Differs version snap ∨ Carries version snap ∧ FirstDiffers version rest := by
  constructor
  · rintro ⟨before, found, after, hSnaps, hBefore, hDiffers⟩
    cases before with
    | nil =>
        cases hSnaps
        exact .inl hDiffers
    | cons first before =>
        cases hSnaps
        rw [List.forall_mem_cons] at hBefore
        exact .inr ⟨hBefore.1, before, found, after, rfl, hBefore.2, hDiffers⟩
  · rintro (hDiffers | ⟨hCarries, before, found, after, rfl, hBefore, hDiffers⟩)
    · exact ⟨[], snap, rest, rfl, by simp, hDiffers⟩
    · exact ⟨snap :: before, found, after, rfl, List.forall_mem_cons.mpr ⟨hCarries, hBefore⟩,
        hDiffers⟩

/-- What `all(...)` comes to, if no snap is `None`. -/
theorem allCurrent_ok {snaps : List Json} {current : Bool} (hSnaps : ∀ snap ∈ snaps, snap ≠ .null) :
    allCurrent mirVersion snaps = .ok current ↔
      current = true ∧ AllCarry mirVersion snaps ∨
        current = false ∧ ∃ version, mirVersion = some version ∧ FirstDiffers version snaps := by
  induction snaps with
  | nil => simp [allCurrent, AllCarry, FirstDiffers, eq_comm]
  | cons snap rest ih =>
      rw [List.forall_mem_cons] at hSnaps
      rw [allCurrent_cons hSnaps.1, ih hSnaps.2]
      cases mirVersion with
      | none => simp [AllCarry]
      | some version =>
          simp only [AllCarry, Option.some.injEq, forall_eq', exists_eq_left', firstDiffers_cons,
            List.forall_mem_cons]
          constructor
          · rintro (⟨hCarries, ⟨hTrue, hRest⟩ | ⟨hFalse, hLater⟩⟩ | ⟨hFalse, hDiffers⟩)
            · exact .inl ⟨hTrue, hCarries, hRest⟩
            · exact .inr ⟨hFalse, .inr ⟨hCarries, hLater⟩⟩
            · exact .inr ⟨hFalse, .inl hDiffers⟩
          · rintro (⟨hTrue, hCarries, hRest⟩ | ⟨hFalse, hDiffers | ⟨hCarries, hLater⟩⟩)
            · exact .inl ⟨hCarries, .inl ⟨hTrue, hRest⟩⟩
            · exact .inr ⟨hFalse, hDiffers⟩
            · exact .inl ⟨hCarries, .inr ⟨hFalse, hLater⟩⟩

end Current

theorem uniform_iff {values : List Json} :
    uniform values = true ↔ values.Pairwise fun a b => a.eq b = true := by
  cases values with
  | nil => simp [uniform]
  | cons first rest =>
      rw [← Json.pairwise_eq, uniform, List.all_eq_true]

theorem checkSnapNotices_getItem {env : Environment} {entry : Entry} {answers : Answers}
    {snaps values : List Json} :
    (∃ notices snapNotices, (checkSnapNotices env answers snaps).result = .ok notices ∧
        notices.getItem entry.snap = .ok snapNotices ∧ snapNotices.values = .ok values) ↔
      Notices env entry answers snaps values := by
  simp only [checkSnapNotices, Script.bind_ok, Script.result_lift, fetchSnaps_ok]
  constructor
  · rintro ⟨notices, snapNotices, ⟨_, ⟨hFetchable, rfl⟩, h⟩, hItem, hValues⟩
    rw [List.map_map] at h
    cases hOutput : answers.notices (snaps.map destOf) with
    | ok output =>
        simp only [Function.comp_def, hOutput, Script.bind_ok, Script.result_lift] at h
        obtain ⟨text, hText, hLoads⟩ := h
        exact ⟨hFetchable, output, text, notices, snapNotices, hOutput, hText, hLoads, hItem, hValues⟩
    | error e =>
        simp only [Function.comp_def, hOutput] at h
        split at h
        · cases h
          cases hItem
        · cases h
  · rintro ⟨hFetchable, output, text, notices, snapNotices, hOutput, hText, hLoads, hItem, hValues⟩
    refine ⟨notices, snapNotices, ⟨_, ⟨hFetchable, rfl⟩, ?_⟩, hItem, hValues⟩
    simp [Function.comp_def, hOutput, Script.bind_ok, hText, hLoads]

theorem usnGate_ok {env : Environment} {entry : Entry} {answers : Answers} {recipe : Recipe}
    {snaps : List Json} {u : Unit} :
    (usnGate env entry answers recipe snaps).result = .ok u ↔ UsnDue env entry answers snaps := by
  rw [usnGate]
  split
  · rename_i hOn
    rw [Bool.and_eq_true] at hOn
    simp only [Script.bind_ok, call_ok, ask_ok, skipIf_ok, Script.result_report, UsnDue, hOn,
      true_and, ← checkSnapNotices_getItem, ← uniform_iff, Bool.not_eq_false', List.any_eq_true]
    constructor
    · rintro ⟨notices, hNotices, snapNotices, hItem, values, hValues, _, hAny, _, hUniform⟩
      exact ⟨values, ⟨notices, snapNotices, hNotices, hItem, hValues⟩, hAny, hUniform⟩
    · rintro ⟨values, ⟨notices, snapNotices, hNotices, hItem, hValues⟩, hAny, hUniform⟩
      exact ⟨notices, hNotices, snapNotices, hItem, values, hValues, (), hAny, (), hUniform⟩
  · rename_i hOff
    simp only [skipIf_ok, UsnDue]
    rw [Bool.and_eq_true] at hOff
    simp only [Bool.true_eq_false, false_iff]
    rintro ⟨hChecked, hAvailable, -⟩
    exact hOff ⟨hChecked, hAvailable⟩

theorem currencyGate_ok {env : Environment} {entry : Entry} {answers : Answers} {recipe : Recipe}
    {mirVersion : Option String} {snaps : List Json} {u : Unit}
    (hSnaps : ∀ snap ∈ snaps, snap ≠ .null) :
    (currencyGate env entry answers recipe mirVersion snaps).result = .ok u ↔
      Due env entry answers mirVersion snaps := by
  simp only [currencyGate, Script.bind_ok, ask_ok, allCurrent_ok hSnaps, Due]
  constructor
  · rintro ⟨current, ⟨rfl, hCarry⟩ | ⟨rfl, hDiffers⟩, h⟩
    · exact .inr ⟨hCarry, usnGate_ok.mp h⟩
    · exact .inl hDiffers
  · rintro (hDiffers | ⟨hCarry, hUsn⟩)
    · exact ⟨false, .inr ⟨rfl, hDiffers⟩, rfl⟩
    · exact ⟨true, .inl ⟨rfl, hCarry⟩, usnGate_ok.mpr hUsn⟩

theorem offers_ne_null {env : Environment} {entry : Entry} {answers : Answers}
    {processors : List String} : ∀ snap ∈ offers env entry answers processors, snap ≠ .null := by
  rintro _ hOffer rfl
  rw [offers, List.mem_filter] at hOffer
  cases hOffer.2

theorem buildGate_ok {env : Environment} {entry : Entry} {answers : Answers} {recipe : Recipe}
    {mirVersion : Option String} {u : Unit} :
    (buildGate env entry answers recipe mirVersion).result = .ok u ↔
      recipe.pendingBuilds = .ok 0 ∧ ∃ processors, recipe.processors = .ok processors ∧
        StoreReady env entry answers processors ∧
        Due env entry answers mirVersion (offers env entry answers processors) := by
  simp only [buildGate, Script.bind_ok, ask_ok, skipIf_ok, call_ok, storeSnaps_ok,
    checkUniform_ok, comparePaths_ok]
  constructor
  · rintro ⟨pending, hPending, _, hZero, processors, hProcessors, _, ⟨hAnswered, rfl⟩, _, hReadable,
      _, hPaths, hDue⟩
    have hNone : pending = 0 := by
      simpa using hZero
    rw [currencyGate_ok offers_ne_null] at hDue
    exact ⟨hNone ▸ hPending, processors, hProcessors, ⟨hAnswered, hReadable, hPaths⟩, hDue⟩
  · rintro ⟨hPending, processors, hProcessors, ⟨hAnswered, hReadable, hPaths⟩, hDue⟩
    exact ⟨0, hPending, (), by simp, processors, hProcessors, _, ⟨hAnswered, rfl⟩, (), hReadable,
      (), hPaths, (currencyGate_ok offers_ne_null).mpr hDue⟩

theorem requests_trigger {entry : Entry} {recipe : Recipe} {archive : Archive} :
    requests (trigger entry recipe archive) = 1 :=
  requests_bind_left fun _ => requests_noted _

/-- The end of the body: builds are requested exactly when the gate lets through. -/
theorem requests_body {gate : Gate Unit} {entry : Entry} {recipe : Recipe} {archive : Archive} :
    0 < requests (noted gate >>= fun _ => trigger entry recipe archive) ↔
      gate.result = .ok () := by
  rw [requests_bind_pos (requests_noted gate)]
  constructor
  · rintro ⟨_, hGate, -⟩
    exact hGate
  · intro hGate
    exact ⟨(), hGate, by rw [requests_trigger]; exact Nat.one_pos⟩

theorem requests_body_le {gate : Gate Unit} {entry : Entry} {recipe : Recipe}
    {archive : Archive} : requests (noted gate >>= fun _ => trigger entry recipe archive) ≤ 1 :=
  requests_bind_le (requests_noted gate) fun _ => requests_trigger.le

theorem requests_endBody {body : Body Unit} {env : Environment} (serie : Serie env) :
    requests (endBody body >>= fun _ => pure serie) = requests body :=
  requests_bind_left fun _ => requests_pure serie

theorem findRecipe_ok {entry : Entry} {answers : Answers} {recipe : Recipe} :
    (findRecipe entry answers).result = .ok (some recipe) ↔
      answers.getByName entry.recipe = .ok recipe := by
  rw [findRecipe]
  cases answers.getByName entry.recipe with
  | ok found => simp
  | error e => cases hFound : e.isa .notFound <;> simp [hFound, Script.bind_ok]

/-- What is known of the series does not change the answer. -/
theorem getSeries_fst {env : Environment} (serie : Serie env) (name : String) :
    (getSeries serie name).map Prod.fst = env.series name := by
  rw [getSeries]
  split
  · rename_i known hKnown
    exact (serie.agrees name known hKnown).symm
  · split
    · rename_i found hFound
      exact hFound.symm
    · rename_i e hError
      exact hError.symm

theorem getSeries_ok {env : Environment} (serie : Serie env) {name : String} {series : Series} :
    (∃ later, getSeries serie name = .ok (series, later)) ↔ env.series name = .ok series := by
  rw [← getSeries_fst serie name]
  cases getSeries serie name with
  | error e => simp [Except.map]
  | ok found => simp [Except.map, Prod.ext_iff]

section Requests

variable {env : Environment} {serie : Serie env} {entry : Entry} {answers : Answers}

variable {recipe : Recipe} {mainArchive : Archive}

theorem processFound_requests :
    0 < requests (processFound serie entry answers recipe mainArchive) ↔
      ∃ mirVersion, SourcePassed env entry answers recipe mirVersion ∧
        (buildGate env entry answers recipe mirVersion).result = .ok () := by
  cases hPpa : entry.ppa with
  | none =>
      rw [processFound, hPpa, requests_endBody, requests_body]
      constructor
      · intro hGate
        exact ⟨none, hPpa, hGate⟩
      · rintro ⟨mirVersion, hSource, hGate⟩
        cases mirVersion with
        | none => exact hGate
        | some version =>
            obtain ⟨ppa, -, -, -, -, hSome, -⟩ := hSource
            rw [hPpa] at hSome
            cases hSome
  | some ppa =>
      rw [processFound, hPpa]
      simp only [↓requests_body, requests_bind_pos (requests_lift _), Script.result_lift,
        requests_endBody, requests_bind_pos (requests_noted _), noted_ok, sourceGate_ok]
      constructor
      · rintro ⟨archive, hArchive, ⟨series, later⟩, hSeries, sources, hSources, version,
          ⟨source, hSource⟩, hGate⟩
        exact ⟨some version, ⟨ppa, archive, series, sources, source, hPpa, hArchive,
          (getSeries_ok serie).mp ⟨later, hSeries⟩, hSources, hSource⟩, hGate⟩
      · rintro ⟨mirVersion, hPassed, hGate⟩
        cases mirVersion with
        | none =>
            rw [SourcePassed, hPpa] at hPassed
            cases hPassed
        | some version =>
            obtain ⟨other, archive, series, sources, source, hOther, hArchive, hSeries, hSources,
              hSource⟩ := hPassed
            obtain rfl : ppa = other := Option.some.inj (hPpa.symm.trans hOther)
            obtain ⟨later, hLater⟩ := (getSeries_ok serie).mpr hSeries
            exact ⟨archive, hArchive, (series, later), hLater, sources, hSources, version,
              ⟨source, hSource⟩, hGate⟩

/-- Builds are requested exactly when the recipe is found, its sources are ready, and
the gates from the pending builds on let the entry through. -/
theorem processEntry_requests :
    0 < requests (processEntry serie entry answers) ↔
      (∃ archive, answers.mainArchive = .ok archive) ∧ ∃ recipe mirVersion,
        answers.getByName entry.recipe = .ok recipe ∧
        SourcePassed env entry answers recipe mirVersion ∧
        (buildGate env entry answers recipe mirVersion).result = .ok () := by
  rw [processEntry, requests_bind_pos (requests_noted _)]
  simp only [requests_bind_pos (requests_lift _), requests_bind_pos (requests_noted _), noted_ok,
    Script.result_lift]
  constructor
  · rintro ⟨_, -, archive, hArchive, found, hFound, h⟩
    cases found with
    | none => exact absurd h (by simp)
    | some recipe =>
        obtain ⟨mirVersion, hPassed, hGate⟩ := processFound_requests.mp h
        exact ⟨⟨archive, hArchive⟩, recipe, mirVersion, findRecipe_ok.mp hFound, hPassed, hGate⟩
  · rintro ⟨⟨archive, hArchive⟩, recipe, mirVersion, hRecipe, hPassed, hGate⟩
    exact ⟨(), rfl, archive, hArchive, some recipe, findRecipe_ok.mpr hRecipe,
      processFound_requests.mpr ⟨mirVersion, hPassed, hGate⟩⟩

theorem processFound_requests_le :
    requests (processFound serie entry answers recipe mainArchive) ≤ 1 := by
  rw [processFound]
  split
  · rw [requests_endBody]
    exact requests_body_le
  · apply requests_bind_le (requests_lift _)
    intro archive
    apply requests_bind_le (requests_lift _)
    intro answer
    apply requests_bind_le (requests_lift _)
    intro sources
    rw [requests_endBody]
    apply requests_bind_le (requests_noted _)
    intro version
    exact requests_body_le

theorem processEntry_requests_le : requests (processEntry serie entry answers) ≤ 1 := by
  rw [processEntry]
  apply requests_bind_le (requests_noted _)
  intro _
  apply requests_bind_le (requests_lift _)
  intro archive
  apply requests_bind_le (requests_noted _)
  intro found
  cases found with
  | none => simp
  | some recipe => exact processFound_requests_le

/-- Builds are requested at most once, and only behind all the gates, for snaps with
another Mir version or for notices that all revisions share. -/
theorem requests_guarded (serie : Serie env) (entry : Entry) (answers : Answers) :
    requests (processEntry serie entry answers) ≤ 1 ∧
      (0 < requests (processEntry serie entry answers) →
        ∃ recipe processors mirVersion, answers.getByName entry.recipe = .ok recipe ∧
          recipe.pendingBuilds = .ok 0 ∧ recipe.processors = .ok processors ∧
          SourcePassed env entry answers recipe mirVersion ∧
          ((∃ version, mirVersion = some version ∧
              ∃ snap ∈ offers env entry answers processors, Differs version snap) ∨
            UsnDue env entry answers (offers env entry answers processors))) := by
  refine ⟨processEntry_requests_le, ?_⟩
  intro hRequest
  obtain ⟨-, recipe, mirVersion, hRecipe, hPassed, hGate⟩ := processEntry_requests.mp hRequest
  obtain ⟨hPending, processors, hProcessors, -, hDue⟩ := buildGate_ok.mp hGate
  refine ⟨recipe, processors, mirVersion, hRecipe, hPending, hProcessors, hPassed, ?_⟩
  rcases hDue with ⟨version, hVersion, before, snap, after, hSnaps, -, hDiffers⟩ | ⟨-, hUsn⟩
  · refine .inl ⟨version, hVersion, snap, ?_, hDiffers⟩
    rw [hSnaps]
    simp
  · exact .inr hUsn

/-- The gates on the recipe, its sources and their builds let the entry through. -/
structure GatesPassed (env : Environment) (entry : Entry) (answers : Answers)
    (processors : List String) (version : String) : Prop where
  archive : ∃ archive, answers.mainArchive = .ok archive
  recipe : ∃ recipe, answers.getByName entry.recipe = .ok recipe ∧
    recipe.pendingBuilds = .ok 0 ∧ recipe.processors = .ok processors ∧
    SourcePassed env entry answers recipe (some version)

/-- The version of a snap matches the pattern. -/
def Matches (snap : Json) : Prop :=
  ∃ text, snap.getItem "version" = .ok (.str text) ∧ (snapVersionRe.reMatch text).isSome = true

/-- The store's answers can be read, the first snap that is offered has a version of
Mir, and where none is offered there are notices all the same. -/
structure Buildable (env : Environment) (entry : Entry) (answers : Answers)
    (processors : List String) : Prop where
  store : StoreReady env entry answers processors
  first : ∀ snap rest, offers env entry answers processors = snap :: rest → Matches snap
  none : offers env entry answers processors = [] → UsnDue env entry answers []

theorem matches_iff (version : String) {snap : Json} :
    Matches snap ↔ Carries version snap ∨ Differs version snap := by
  simp only [Matches, Carries, Differs, ← exists_or, ← and_or_left]
  apply exists_congr
  intro text
  apply and_congr_right
  intro _
  rw [sameMirVersion]
  cases snapVersionRe.reMatch text with
  | none => simp
  | some m =>
      simp only [Option.map_some, Option.isSome_some, Option.some.injEq, true_iff]
      exact Bool.eq_false_or_eq_true _

theorem sourcePassed_unique {first second : Option String}
    (hFirst : SourcePassed env entry answers recipe first)
    (hSecond : SourcePassed env entry answers recipe second) : first = second := by
  cases first with
  | none =>
      cases second with
      | none => rfl
      | some version =>
          obtain ⟨ppa, -, -, -, -, hPpa, -⟩ := hSecond
          rw [SourcePassed, hPpa] at hFirst
          cases hFirst
  | some version =>
      obtain ⟨ppa, archive, series, sources, source, hPpa, hArchive, hSeries, hSources, hValid,
        hReady⟩ := hFirst
      cases second with
      | none =>
          rw [SourcePassed, hPpa] at hSecond
          cases hSecond
      | some other =>
          obtain ⟨ppa', archive', series', sources', source', hPpa', hArchive', hSeries',
            hSources', hValid', hReady'⟩ := hSecond
          cases hPpa.symm.trans hPpa'
          cases hArchive.symm.trans hArchive'
          cases hSeries.symm.trans hSeries'
          cases hSources.symm.trans hSources'
          rw [← latestSource_eq] at hValid hValid'
          cases hValid.symm.trans hValid'
          exact hReady.version.symm.trans hReady'.version

/-- Snaps none of which carries the version: the first one decides, if there is one. -/
theorem due_iff {version : String} {snaps : List Json}
    (hNone : ∀ snap ∈ snaps, ¬Carries version snap) :
    Due env entry answers (some version) snaps ↔
      (∀ snap rest, snaps = snap :: rest → Matches snap) ∧
        (snaps = [] → UsnDue env entry answers []) := by
  cases snaps with
  | nil => simp [Due, AllCarry, FirstDiffers]
  | cons snap rest =>
      have hSnap := hNone snap (by simp)
      simp only [Due, AllCarry, Option.some.injEq, exists_eq_left', forall_eq', firstDiffers_cons,
        List.forall_mem_cons, hSnap, false_and, or_false, matches_iff version]
      constructor
      · intro hDiffers
        refine ⟨?_, by simp⟩
        rintro _ _ ⟨⟩
        exact .inr hDiffers
      · rintro ⟨hFirst, -⟩
        exact (hFirst snap rest rfl).resolve_left hSnap

/-- When all gates pass and no snap that is offered carries the version, builds are
requested exactly under these conditions on the store's and the tool's answers. -/
theorem requested_iff (serie : Serie env) {processors : List String} {version : String}
    (hGates : GatesPassed env entry answers processors version)
    (hNone : ∀ snap ∈ offers env entry answers processors, ¬Carries version snap) :
    0 < requests (processEntry serie entry answers) ↔ Buildable env entry answers processors := by
  obtain ⟨hArchive, recipe, hRecipe, hPending, hProcessors, hPassed⟩ := hGates
  rw [processEntry_requests]
  constructor
  · rintro ⟨-, recipe', mirVersion, hRecipe', hPassed', hGate⟩
    cases hRecipe.symm.trans hRecipe'
    cases sourcePassed_unique hPassed hPassed'
    obtain ⟨-, processors', hProcessors', hStore, hDue⟩ := buildGate_ok.mp hGate
    cases hProcessors.symm.trans hProcessors'
    obtain ⟨hFirst, hUsn⟩ := (due_iff hNone).mp hDue
    exact ⟨hStore, hFirst, hUsn⟩
  · rintro ⟨hStore, hFirst, hUsn⟩
    refine ⟨hArchive, recipe, some version, hRecipe, hPassed, ?_⟩
    exact buildGate_ok.mpr ⟨hPending, processors, hProcessors, hStore,
      (due_iff hNone).mpr ⟨hFirst, hUsn⟩⟩

end Requests

/-! ### A channel that has never been published -/

def betaRecipe : Recipe where
  name := "mir-test-tools-26-beta"
  description := none
  webLink := "+snap/mir-test-tools-26-beta"
  autoBuildPocket := "Updates"
  processors := .ok ["amd64", "arm64"]
  pendingBuilds := .ok 0
  requestBuilds := .ok ()

def builtSource : Source where
  displayName := "mir 2.20.1-0ubuntu1 in resolute"
  sourcePackageVersion := "2.20.1-0ubuntu1"
  status := "Published"
  getBuilds := .ok [{ archTag := "amd64", buildstate := "Successfully built", webLink := "" }]
  getPublishedBinaries := .ok [{ archTag := "amd64", status := "Published" }]

def rcArchive : Archive where
  webLink := "+archive/ubuntu/rc"
  getPublishedSources _ _ := .ok [builtSource]

/-- What the store answers for a channel without a release. -/
def errorContent : Bytes := "\x7b\"result\":\"error\"\x7d".toUTF8.toList

/-- What the store answers for a channel with an older Mir. -/
def staleContent : Bytes :=
  "\x7b\"architecture\":[\"amd64\"],\"version\":\"2.19.3-snap42\"\x7d".toUTF8.toList

/-- `json.loads` of these answers, and of nothing. -/
def withoutTools : Environment where
  series name := .ok { name }
  loads content :=
    if content = errorContent then .ok (.obj [("result", .str "error")])
    else if content = staleContent then
      .ok (.obj [("architecture", .arr [.str "amd64"]), ("version", .str "2.19.3-snap42")])
    else .error { cls := .jsonDecodeError, text := "Expecting value: line 1 column 1 (char 0)" }
  checkNotices := false

def betaEntry : Entry where
  snap := "mir-test-tools"
  channel := "26/beta"
  recipe := "mir-test-tools-26-beta"
  ppa := some "rc"

/-- Everything is answered, the store with this. -/
def answeredWith (content : Bytes) : Answers where
  mainArchive := .ok rcArchive
  getByName _ := .ok betaRecipe
  getPPAByName _ := .ok rcArchive
  storeGet _ := .ok content
  pathFetches _ := { destExists := .ok true, response := .ok 200, written := .ok () }
  pairs _ := { get _ := .error { cls := .requestException }, unsquash _ _ := .ok [] }
  noticeFetches _ := { destExists := .ok true, response := .ok 200, written := .ok () }
  notices _ := .ok []

example : requests (processEntry (Serie.empty : Serie withoutTools) betaEntry
    (answeredWith staleContent)) = 1 := by decide +kernel

theorem betaEntry_gates (content : Bytes) :
    GatesPassed withoutTools betaEntry (answeredWith content) ["amd64", "arm64"] "2.20.1" := by
  refine ⟨⟨rcArchive, rfl⟩, betaRecipe, rfl, rfl, rfl, ?_⟩
  refine ⟨"rc", rcArchive, ⟨defaultRelease⟩, [builtSource], builtSource, rfl, rfl, rfl, rfl, ?_, ?_⟩
  · exact ⟨[], [], rfl, by simp, by decide⟩
  · refine ⟨by decide +kernel, rfl, _, _, _, rfl, rfl, rfl, ⟨by decide, by decide⟩, by decide⟩

theorem no_offers : offers withoutTools betaEntry (answeredWith errorContent) ["amd64", "arm64"] = [] := by
  decide +kernel

/-- The snap that the store offers is older than the source. -/
theorem stale_offers : ∀ snap ∈ offers withoutTools betaEntry (answeredWith staleContent) ["amd64", "arm64"],
    ¬Carries "2.20.1" snap := by
  have hOlder : sameMirVersion "2.20.1" "2.19.3-snap42" = some false := by decide +kernel
  have hOffers : offers withoutTools betaEntry (answeredWith staleContent) ["amd64", "arm64"] =
      List.replicate 2 (.obj [("architecture", .arr [.str "amd64"]), ("version", .str "2.19.3-snap42")]) := by
    decide +kernel
  rintro snap hSnap ⟨text, hVersion, hSame⟩
  rw [hOffers] at hSnap
  rw [List.eq_of_mem_replicate hSnap] at hVersion
  cases hVersion
  rw [hOlder] at hSame
  cases hSame

/-- With a channel that was never published, and with one that has an older Mir: there the build is requested. -/
theorem requested_iff_unpublished :
    (0 < requests (processEntry (Serie.empty : Serie withoutTools) betaEntry
        (answeredWith errorContent)) ↔
      Buildable withoutTools betaEntry (answeredWith errorContent) ["amd64", "arm64"]) ∧
    Buildable withoutTools betaEntry (answeredWith staleContent) ["amd64", "arm64"] := by
  refine ⟨requested_iff .empty (betaEntry_gates errorContent) (by simp [no_offers]), ?_⟩
  refine (requested_iff (Serie.empty : Serie withoutTools) (betaEntry_gates staleContent) stale_offers).mp ?_
  decide +kernel

/-- All gates pass and every lookup answers with an error, but no build is requested:
`all` of nothing is true. -/
theorem unpublished_not_built :
    GatesPassed withoutTools betaEntry (answeredWith errorContent) ["amd64", "arm64"] "2.20.1" ∧
    (∀ processor, storeAnswer withoutTools betaEntry (answeredWith errorContent) processor =
      some (.obj [("result", .str "error")])) ∧
    (∀ snap ∈ offers withoutTools betaEntry (answeredWith errorContent) ["amd64", "arm64"],
      ¬Carries "2.20.1" snap) ∧
    (processEntry (Serie.empty : Serie withoutTools) betaEntry (answeredWith errorContent)).Returns ∧
    requests (processEntry (Serie.empty : Serie withoutTools) betaEntry
      (answeredWith errorContent)) = 0 := by
  refine ⟨betaEntry_gates errorContent, ?_, ?_, ?_, ?_⟩
  · intro processor
    simp [storeAnswer, answeredWith, withoutTools, Except.toOption]
  · simp [no_offers]
  · decide +kernel
  · decide +kernel

end MirCi.ProcessSnaps
