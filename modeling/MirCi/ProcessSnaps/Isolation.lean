import MirCi.ProcessSnaps.BuildGate

/-! Whether what goes wrong with one entry stays with it. The answers that the body
tolerates are read off its gates, each only as far as the loop asks; an exception
on any other answer ends the loop for all later entries. -/
namespace MirCi.ProcessSnaps

open Python Semantics

/-- Launchpad answers for the builds and binaries of the source, if they matter. -/
def SourceAnswered (recipe : Recipe) (sources : List Source) : Prop :=
  ∀ source version, FirstValid sources source →
    mirVersion source.sourcePackageVersion = some version → source.status = "Published" →
    ∃ builds processors, source.getBuilds = .ok builds ∧ recipe.processors = .ok processors ∧
      (Built builds processors → ∃ binaries, source.getPublishedBinaries = .ok binaries)

/-- The versions of the snaps match the pattern, up to the first one that names
another Mir version; and if there is none, `review-tools` gives the notices. -/
structure CurrencyTolerated (env : Environment) (entry : Entry) (answers : Answers)
    (mirVersion : Option String) (snaps : List Json) : Prop where
  matched : ∀ version, mirVersion = some version → ∀ before snap after,
    snaps = before ++ snap :: after → (∀ earlier ∈ before, Carries version earlier) → Matches snap
  noticed : AllCarry mirVersion snaps → entry.checkUsns = true → env.checkNotices = true →
    ∃ values, Notices env entry answers snaps values

/-- The answers from the recipe's pending builds on: with builds pending, no other
answer matters. -/
def BuildTolerated (env : Environment) (entry : Entry) (answers : Answers) (recipe : Recipe)
    (mirVersion : Option String) : Prop :=
  ∃ pending, recipe.pendingBuilds = .ok pending ∧ (pending = 0 →
    ∃ processors, recipe.processors = .ok processors ∧ StoreReady env entry answers processors ∧
      CurrencyTolerated env entry answers mirVersion (offers env entry answers processors) ∧
      (Due env entry answers mirVersion (offers env entry answers processors) →
        recipe.requestBuilds = .ok ()))

/-- The answers that an entry survives. -/
structure Tolerated (env : Environment) (entry : Entry) (answers : Answers) : Prop where
  archive : ∃ archive, answers.mainArchive = .ok archive
  missing : ∀ e, answers.getByName entry.recipe = .error e → e.isa .notFound = true
  plain : ∀ recipe, answers.getByName entry.recipe = .ok recipe → entry.ppa = none →
    BuildTolerated env entry answers recipe none
  backed : ∀ recipe ppa, answers.getByName entry.recipe = .ok recipe → entry.ppa = some ppa →
    ∃ archive series sources, answers.getPPAByName ppa = .ok archive ∧
      env.series (entry.release.getD defaultRelease) = .ok series ∧
      archive.getPublishedSources sourceName series = .ok sources ∧
      SourceAnswered recipe sources ∧ ∀ source version, FirstValid sources source →
        SourceReady recipe source version → BuildTolerated env entry answers recipe (some version)

section Gates

variable {env : Environment} {entry : Entry} {answers : Answers} {recipe : Recipe}
  {mirVersion : Option String} {snaps : List Json}

theorem safe_sourceGate {ppa : String} {sources : List Source} :
    Safe (sourceGate recipe ppa sources) ↔ SourceAnswered recipe sources := by
  simp only [sourceGate, safe_skipIf_bind, safe_orSkip_bind, safe_ask_bind, latestSource_eq]
  constructor
  · intro h source version hSource hVersion hStatus
    obtain ⟨before, after, hSources, -⟩ := id hSource
    obtain ⟨builds, hBuilds, processors, hProcessors, hRest⟩ :=
      h (by simp [hSources]) source hSource version hVersion (by simp [hStatus])
    refine ⟨builds, processors, hBuilds, hProcessors, ?_⟩
    intro hBuilt
    obtain ⟨hFailed, hPending⟩ := built_iff.mp hBuilt
    obtain ⟨binaries, hBinaries, -⟩ := hRest hFailed hPending
    exact ⟨binaries, hBinaries⟩
  · intro h _ source hSource version hVersion hStatus
    obtain ⟨builds, processors, hBuilds, hProcessors, hRest⟩ :=
      h source version hSource hVersion (by simpa using hStatus)
    refine ⟨builds, hBuilds, processors, hProcessors, ?_⟩
    intro hFailed hPending
    obtain ⟨binaries, hBinaries⟩ := hRest (built_iff.mpr ⟨hFailed, hPending⟩)
    exact ⟨binaries, hBinaries, fun _ => safe_pure _⟩

theorem safe_usnGate :
    Safe (usnGate env entry answers recipe snaps) ↔
      (entry.checkUsns = true → env.checkNotices = true →
        ∃ values, Notices env entry answers snaps values) := by
  rw [usnGate]
  split
  · rename_i hOn
    rw [Bool.and_eq_true] at hOn
    simp only [safe_call_bind, safe_ask_bind, safe_skipIf_bind, safe_report_bind, hOn,
      forall_const, ← checkSnapNotices_getItem]
    constructor
    · rintro ⟨notices, hNotices, snapNotices, hItem, values, hValues, -⟩
      exact ⟨values, notices, snapNotices, hNotices, hItem, hValues⟩
    · rintro ⟨values, notices, snapNotices, hNotices, hItem, hValues⟩
      exact ⟨notices, hNotices, snapNotices, hItem, values, hValues, fun _ => safe_skipIf⟩
  · rename_i hOff
    rw [Bool.and_eq_true] at hOff
    constructor
    · intro _ hChecked hAvailable
      exact absurd ⟨hChecked, hAvailable⟩ hOff
    · intro _
      exact safe_skipIf

/-- The comparison returns exactly when the versions match, up to the first that
names another Mir version. -/
theorem matched_iff {version : String} :
    (∀ before snap after, snaps = before ++ snap :: after →
        (∀ earlier ∈ before, Carries version earlier) → Matches snap) ↔
      (∀ snap ∈ snaps, Carries version snap) ∨ FirstDiffers version snaps := by
  induction snaps with
  | nil => simp
  | cons snap rest ih =>
      rw [firstDiffers_cons, List.forall_mem_cons]
      constructor
      · intro h
        have hFirst := h [] snap rest rfl (by simp)
        rw [matches_iff version] at hFirst
        rcases hFirst with hCarries | hDiffers
        · have hRest : ∀ before found after, rest = before ++ found :: after →
              (∀ earlier ∈ before, Carries version earlier) → Matches found := by
            rintro before found after rfl hBefore
            exact h (snap :: before) found after rfl
              (List.forall_mem_cons.mpr ⟨hCarries, hBefore⟩)
          rcases ih.mp hRest with hAll | hLater
          · exact .inl ⟨hCarries, hAll⟩
          · exact .inr (.inr ⟨hCarries, hLater⟩)
        · exact .inr (.inl hDiffers)
      · intro h before found after hSnaps hBefore
        rw [matches_iff version]
        cases before with
        | nil =>
            cases hSnaps
            rcases h with ⟨hCarries, -⟩ | hDiffers | ⟨hCarries, -⟩
            · exact .inl hCarries
            · exact .inr hDiffers
            · exact .inl hCarries
        | cons first before =>
            cases hSnaps
            rw [List.forall_mem_cons] at hBefore
            rw [← matches_iff version]
            apply ih.mpr _ before found after rfl hBefore.2
            rcases h with ⟨-, hAll⟩ | hDiffers | ⟨-, hLater⟩
            · exact .inl hAll
            · exact absurd hDiffers (carries_not_differs hBefore.1)
            · exact .inr hLater

theorem safe_currencyGate (hSnaps : ∀ snap ∈ snaps, snap ≠ .null) :
    Safe (currencyGate env entry answers recipe mirVersion snaps) ↔
      CurrencyTolerated env entry answers mirVersion snaps := by
  simp only [currencyGate, safe_ask_bind, allCurrent_ok hSnaps]
  constructor
  · rintro ⟨current, ⟨rfl, hCarry⟩ | ⟨rfl, version, hVersion, hDiffers⟩, h⟩
    · refine ⟨?_, fun _ => safe_usnGate.mp h⟩
      intro version hVersion
      exact matched_iff.mpr (.inl (hCarry version hVersion))
    · subst hVersion
      refine ⟨?_, ?_⟩
      · rintro _ ⟨⟩
        exact matched_iff.mpr (.inr hDiffers)
      · intro hCarry
        obtain ⟨before, snap, after, rfl, -, hSnap⟩ := hDiffers
        exact absurd hSnap (carries_not_differs (hCarry version rfl snap (by simp)))
  · rintro ⟨hMatched, hNoticed⟩
    cases mirVersion with
    | none =>
        have hCarry : AllCarry none snaps := by simp [AllCarry]
        exact ⟨true, .inl ⟨rfl, hCarry⟩, safe_usnGate.mpr (hNoticed hCarry)⟩
    | some version =>
        rcases matched_iff.mp (hMatched version rfl) with hAll | hDiffers
        · have hCarry : AllCarry (some version) snaps := by
            rintro _ ⟨⟩
            exact hAll
          exact ⟨true, .inl ⟨rfl, hCarry⟩, safe_usnGate.mpr (hNoticed hCarry)⟩
        · exact ⟨false, .inr ⟨rfl, version, rfl, hDiffers⟩, safe_pure ()⟩

theorem safe_trigger {archive : Archive} :
    Safe (trigger entry recipe archive) ↔ recipe.requestBuilds = .ok () := by
  rw [trigger, safe_bind]
  have hRequest : Safe (noted (ask recipe.requestBuilds)) ↔ ∃ u, recipe.requestBuilds = .ok u :=
    safe_call
  constructor
  · rintro ⟨-, h⟩
    obtain ⟨_, hOk⟩ := hRequest.mp (h () rfl)
    exact hOk
  · intro hOk
    refine ⟨?_, fun _ _ => hRequest.mpr ⟨(), hOk⟩⟩
    intro e hError
    cases hError

theorem safe_buildGate :
    Safe (buildGate env entry answers recipe mirVersion) ↔
      ∃ pending, recipe.pendingBuilds = .ok pending ∧ (pending = 0 →
        ∃ processors, recipe.processors = .ok processors ∧
          StoreReady env entry answers processors ∧
          CurrencyTolerated env entry answers mirVersion
            (offers env entry answers processors)) := by
  simp only [buildGate, safe_ask_bind, safe_skipIf_bind, safe_call_bind, storeSnaps_ok,
    checkUniform_ok, comparePaths_ok]
  apply exists_congr
  intro pending
  apply and_congr_right
  intro _
  have hPending : decide (0 < pending) = false ↔ pending = 0 := by
    rw [decide_eq_false_iff_not]
    omega
  rw [hPending]
  apply imp_congr_right
  intro _
  apply exists_congr
  intro processors
  apply and_congr_right
  intro _
  constructor
  · rintro ⟨_, ⟨hAnswered, rfl⟩, _, hReadable, _, hPaths, h⟩
    exact ⟨⟨hAnswered, hReadable, hPaths⟩, (safe_currencyGate offers_ne_null).mp h⟩
  · rintro ⟨⟨hAnswered, hReadable, hPaths⟩, h⟩
    exact ⟨_, ⟨hAnswered, rfl⟩, (), hReadable, (), hPaths,
      (safe_currencyGate offers_ne_null).mpr h⟩

theorem safe_body {archive : Archive} :
    Safe (noted (buildGate env entry answers recipe mirVersion) >>= fun _ =>
        trigger entry recipe archive) ↔
      BuildTolerated env entry answers recipe mirVersion := by
  have hNoted : Safe (noted (buildGate env entry answers recipe mirVersion)) ↔
      Safe (buildGate env entry answers recipe mirVersion) := Iff.rfl
  rw [safe_bind, hNoted, safe_buildGate]
  simp only [noted_ok, safe_trigger, buildGate_ok]
  constructor
  · rintro ⟨⟨pending, hPending, hRest⟩, hRequest⟩
    refine ⟨pending, hPending, ?_⟩
    rintro rfl
    obtain ⟨processors, hProcessors, hStore, hCurrency⟩ := hRest rfl
    refine ⟨processors, hProcessors, hStore, hCurrency, ?_⟩
    intro hDue
    exact hRequest () ⟨hPending, processors, hProcessors, hStore, hDue⟩
  · rintro ⟨pending, hPending, hRest⟩
    constructor
    · refine ⟨pending, hPending, ?_⟩
      intro hZero
      obtain ⟨processors, hProcessors, hStore, hCurrency, -⟩ := hRest hZero
      exact ⟨processors, hProcessors, hStore, hCurrency⟩
    · rintro _ ⟨hZero, processors, hProcessors, -, hDue⟩
      cases hPending.symm.trans hZero
      obtain ⟨processors', hProcessors', -, -, hRequest⟩ := hRest rfl
      cases hProcessors.symm.trans hProcessors'
      exact hRequest hDue

end Gates

section Loop

variable {env : Environment} {entry : Entry} {answers : Answers}

theorem endBody_returns {body : Body Unit} (serie : Serie env) :
    (endBody body >>= fun _ => pure serie).Returns ↔ Safe body := by
  rw [Script.returns_bind]
  cases hResult : body.result with
  | ok u => simp [endBody, hResult, Safe, Script.Ends]
  | error e => cases e <;> simp [endBody, hResult, Safe, Script.Ends]

theorem processFound_returns {serie : Serie env} {recipe : Recipe} {mainArchive : Archive} :
    (processFound serie entry answers recipe mainArchive).Returns ↔
      (entry.ppa = none → BuildTolerated env entry answers recipe none) ∧
      ∀ ppa, entry.ppa = some ppa → ∃ archive series sources,
        answers.getPPAByName ppa = .ok archive ∧
        env.series (entry.release.getD defaultRelease) = .ok series ∧
        archive.getPublishedSources sourceName series = .ok sources ∧
        SourceAnswered recipe sources ∧ ∀ source version, FirstValid sources source →
          SourceReady recipe source version →
          BuildTolerated env entry answers recipe (some version) := by
  cases hPpa : entry.ppa with
  | none =>
      rw [processFound, hPpa, endBody_returns, safe_body]
      simp
  | some ppa =>
      have hSource : ∀ sources, Safe (noted (sourceGate recipe ppa sources)) ↔
          SourceAnswered recipe sources := fun _ => safe_sourceGate
      rw [processFound, hPpa]
      simp only [↓endBody_returns, ↓safe_body, Script.returns_bind, Script.result_lift, safe_bind,
        hSource, noted_ok, sourceGate_ok]
      constructor
      · rintro ⟨archive, hArchive, ⟨series, later⟩, hSeries, sources, hSources, hAnswered, hBuild⟩
        refine ⟨by simp, ?_⟩
        rintro _ ⟨⟩
        refine ⟨archive, series, sources, hArchive, (getSeries_ok serie).mp ⟨later, hSeries⟩, hSources,
          hAnswered, ?_⟩
        intro source version hValid hReady
        exact hBuild version ⟨source, hValid, hReady⟩
      · rintro ⟨-, h⟩
        obtain ⟨archive, series, sources, hArchive, hSeries, hSources, hAnswered, hBuild⟩ := h ppa rfl
        obtain ⟨later, hLater⟩ := (getSeries_ok serie).mpr hSeries
        refine ⟨archive, hArchive, (series, later), hLater, sources, hSources, hAnswered, ?_⟩
        rintro version ⟨source, hValid, hReady⟩
        exact hBuild source version hValid hReady

theorem findRecipe_none :
    (findRecipe entry answers).result = .ok none ↔
      ∃ e, answers.getByName entry.recipe = .error e ∧ e.isa .notFound = true := by
  rw [findRecipe]
  cases answers.getByName entry.recipe with
  | ok found => simp
  | error e => cases hFound : e.isa .notFound <;> simp [hFound, Script.bind_ok]

/-- An entry ends without an exception exactly when its answers are tolerated,
whatever series are known. -/
theorem processEntry_returns (serie : Serie env) :
    (processEntry serie entry answers).Returns ↔ Tolerated env entry answers := by
  simp only [processEntry, Script.returns_bind, Script.result_lift, noted_ok]
  constructor
  · rintro ⟨_, -, archive, hArchive, found, hFound, h⟩
    cases found with
    | none =>
        obtain ⟨e, hError, hNotFound⟩ := findRecipe_none.mp hFound
        refine ⟨⟨archive, hArchive⟩, ?_, ?_, ?_⟩
        · intro e' hError'
          cases hError.symm.trans hError'
          exact hNotFound
        · intro recipe hRecipe
          cases hError.symm.trans hRecipe
        · intro recipe _ hRecipe
          cases hError.symm.trans hRecipe
    | some recipe =>
        have hRecipe := findRecipe_ok.mp hFound
        obtain ⟨hPlain, hBacked⟩ := processFound_returns.mp h
        refine ⟨⟨archive, hArchive⟩, ?_, ?_, ?_⟩
        · intro e hError
          cases hRecipe.symm.trans hError
        · intro recipe' hRecipe'
          cases hRecipe.symm.trans hRecipe'
          exact hPlain
        · intro recipe' ppa hRecipe'
          cases hRecipe.symm.trans hRecipe'
          exact hBacked ppa
  · rintro ⟨⟨archive, hArchive⟩, hMissing, hPlain, hBacked⟩
    cases hName : answers.getByName entry.recipe with
    | error e =>
        exact ⟨(), rfl, archive, hArchive, none, findRecipe_none.mpr ⟨e, hName, hMissing e hName⟩,
          ⟨serie, rfl⟩⟩
    | ok recipe =>
        exact ⟨(), rfl, archive, hArchive, some recipe, findRecipe_ok.mpr hName,
          processFound_returns.mpr ⟨hPlain recipe hName, fun ppa => hBacked recipe ppa hName⟩⟩

/-- What is known of the series changes nothing but what is known later. -/
theorem processEntry_alike (serie serie' : Serie env) (entry : Entry) (answers : Answers) :
    Script.Alike (fun _ _ => True) (processEntry serie entry answers)
      (processEntry serie' entry answers) := by
  apply Script.alike_bind (Script.alike_refl _)
  intro _ _ _
  apply Script.alike_bind (Script.alike_refl _)
  rintro archive _ rfl
  apply Script.alike_bind (Script.alike_refl _)
  rintro found _ rfl
  cases found with
  | none => exact Script.alike_pure trivial
  | some recipe =>
      show Script.Alike _ (processFound serie entry answers recipe archive)
        (processFound serie' entry answers recipe archive)
      rw [processFound, processFound]
      split
      · apply Script.alike_bind (Script.alike_refl _)
        intro _ _ _
        exact Script.alike_pure trivial
      · apply Script.alike_bind (Script.alike_refl _)
        rintro archive _ rfl
        apply Script.alike_bind (Script.alike_lift (f := Prod.fst) (g := Prod.fst)
          ((getSeries_fst serie _).trans (getSeries_fst serie' _).symm))
        rintro ⟨series, later⟩ ⟨_, later'⟩ rfl
        apply Script.alike_bind (Script.alike_refl _)
        rintro sources _ rfl
        apply Script.alike_bind (Script.alike_refl _)
        intro _ _ _
        exact Script.alike_pure trivial

theorem mainLoop_alike (serie serie' : Serie env) (entries : List (Entry × Answers)) :
    Script.Alike (fun _ _ => True) (mainLoop serie entries) (mainLoop serie' entries) := by
  induction entries generalizing serie serie' with
  | nil => exact Script.alike_pure trivial
  | cons first rest ih =>
      apply Script.alike_bind (processEntry_alike serie serie' first.1 first.2)
      intro later later' _
      exact ih later later'

/-- The loop finishes exactly when every entry's answers are tolerated. -/
theorem mainLoop_returns (serie : Serie env) (entries : List (Entry × Answers)) :
    (mainLoop serie entries).Returns ↔ ∀ x ∈ entries, Tolerated env x.1 x.2 := by
  induction entries generalizing serie with
  | nil => simp [mainLoop]
  | cons first rest ih =>
      rw [List.forall_mem_cons, ← processEntry_returns serie, mainLoop, Script.returns_bind]
      constructor
      · rintro ⟨later, hFirst, hRest⟩
        exact ⟨⟨later, hFirst⟩, (ih later).mp hRest⟩
      · rintro ⟨⟨later, hFirst⟩, hRest⟩
        exact ⟨later, hFirst, (ih later).mpr hRest⟩

theorem mainLoop_append (serie : Serie env) (before after : List (Entry × Answers)) :
    mainLoop serie (before ++ after) =
      mainLoop serie before >>= fun later => mainLoop later after := by
  induction before generalizing serie with
  | nil =>
      show mainLoop serie after = pure serie >>= fun later => mainLoop later after
      rw [Script.pure_bind]
  | cons first rest ih =>
      show (processEntry serie first.1 first.2 >>= fun later => mainLoop later (rest ++ after)) =
        (processEntry serie first.1 first.2 >>= fun later => mainLoop later rest) >>= _
      rw [Script.bind_assoc]
      congr 1
      funext later
      exact ih later

end Loop

/-- Processing the entry ends without an exception, and what follows it, with the end
of the run, is what follows when the entry is absent. -/
def Isolated (env : Environment) (before : List (Entry × Answers)) (entry : Entry)
    (answers : Answers) (after : List (Entry × Answers)) : Prop :=
  let first := mainLoop (Serie.empty : Serie env) before
  let present := mainLoop (Serie.empty : Serie env) (before ++ (entry, answers) :: after)
  let absent := mainLoop (Serie.empty : Serie env) (before ++ after)
  ∃ serie, first.result = .ok serie ∧ (processEntry serie entry answers).Returns ∧
    present.outcome = absent.outcome ∧ ∃ later, absent.events = first.events ++ later ∧
      present.events = first.events ++ ((processEntry serie entry answers).events ++ later)

/-- An entry that the loop gets to is isolated from the others exactly when all the
answers it gets are ones that its gates tolerate. -/
theorem isolated_iff {env : Environment} (before after : List (Entry × Answers)) (entry : Entry)
    (answers : Answers) (hBefore : (mainLoop (Serie.empty : Serie env) before).Returns) :
    Isolated env before entry answers after ↔ Tolerated env entry answers := by
  obtain ⟨serie, hFirst⟩ := hBefore
  rw [← processEntry_returns serie]
  constructor
  · rintro ⟨serie', hFirst', hReturns, -⟩
    cases hFirst.symm.trans hFirst'
    exact hReturns
  · intro hReturns
    obtain ⟨later, hEntry⟩ := id hReturns
    have hAlike := mainLoop_alike later serie after
    have hPresent : mainLoop Serie.empty (before ++ (entry, answers) :: after) =
        { events := (mainLoop (Serie.empty : Serie env) before).events ++
            ((processEntry serie entry answers).events ++ (mainLoop later after).events)
          result := (mainLoop later after).result } := by
      rw [mainLoop_append, Script.bind_of_ok hFirst, mainLoop, Script.bind_of_ok hEntry]
    have hAbsent : mainLoop Serie.empty (before ++ after) =
        { events := (mainLoop (Serie.empty : Serie env) before).events ++
            (mainLoop serie after).events
          result := (mainLoop serie after).result } := by
      rw [mainLoop_append, Script.bind_of_ok hFirst]
    refine ⟨serie, hFirst, hReturns, ?_, (mainLoop serie after).events, ?_, ?_⟩
    · rw [hPresent, hAbsent]
      show (mainLoop later after).outcome = (mainLoop serie after).outcome
      exact Script.outcome_of_alike hAlike
    · rw [hAbsent]
    · rw [hPresent, hAlike.1]

/-- `isolated_iff` behind an entry for a channel that was never published, and before
it once more. -/
theorem isolated_iff_unpublished :
    Isolated withoutTools [(betaEntry, answeredWith errorContent)] betaEntry
        (answeredWith errorContent) [(betaEntry, answeredWith errorContent)] ↔
      Tolerated withoutTools betaEntry (answeredWith errorContent) :=
  isolated_iff _ _ _ _ (by decide +kernel)

/-- A response of the store that is not JSON: `get_store_snap` returns `None`, which
has no `get`, and the entries behind are not processed. -/
theorem later_entry_lost :
    ¬Isolated withoutTools [] betaEntry (answeredWith [])
      [(betaEntry, answeredWith errorContent)] ∧
    (mainLoop (Serie.empty : Serie withoutTools)
      [(betaEntry, answeredWith []), (betaEntry, answeredWith errorContent)]).events =
    (mainLoop (Serie.empty : Serie withoutTools) [(betaEntry, answeredWith [])]).events ∧
    (mainLoop (Serie.empty : Serie withoutTools)
      [(betaEntry, answeredWith errorContent)]).events ≠ [] := by
  refine ⟨?_, by decide +kernel, by decide +kernel⟩
  rintro ⟨serie, ⟨⟩, hReturns, -⟩
  revert hReturns
  decide +kernel

end MirCi.ProcessSnaps
