import MirCi.ProcessSnaps.CheckPaths
import MirCi.ProcessSnaps.Versions

/-! The main loop of `process_snaps.py`. The body of the loop is a chain of gates;
each either goes on, skips the entry, or lets an exception out of the loop. -/
namespace MirCi.ProcessSnaps

open Python Semantics

def defaultRelease : String := "resolute"

def team : String := "mir-team"

def sourceName : String := "mir"

def pendingBuild : List String :=
  ["Needs building", "Dependency wait", "Currently building", "Uploading build"]

def failedBuild : List String := ["Failed to build"]

def ignoredSources : List String := ["Deleted", "Obsolete"]

/-- The dictionary `serie`: what it holds is what Launchpad answers. -/
structure Serie (env : Environment) where
  known : Dict String Series
  agrees : ∀ name series, known.get? name = some series → env.series name = .ok series

def Serie.empty {env : Environment} : Serie env where
  known := .empty
  agrees := by
    intro name series h
    rw [Dict.get?_eq_some] at h
    cases h

def Serie.remember {env : Environment} (serie : Serie env) (name : String) (series : Series)
    (h : env.series name = .ok series) : Serie env where
  known := serie.known.set name series
  agrees := by
    intro key value hGet
    rw [Dict.get?_set] at hGet
    split at hGet
    · rename_i hKey
      cases hGet
      rw [hKey]
      exact h
    · exact serie.agrees key value hGet

def getSeries {env : Environment} (serie : Serie env) (name : String) :
    Except Exc (Series × Serie env) :=
  match serie.known.get? name with
  | some series => .ok (series, serie)
  | none =>
      match h : env.series name with
      | .ok series => .ok (series, serie.remember name series h)
      | .error e => .error e

/-- A recipe that is not found is an error and ends the entry. -/
def findRecipe (entry : Entry) (answers : Answers) : Call (Option Recipe) :=
  match answers.getByName entry.recipe with
  | .ok recipe => pure (some recipe)
  | .error e =>
      if e.isa .notFound then do
        Script.report [.error [.lit "::error::Snap recipe not found: ", .lit entry.recipe],
          .append { cls := e.cls, message := [.lit e.text] }]
        pure none
      else Script.raise e

/-- `latest_source`: the first source that is not ignored. -/
def latestSource (sources : List Source) : Option Source :=
  sources.find? fun source => source.status ∉ ignoredSources

def failedBuilds (builds : List Build) : List Build :=
  builds.filter fun build => build.buildstate ∈ failedBuild

/-- The gates on the sources in the archive. -/
def sourceGate (recipe : Recipe) (ppa : String) (sources : List Source) : Gate String := do
  skipIf sources.isEmpty
    [.error [.lit "::error::Did not find ", .lit sourceName, .lit " in ", .lit team, .lit "/",
      .lit ppa]]
  let source ← orSkip (latestSource sources)
    [.error [.lit "::error::Did not find a valid source for ", .lit sourceName, .lit " in ",
      .lit team, .lit "/", .lit ppa]]
  let version ← orSkip (mirVersion source.sourcePackageVersion)
    [.error [.lit "::error::Failed to parse version '", .lit source.sourcePackageVersion,
      .lit "' for ", .lit source.displayName]]
  skipIf (source.status ≠ "Published")
    [.info [.lit "Skipping ", .lit source.displayName, .lit ": ", .lit source.status]]
  let builds ← ask source.getBuilds
  let processors ← ask recipe.processors
  skipIf (!(failedBuilds builds).isEmpty)
    ((failedBuilds builds).map (fun build =>
        .error [.lit "::error::Build failed: ", .lit build.webLink]) ++
      [.append { cls := .runtimeError, message := [.lit "One or more builds failed"] }])
  skipIf (builds.any fun build => build.archTag ∈ processors && build.buildstate ∈ pendingBuild)
    [.info [.lit "Skipping ", .lit source.displayName, .lit ": builds pending…"]]
  let binaries ← ask source.getPublishedBinaries
  skipIf (binaries.any fun binary => binary.archTag ∈ processors && binary.status ≠ "Published")
    [.info [.lit "Skipping ", .lit source.displayName, .lit ": binaries pending…"]]
  pure version

/-- Versions that differ between the architectures are an error, but the entry goes
on. -/
def checkUniform (entry : Entry) (recipe : Recipe) (snaps : List Json) : Call Unit := do
  let found ← Script.lift (versions snaps)
  let table ← Script.lift (versionsDict .empty snaps)
  if 1 < distinct found ∧ entry.nonUniform = false then
    Script.report
      [.error [.lit "::error::Non-uniform versions of snap ", .lit recipe.webLink, .lit ": ",
        .table table.items],
       .append { cls := .runtimeError, message := [.lit "Non-uniform versions of snap"] }]
  else pure ()

/-- The differences are errors, but the entry goes on. -/
def comparePaths (entry : Entry) (answers : Answers) (snaps : List Json) : Call Unit :=
  if entry.checkPaths = [] then pure ()
  else do
    let failures ← checkPaths answers snaps entry.checkPaths
    Script.report (failures.map .append)

/-- `mir_version == SNAP_VERSION_RE.match(store_snap["version"]).group("mir")`. -/
def compareVersion (version : String) (snap : Json) : Except Exc Bool := do
  let found ← snap.getItem "version"
  match found with
  | .str text =>
      match sameMirVersion version text with
      | some same => .ok same
      | none => .error { cls := .attributeError
                         text := "'NoneType' object has no attribute 'group'" }
  | _ => .error { cls := .typeError, text := "expected string or bytes-like object" }

/-- `all(...)` over the snaps, which stops at the first one that is not current. -/
def allCurrent (mirVersion : Option String) : List Json → Except Exc Bool
  | [] => .ok true
  | snap :: rest =>
      if snap = .null then allCurrent mirVersion rest
      else match mirVersion with
        | none => allCurrent mirVersion rest
        | some version => do
            let same ← compareVersion version snap
            if same then allCurrent mirVersion rest else .ok false

/-- All values are equal to the first one. -/
def uniform : List Json → Bool
  | [] => true
  | first :: rest => rest.all fun value => value.eq first

/-- What current snaps still need a build for: the same notices on all revisions. -/
def usnGate (env : Environment) (entry : Entry) (answers : Answers) (recipe : Recipe)
    (snaps : List Json) : Gate Unit :=
  if entry.checkUsns && env.checkNotices then do
    let notices ← call (checkSnapNotices env answers snaps)
    let snapNotices ← ask (notices.getItem entry.snap)
    let noticeValues ← ask snapNotices.values
    skipIf (!noticeValues.any Json.truthy)
      [.info [.lit "Skipping ", .lit entry.snap,
        .lit ": store versions are current and no USNs found"]]
    Script.report [.info [.lit "Found USNs:\n", .value snapNotices]]
    skipIf (!uniform noticeValues)
      [.error [.lit "::error::Non-uniform USN notices for snap ", .lit recipe.webLink],
       .append { cls := .runtimeError, message := [.lit "Non-uniform USN notices for a snap"] }]
  else
    skipIf true
      [.info [.lit "Skipping ", .lit entry.snap,
        .lit ": store versions are current and USN checks are disabled"]]

def currencyGate (env : Environment) (entry : Entry) (answers : Answers) (recipe : Recipe)
    (mirVersion : Option String) (snaps : List Json) : Gate Unit := do
  let current ← ask (allCurrent mirVersion snaps)
  if current then usnGate env entry answers recipe snaps else pure ()

/-- `snap_recipe.description or snap_recipe.name`. -/
def Recipe.title (recipe : Recipe) : String :=
  if recipe.description.getD "" = "" then recipe.name else recipe.description.getD ""

def trigger (entry : Entry) (recipe : Recipe) (archive : Archive) : Body Unit := do
  Script.report
    [.note (.info [.lit "::warning::Triggering ", .lit recipe.title, .lit "…"]),
     .requestBuilds recipe.webLink archive.webLink recipe.autoBuildPocket entry.channels]
  noted (ask recipe.requestBuilds)

/-- The gates from the recipe's pending builds on. -/
def buildGate (env : Environment) (entry : Entry) (answers : Answers) (recipe : Recipe)
    (mirVersion : Option String) : Gate Unit := do
  let pending ← ask recipe.pendingBuilds
  skipIf (0 < pending)
    [.info [.lit "Skipping ", .lit recipe.webLink, .lit ": snap builds pending…"]]
  let processors ← ask recipe.processors
  let snaps ← call (storeSnaps env entry answers processors)
  call (checkUniform entry recipe snaps)
  call (comparePaths entry answers snaps)
  currencyGate env entry answers recipe mirVersion snaps

/-- After a `continue` as after the end of the body, the loop goes on. -/
def endBody (body : Body Unit) : Script Event Exc Unit where
  events := body.events
  result := match body.result with
    | .ok () => .ok ()
    | .error .skipped => .ok ()
    | .error (.raised e) => .error e

/-- The body of the loop once it has a recipe. -/
def processFound {env : Environment} (serie : Serie env) (entry : Entry) (answers : Answers)
    (recipe : Recipe) (mainArchive : Archive) : Script Event Exc (Serie env) :=
  match entry.ppa with
  | none => do
      endBody do
        noted (buildGate env entry answers recipe none)
        trigger entry recipe mainArchive
      pure serie
  | some ppa => do
      let archive ← Script.lift (answers.getPPAByName ppa)
      let (series, serie) ← Script.lift (getSeries serie (entry.release.getD defaultRelease))
      let sources ← Script.lift (archive.getPublishedSources sourceName series)
      endBody do
        let version ← noted (sourceGate recipe ppa sources)
        noted (buildGate env entry answers recipe (some version))
        trigger entry recipe archive
      pure serie

def processEntry {env : Environment} (serie : Serie env) (entry : Entry) (answers : Answers) :
    Script Event Exc (Serie env) := do
  noted (Script.report [.info [.lit "Processing channel ", .lit entry.channel, .lit " for snap ",
    .lit entry.snap, .lit "…"]])
  let mainArchive ← Script.lift answers.mainArchive
  let found ← noted (findRecipe entry answers)
  match found with
  | none => pure serie
  | some recipe => processFound serie entry answers recipe mainArchive

/-- The loop over the entries, with the answers each of them meets. -/
def mainLoop {env : Environment} (serie : Serie env) :
    List (Entry × Answers) → Script Event Exc (Serie env)
  | [] => pure serie
  | (entry, answers) :: rest => do
      let serie ← processEntry serie entry answers
      mainLoop serie rest

/-! ### The gates -/

/-- The first source that is not ignored. -/
def FirstValid (sources : List Source) (source : Source) : Prop :=
  ∃ before after, sources = before ++ source :: after ∧
    (∀ earlier ∈ before, earlier.status ∈ ignoredSources) ∧ source.status ∉ ignoredSources

/-- None of the builds failed and none for the processors is pending. -/
structure Built (builds : List Build) (processors : List String) : Prop where
  not_failed : ∀ build ∈ builds, build.buildstate ∉ failedBuild
  not_pending : ∀ build ∈ builds, build.archTag ∈ processors → build.buildstate ∉ pendingBuild

/-- A published source with a Mir version, built and published for the processors of
the recipe. -/
structure SourceReady (recipe : Recipe) (source : Source) (version : String) : Prop where
  version : mirVersion source.sourcePackageVersion = some version
  published : source.status = "Published"
  built : ∃ builds processors binaries, source.getBuilds = .ok builds ∧
    recipe.processors = .ok processors ∧ source.getPublishedBinaries = .ok binaries ∧
    Built builds processors ∧
    ∀ binary ∈ binaries, binary.archTag ∈ processors → binary.status = "Published"

/-- The version of a snap names this Mir version. -/
def Carries (version : String) (snap : Json) : Prop :=
  ∃ text, snap.getItem "version" = .ok (.str text) ∧ sameMirVersion version text = some true

/-- The version of a snap names another Mir version. -/
def Differs (version : String) (snap : Json) : Prop :=
  ∃ text, snap.getItem "version" = .ok (.str text) ∧ sameMirVersion version text = some false

/-- Some snap names another Mir version, and those before it name this one. -/
def FirstDiffers (version : String) (snaps : List Json) : Prop :=
  ∃ before snap after, snaps = before ++ snap :: after ∧
    (∀ earlier ∈ before, Carries version earlier) ∧ Differs version snap

/-- `review-tools` gives a dictionary with one for this snap, which has these values. -/
structure Notices (env : Environment) (entry : Entry) (answers : Answers) (snaps : List Json)
    (values : List Json) : Prop where
  fetchable : Fetchable answers.noticeFetches snaps
  output : ∃ output text notices snapNotices, answers.notices (snaps.map destOf) = .ok output ∧
    decode output = .ok text ∧ env.loads output = .ok notices ∧
    notices.getItem entry.snap = .ok snapNotices ∧ snapNotices.values = .ok values

/-- USN checks are on, and there are notices, the same on all revisions. -/
def UsnDue (env : Environment) (entry : Entry) (answers : Answers) (snaps : List Json) : Prop :=
  entry.checkUsns = true ∧ env.checkNotices = true ∧ ∃ values,
    Notices env entry answers snaps values ∧ (∃ value ∈ values, value.truthy = true) ∧
    values.Pairwise fun a b => a.eq b = true

end MirCi.ProcessSnaps
