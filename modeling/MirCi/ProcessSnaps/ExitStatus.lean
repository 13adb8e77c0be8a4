import MirCi.ProcessSnaps.Isolation
import MirCi.ProcessSnaps.PathReports

/-! Whether the exit status tells of the errors that were logged. The list of errors is
kept by hand beside the log, and the gates on the sources of a ppa only log. -/
namespace MirCi.ProcessSnaps

open Python Semantics

/-! ### The log and the list of errors -/

/-- A message that GitHub shows as an error. -/
def Note.Annotated : Note → Prop
  | .error (.lit text :: _) => "::error::".toList <+: text.toList
  | _ => False

/-- A message that is logged as an error. -/
def Note.Logged : Note → Prop
  | .error _ => True
  | _ => False

def Note.Appended : Note → Prop
  | .append _ => True
  | _ => False

/-- What the log and the list of errors get, of what the loop does. -/
def Event.OfNote (kind : Note → Prop) : Event → Prop
  | .note n => kind n
  | .requestBuilds .. => False

def Event.failure? : Event → Option Failure
  | .note (.append failure) => some failure
  | _ => none

/-- `sys.exit(1)` if there are errors, behind the loop. -/
def exitStatus (events : List Event) : ℕ := if (events.filterMap Event.failure?).isEmpty then 0 else 1

/-- An annotated error makes the run fail, and a run without errors succeeds. -/
def StatusTells {α : Type} (run : Script Event Exc α) : Prop :=
  (run.Leaves (Event.OfNote Note.Annotated) → exitStatus run.events = 1) ∧
    (¬ run.Leaves (Event.OfNote Note.Logged) → exitStatus run.events = 0)

/-! ### What is wrong with an entry -/

/-- The first valid source has a version of Mir. -/
def Versioned (sources : List Source) : Prop :=
  ∃ source version, FirstValid sources source ∧ mirVersion source.sourcePackageVersion = some version

/-- The archive of the entry has no source with a version of Mir. -/
def Unsourced (env : Environment) (entry : Entry) (answers : Answers) : Prop :=
  ∃ recipe ppa archive series sources, answers.getByName entry.recipe = .ok recipe ∧
    entry.ppa = some ppa ∧ answers.getPPAByName ppa = .ok archive ∧
    env.series (entry.release.getD defaultRelease) = .ok series ∧
    archive.getPublishedSources sourceName series = .ok sources ∧ ¬ Versioned sources

/-- A build of the published source failed. -/
def BuildsFailed (sources : List Source) : Prop :=
  ∃ source version builds, FirstValid sources source ∧
    mirVersion source.sourcePackageVersion = some version ∧ source.status = "Published" ∧
    source.getBuilds = .ok builds ∧ ∃ build ∈ builds, build.buildstate ∈ failedBuild

/-- The versions differ between the architectures, and should not. -/
def NonUniform (entry : Entry) (snaps : List Json) : Prop :=
  entry.nonUniform = false ∧ ∃ found, versions snaps = .ok found ∧ 1 < distinct found

/-- Some pair lacks a list or a file, or they differ. -/
def PathsFail (entry : Entry) (answers : Answers) (snaps : List Json) : Prop :=
  ∃ n p, (pairsOf (snaps.map fun s => (s, destOf s)) entry.checkPaths)[n]? = some p ∧
    0 < due (answers.pairs n) p

/-- Current snaps have notices, not the same on all revisions. -/
def NoticesDiffer (env : Environment) (entry : Entry) (answers : Answers) (mirVersion : Option String)
    (snaps : List Json) : Prop :=
  AllCarry mirVersion snaps ∧ entry.checkUsns = true ∧ env.checkNotices = true ∧ ∃ values,
    Notices env entry answers snaps values ∧ (∃ value ∈ values, value.truthy = true) ∧
    ¬ values.Pairwise fun a b => a.eq b = true

/-- Something is wrong with the snaps that the store offers. -/
def SnapsFail (env : Environment) (entry : Entry) (answers : Answers) (recipe : Recipe)
    (mirVersion : Option String) : Prop :=
  recipe.pendingBuilds = .ok 0 ∧ ∃ processors, recipe.processors = .ok processors ∧
    (NonUniform entry (offers env entry answers processors) ∨
      PathsFail entry answers (offers env entry answers processors) ∨
      NoticesDiffer env entry answers mirVersion (offers env entry answers processors))

/-- The recipe is missing, a build of the source failed, or something is wrong with the snaps behind the
gates on the source. -/
def EntryFails (env : Environment) (entry : Entry) (answers : Answers) : Prop :=
  (∃ e, answers.getByName entry.recipe = .error e) ∨
    ∃ recipe, answers.getByName entry.recipe = .ok recipe ∧
      ((∃ ppa archive series sources, entry.ppa = some ppa ∧ answers.getPPAByName ppa = .ok archive ∧
          env.series (entry.release.getD defaultRelease) = .ok series ∧
          archive.getPublishedSources sourceName series = .ok sources ∧ BuildsFailed sources) ∨
        ∃ mirVersion, SourcePassed env entry answers recipe mirVersion ∧
          SnapsFail env entry answers recipe mirVersion)

/-! ### The parts of the body -/

/-- Kinds of notes that are neither information nor errors without an annotation. -/
structure Marks (kind : Note → Prop) : Prop where
  info : ∀ message, ¬ kind (.info message)
  error : ∀ message, kind (.error message) → Note.Annotated (.error message)

theorem marks_annotated : Marks Note.Annotated := ⟨fun _ h => h, fun _ h => h⟩

theorem marks_appended : Marks Note.Appended := ⟨fun _ h => h, fun _ h => h.elim⟩

/-- Kinds of notes that a failure leaves, whether it is logged or appended. -/
def Tells (kind : Note → Prop) : Prop := (∀ message, kind (.error message)) ∨ ∀ failure, kind (.append failure)

theorem Tells.report {kind : Note → Prop} (hKind : Tells kind) (message : Text) (failure : Failure) :
    ∃ note ∈ [.error message, .append failure], kind note := by
  rcases hKind with hError | hAppend
  · exact ⟨_, List.mem_cons_self, hError message⟩
  · exact ⟨_, List.mem_cons_of_mem _ List.mem_cons_self, hAppend failure⟩

section Parts

variable {α : Type} {kind : Note → Prop} {env : Environment} {entry : Entry} {answers : Answers}
  {recipe : Recipe} {mirVersion : Option String} {snaps : List Json}

@[simp] theorem leaves_call {x : Call α} : (call x).Leaves kind ↔ x.Leaves kind := Iff.rfl

@[simp] theorem leaves_ask {answer : Except Exc α} : ¬ (ask answer).Leaves kind := Script.leaves_lift answer

@[simp] theorem leaves_skipIf {condition : Bool} {events : List Note} :
    (skipIf condition events).Leaves kind ↔ condition = true ∧ ∃ event ∈ events, kind event := by
  cases condition with
  | true => simp [skipIf, Script.Leaves]
  | false => exact iff_of_false (Script.leaves_pure ()) (by simp)

@[simp] theorem leaves_orSkip {value : Option α} {events : List Note} :
    (orSkip value events).Leaves kind ↔ value = none ∧ ∃ event ∈ events, kind event := by
  cases value with
  | some a => exact iff_of_false (Script.leaves_pure a) (by simp)
  | none => simp [orSkip, Script.Leaves]

@[simp] theorem leaves_noted {ε : Type} {x : Script Note ε α} :
    (noted x).Leaves (Event.OfNote kind) ↔ x.Leaves kind := Script.leaves_mapEvents

/-- A lookup in the store logs at most an error without an annotation. -/
theorem leaves_storeSnaps (hKind : Marks kind) {processors : List String} :
    ¬ (storeSnaps env entry answers processors).Leaves kind := by
  have hUnparsed : ∀ content, ¬ kind (.error [.lit "Could not parse store response: ", .bytes content]) := by
    intro content h
    exact absurd (hKind.error _ h) (by simp [Note.Annotated])
  induction processors with
  | nil => exact Script.leaves_pure _
  | cons processor rest ih =>
      simp only [storeSnaps, getStoreSnap, Script.leaves_bind, Script.leaves_lift, Script.leaves_pure, ih,
        false_or, or_false, and_false, exists_false]
      rintro ⟨content, -, h⟩
      cases hLoads : env.loads content with
      | ok result => simp [hLoads] at h
      | error e =>
          by_cases hJson : e.isa .jsonDecodeError = true
          · simp [hLoads, hJson, Script.leaves_bind, hUnparsed] at h
          · simp [hLoads, hJson] at h

theorem leaves_checkSnapNotices (hKind : Marks kind) :
    ¬ (checkSnapNotices env answers snaps).Leaves kind := by
  simp only [checkSnapNotices, Script.leaves_bind, Script.leaves_lift, false_or]
  rintro ⟨fetched, -, h⟩
  cases hOutput : answers.notices (fetched.map Prod.snd) with
  | ok output => simp [hOutput, Script.leaves_bind] at h
  | error e =>
      have hFailed : ¬ kind (.error [.lit "Failed to check notices:\n", .bytes e.output]) := by
        intro h
        exact absurd (hKind.error _ h) (by simp [Note.Annotated])
      by_cases hProcess : e.exc.isa .calledProcessError = true
      · simp [hOutput, hProcess, Script.leaves_bind, hFailed] at h
      · simp [hOutput, hProcess] at h

theorem leaves_checkUniform (h : (checkUniform entry recipe snaps).Leaves kind) :
    NonUniform entry snaps := by
  simp only [checkUniform, Script.leaves_bind, Script.leaves_lift, Script.result_lift, false_or] at h
  obtain ⟨found, hFound, table, hTable, h⟩ := h
  split at h
  · rename_i hDiffer
    exact ⟨hDiffer.2, found, hFound, hDiffer.1⟩
  · exact absurd h (Script.leaves_pure ())

theorem tells_checkUniform (hKind : Tells kind) (hReadable : ∀ snap ∈ snaps, Readable snap)
    (h : NonUniform entry snaps) : (checkUniform entry recipe snaps).Leaves kind := by
  obtain ⟨hNonUniform, found, hFound, hMany⟩ := h
  obtain ⟨-, table, hTable⟩ := (versions_readable .empty).mpr hReadable
  simp only [checkUniform, Script.leaves_bind, Script.leaves_lift, Script.result_lift, false_or]
  refine ⟨found, hFound, table, hTable, ?_⟩
  rw [if_pos ⟨hMany, hNonUniform⟩]
  exact hKind.report _ _

theorem leaves_usnGate (hKind : Marks kind)
    (h : (usnGate env entry answers recipe snaps).Leaves kind) :
    entry.checkUsns = true ∧ env.checkNotices = true ∧ ∃ values,
      Notices env entry answers snaps values ∧ (∃ value ∈ values, value.truthy = true) ∧
      ¬ values.Pairwise fun a b => a.eq b = true := by
  rw [usnGate] at h
  split at h
  · rename_i hOn
    rw [Bool.and_eq_true] at hOn
    simp only [Script.leaves_bind, leaves_call, leaves_checkSnapNotices hKind, leaves_ask, false_or, call_ok,
      ask_ok, leaves_skipIf, skipIf_ok, Script.leaves_report, Script.result_report] at h
    obtain ⟨notices, hNotices, snapNotices, hItem, values, hValues, h⟩ := h
    have hFound := checkSnapNotices_getItem.mp ⟨notices, snapNotices, hNotices, hItem, hValues⟩
    rcases h with ⟨-, hInfo⟩ | ⟨_, hAny, hInfo | ⟨_, -, hDiffer, -⟩⟩
    · simp [hKind.info] at hInfo
    · simp [hKind.info] at hInfo
    · refine ⟨hOn.1, hOn.2, values, hFound, by simpa using hAny, ?_⟩
      rw [← uniform_iff]
      simpa using hDiffer
  · simp [hKind.info] at h

theorem tells_usnGate (hKind : Tells kind) {values : List Json} (hChecked : entry.checkUsns = true)
    (hAvailable : env.checkNotices = true) (hNotices : Notices env entry answers snaps values)
    (hAny : ∃ value ∈ values, value.truthy = true) (hDiffer : ¬ values.Pairwise fun a b => a.eq b = true) :
    (usnGate env entry answers recipe snaps).Leaves kind := by
  obtain ⟨notices, snapNotices, hFound, hItem, hValues⟩ := checkSnapNotices_getItem.mpr hNotices
  rw [← uniform_iff] at hDiffer
  simp only [usnGate, hChecked, hAvailable, Bool.and_self, if_true, Script.leaves_bind, leaves_call, call_ok,
    ask_ok, leaves_skipIf, skipIf_ok, Script.result_report]
  refine .inr ⟨notices, hFound, .inr ⟨snapNotices, hItem, .inr ⟨values, hValues, .inr ⟨(), by simpa using hAny,
    .inr ⟨(), trivial, by simpa using hDiffer, hKind.report _ _⟩⟩⟩⟩⟩

end Parts

/-! ### `check_paths` -/

section Pairs

variable {kind : Note → Prop} {answers : PairAnswers} {locals last : Locals} {p : Pair}
  {failures : List Failure} {path : Text}

theorem leaves_failedDownload (hKind : Marks kind) {text : String} :
    ¬ (failedDownload locals text).Leaves kind := by
  simp only [failedDownload, Script.leaves_bind, Script.leaves_lift, Script.leaves_report, Script.leaves_pure,
    false_or, or_false, and_false, exists_false, List.mem_singleton, exists_eq_left]
  rintro ⟨res, -, h⟩
  exact absurd (hKind.error _ h) (by simp [Note.Annotated])

theorem logged_failedDownload {text : String}
    (h : (failedDownload locals text).result = .ok (last, failures)) :
    (failedDownload locals text).Leaves Note.Logged := by
  simp only [failedDownload, Script.bind_ok, Script.result_lift] at h
  obtain ⟨res, hRes, -⟩ := h
  simp only [failedDownload, Script.leaves_bind, Script.leaves_lift, Script.leaves_report, Script.result_lift,
    false_or, List.mem_singleton, exists_eq_left]
  exact ⟨res, hRes, .inl trivial⟩

theorem leaves_downloadList (hKind : Marks kind) : ¬ (downloadList answers locals p).Leaves kind := by
  simp only [downloadList, Script.leaves_bind, Script.leaves_lift, Script.result_lift, false_or]
  rintro ⟨url, -, h⟩
  cases hGet : answers.get url with
  | ok res =>
      cases hStatus : res.statusError <;> simp [hGet, hStatus, leaves_failedDownload hKind] at h
  | error e =>
      by_cases hClass : e.isa .requestException = true <;>
        simp [hGet, hClass, leaves_failedDownload hKind] at h

theorem logged_downloadList (h : (downloadList answers locals p).result = .ok (last, failures))
    (hFailures : failures ≠ []) : (downloadList answers locals p).Leaves Note.Logged := by
  simp only [downloadList, Script.bind_ok, Script.result_lift] at h
  obtain ⟨url, hUrl, h⟩ := h
  simp only [downloadList, Script.leaves_bind, Script.leaves_lift, Script.result_lift, false_or]
  refine ⟨url, hUrl, ?_⟩
  cases hGet : answers.get url with
  | ok res =>
      cases hStatus : res.statusError with
      | none =>
          simp only [hGet, hStatus, Script.result_pure, Except.ok.injEq, Prod.mk.injEq] at h
          exact absurd h.2.symm hFailures
      | some text =>
          simp only [hGet, hStatus] at h
          simpa only [hStatus] using logged_failedDownload h
  | error e =>
      by_cases hClass : e.isa .requestException = true
      · simp only [hGet, hClass, if_true] at h
        simpa only [hClass, if_true] using logged_failedDownload h
      · simp [hGet, hClass] at h

theorem leaves_unsquashList (hKind : Marks kind) : ¬ (unsquashList answers locals p).Leaves kind := by
  simp only [unsquashList, Script.leaves_bind, Script.leaves_lift, Script.result_lift, false_or]
  rintro ⟨squashPath, -, h⟩
  cases hRun : answers.unsquash p.dest squashPath with
  | ok contents => simp [hRun] at h
  | error e =>
      have hFailed : ¬ kind (.error
          [.lit "Failed to unsquash list:\n  ", p.dest.part, .lit "\n  ", .lit e.exc.text]) := by
        intro h
        exact absurd (hKind.error _ h) (by simp [Note.Annotated])
      by_cases hClass : e.exc.isa .calledProcessError = true
      · simp [hRun, hClass, Script.leaves_bind, hFailed] at h
      · simp [hRun, hClass] at h

theorem logged_unsquashList (h : (unsquashList answers locals p).result = .ok (path, last, failures))
    (hFailures : failures ≠ []) : (unsquashList answers locals p).Leaves Note.Logged := by
  simp only [unsquashList, Script.bind_ok, Script.result_lift] at h
  obtain ⟨squashPath, hPath, h⟩ := h
  simp only [unsquashList, Script.leaves_bind, Script.leaves_lift, Script.result_lift, false_or]
  refine ⟨squashPath, hPath, ?_⟩
  cases hRun : answers.unsquash p.dest squashPath with
  | ok contents =>
      rw [hRun] at h
      cases h
      exact absurd rfl hFailures
  | error e =>
      by_cases hClass : e.exc.isa .calledProcessError = true
      · simp [hClass, Script.leaves_bind, Note.Logged]
      · simp [hRun, hClass] at h

/-- What differs is annotated, and comes back as an error. -/
theorem compareContents_tells (h : (compareContents locals p path).result = .ok failures) :
    ((compareContents locals p path).Leaves kind → failures ≠ []) ∧
      (failures ≠ [] → (compareContents locals p path).Leaves Note.Logged) := by
  obtain ⟨r, c, hRes, hContents, hFailures⟩ := compareContents_failures h
  simp only [compareContents, hRes, hContents, bound, Script.leaves_bind, Script.leaves_lift,
    Script.result_lift, false_or, Except.ok.injEq, exists_eq_left']
  by_cases hSame : r.content = c
  · rw [if_pos hSame] at hFailures ⊢
    exact ⟨fun h => absurd h (Script.leaves_pure _), fun h => absurd hFailures h⟩
  · rw [if_neg hSame] at hFailures ⊢
    refine ⟨fun _ => by simp [hFailures], fun _ => ?_⟩
    simp [Script.leaves_bind, Note.Logged]

theorem checkPair_tells (hKind : Marks kind) (h : (checkPair answers locals p).result = .ok (last, failures)) :
    ((checkPair answers locals p).Leaves kind → failures ≠ []) ∧
      (failures ≠ [] → (checkPair answers locals p).Leaves Note.Logged) := by
  simp only [checkPair, Script.bind_ok] at h
  obtain ⟨⟨first, downloadErrors⟩, hDownload, ⟨squashPath, second, unsquashErrors⟩, hUnsquash,
    differences, hDiffer, hEnd⟩ := h
  obtain ⟨-, rfl⟩ := Prod.mk.inj (Except.ok.inj hEnd)
  obtain ⟨hMarked, hLogged⟩ : ((compareContents second p squashPath).Leaves kind → differences ≠ []) ∧
      (differences ≠ [] → (compareContents second p squashPath).Leaves Note.Logged) :=
    compareContents_tells hDiffer
  simp only [checkPair, Script.leaves_bind, leaves_downloadList hKind, leaves_unsquashList hKind, hDownload,
    hUnsquash, Except.ok.injEq, exists_eq_left', Script.leaves_pure, or_false, false_or, and_false,
    exists_false]
  refine ⟨fun h => by simp [hMarked h], fun hFailures => ?_⟩
  by_cases hFirst : downloadErrors = []
  · by_cases hSecond : unsquashErrors = []
    · exact .inr (.inr (hLogged (by simpa [hFirst, hSecond] using hFailures)))
    · exact .inr (.inl (logged_unsquashList hUnsquash hSecond))
  · exact .inl (logged_downloadList hDownload hFirst)

theorem checkPairs_tells (hKind : Marks kind) {answers : ℕ → PairAnswers} {pairs : List Pair}
    (h : (checkPairs answers locals pairs).result = .ok failures) :
    ((checkPairs answers locals pairs).Leaves kind → failures ≠ []) ∧
      (failures ≠ [] → (checkPairs answers locals pairs).Leaves Note.Logged) := by
  induction pairs generalizing answers locals failures with
  | nil =>
      cases h
      exact ⟨fun h => absurd h (Script.leaves_pure _), fun h => absurd rfl h⟩
  | cons p rest ih =>
      simp only [checkPairs, Script.bind_ok] at h
      obtain ⟨⟨last, part⟩, hPair, others, hOthers, hEnd⟩ := h
      obtain rfl := Except.ok.inj hEnd
      obtain ⟨hMarked, hLogged⟩ := checkPair_tells hKind hPair
      obtain ⟨hLaterMarked, hLaterLogged⟩ := ih hOthers
      simp only [checkPairs, Script.leaves_bind, hPair, hOthers, Except.ok.injEq, exists_eq_left',
        Script.leaves_pure, or_false]
      constructor
      · rintro (hFirst | hLater)
        · simp [hMarked hFirst]
        · simp [hLaterMarked hLater]
      · intro hFailures
        by_cases hFirst : part = []
        · exact .inr (hLaterLogged (by simpa [hFirst] using hFailures))
        · exact .inl (hLogged hFirst)

theorem checkPair_nil_iff (h : (checkPair answers locals p).result = .ok (last, failures)) :
    failures = [] ↔ due answers p = 0 := by
  obtain ⟨hFew, -⟩ := checkPair_reports h
  obtain ⟨rfl, r, c, hRes, hContents, hClasses, -⟩ := checkPair_failures h
  constructor
  · rintro rfl
    exact Nat.le_zero.mp hFew
  · intro hDue
    rw [due, List.length_eq_zero_iff, List.append_eq_nil_iff] at hDue
    obtain ⟨hNone, hSame⟩ := hDue
    rw [hNone, List.nil_append] at hClasses
    cases hListed : p.listed answers with
    | none => simp [failureClasses, hListed] at hNone
    | some l =>
        cases hExtracted : p.contents answers with
        | none => simp [failureClasses, hExtracted] at hNone
        | some d =>
            -- what is compared is what this pair got
            obtain rfl := Option.some.inj ((after_of_listed hListed).symm.trans hRes)
            obtain rfl := Option.some.inj ((after_of_contents hExtracted).symm.trans hContents)
            rw [hListed, hExtracted, differenceClasses] at hSame
            rw [hSame] at hClasses
            exact List.map_eq_nil_iff.mp hClasses

theorem checkPairs_nil_iff {answers : ℕ → PairAnswers} {pairs : List Pair}
    (h : (checkPairs answers locals pairs).result = .ok failures) :
    failures = [] ↔ ∀ n p, pairs[n]? = some p → due (answers n) p = 0 := by
  induction pairs generalizing answers locals failures with
  | nil =>
      cases h
      simp
  | cons p rest ih =>
      simp only [checkPairs, Script.bind_ok] at h
      obtain ⟨⟨last, part⟩, hPair, others, hOthers, hEnd⟩ := h
      obtain rfl := Except.ok.inj hEnd
      rw [List.append_eq_nil_iff, checkPair_nil_iff hPair, ih hOthers]
      constructor
      · rintro ⟨hFirst, hRest⟩ n q hq
        cases n with
        | zero =>
            cases hq
            exact hFirst
        | succ n => exact hRest n q hq
      · intro h
        exact ⟨h 0 p rfl, fun n q hq => h (n + 1) q hq⟩

end Pairs

section Paths

variable {kind : Note → Prop} {entry : Entry} {answers : Answers} {snaps : List Json} {failures : List Failure}

theorem checkPaths_nil_iff (h : (checkPaths answers snaps entry.checkPaths).result = .ok failures) :
    failures ≠ [] ↔ PathsFail entry answers snaps := by
  simp only [checkPaths, Script.bind_ok, Script.result_lift, fetchSnaps_ok] at h
  obtain ⟨_, ⟨-, rfl⟩, hPairs⟩ := h
  rw [Ne, checkPairs_nil_iff hPairs, PathsFail]
  push Not
  simp only [Nat.pos_iff_ne_zero]

theorem checkPaths_tells (hKind : Marks kind)
    (h : (checkPaths answers snaps entry.checkPaths).result = .ok failures) :
    ((checkPaths answers snaps entry.checkPaths).Leaves kind → failures ≠ []) ∧
      (failures ≠ [] → (checkPaths answers snaps entry.checkPaths).Leaves Note.Logged) := by
  simp only [checkPaths, Script.bind_ok, Script.result_lift] at h
  obtain ⟨fetched, hFetched, hPairs⟩ := h
  simpa only [checkPaths, Script.leaves_bind, Script.leaves_lift, Script.result_lift, hFetched, false_or,
    Except.ok.injEq, exists_eq_left'] using checkPairs_tells hKind hPairs

theorem leaves_comparePaths (hKind : Marks kind) (hReturns : (comparePaths entry answers snaps).result = .ok ())
    (h : (comparePaths entry answers snaps).Leaves kind) : PathsFail entry answers snaps := by
  rw [comparePaths] at h hReturns
  split at h
  · exact absurd h (Script.leaves_pure ())
  · rename_i hPaths
    rw [if_neg hPaths, Script.bind_ok] at hReturns
    obtain ⟨failures, hFailures, -⟩ := hReturns
    rw [← checkPaths_nil_iff hFailures]
    simp only [Script.leaves_bind, hFailures, Except.ok.injEq, exists_eq_left', Script.leaves_report] at h
    obtain hChecked | ⟨note, hNote, -⟩ := h
    · exact (checkPaths_tells hKind hFailures).1 hChecked
    · rintro rfl
      cases hNote

theorem tells_comparePaths (hKind : Tells kind) (hReturns : (comparePaths entry answers snaps).result = .ok ())
    (h : PathsFail entry answers snaps) : (comparePaths entry answers snaps).Leaves kind := by
  have hPaths : entry.checkPaths ≠ [] := by
    obtain ⟨n, p, hPair, -⟩ := h
    intro hNone
    have hNoPair : ∀ fetched, pairsOf fetched [] = [] := by simp [pairsOf, List.flatMap_eq_nil_iff]
    rw [hNone, hNoPair] at hPair
    cases hPair
  rw [comparePaths, if_neg hPaths, Script.bind_ok] at hReturns
  obtain ⟨failures, hFailures, -⟩ := hReturns
  rw [← checkPaths_nil_iff hFailures] at h
  rw [comparePaths, if_neg hPaths, Script.leaves_bind]
  rcases hKind with hError | hAppend
  · obtain ⟨note, hNote, hLogged⟩ := (checkPaths_tells marks_appended hFailures).2 h
    cases note with
    | error message => exact .inl ⟨_, hNote, hError message⟩
    | info | append => cases hLogged
  · obtain ⟨failure, hFailure⟩ := List.exists_mem_of_ne_nil _ h
    exact .inr ⟨failures, hFailures, _, List.mem_map_of_mem hFailure, hAppend failure⟩

end Paths

/-! ### The gates of an entry -/

section Gates

variable {kind : Note → Prop} {env : Environment} {entry : Entry} {answers : Answers} {recipe : Recipe}
  {mirVersion : Option String} {snaps : List Json} {sources : List Source} {ppa : String}

theorem leaves_currencyGate (hKind : Marks kind) (hSnaps : ∀ snap ∈ snaps, snap ≠ .null)
    (h : (currencyGate env entry answers recipe mirVersion snaps).Leaves kind) :
    NoticesDiffer env entry answers mirVersion snaps := by
  simp only [currencyGate, Script.leaves_bind, leaves_ask, ask_ok, allCurrent_ok hSnaps, false_or] at h
  obtain ⟨current, ⟨rfl, hCarry⟩ | ⟨rfl, -⟩, h⟩ := h
  · exact ⟨hCarry, leaves_usnGate hKind h⟩
  · exact absurd h (Script.leaves_pure ())

theorem tells_currencyGate (hKind : Tells kind) (hSnaps : ∀ snap ∈ snaps, snap ≠ .null)
    (h : NoticesDiffer env entry answers mirVersion snaps) :
    (currencyGate env entry answers recipe mirVersion snaps).Leaves kind := by
  obtain ⟨hCarry, hChecked, hAvailable, values, hNotices, hAny, hDiffer⟩ := h
  simp only [currencyGate, Script.leaves_bind, leaves_ask, ask_ok, allCurrent_ok hSnaps, false_or]
  exact ⟨true, .inl ⟨rfl, hCarry⟩, tells_usnGate hKind hChecked hAvailable hNotices hAny hDiffer⟩

theorem leaves_buildGate (hKind : Marks kind) (hSafe : Safe (buildGate env entry answers recipe mirVersion))
    (h : (buildGate env entry answers recipe mirVersion).Leaves kind) :
    SnapsFail env entry answers recipe mirVersion := by
  obtain ⟨pending, hPending, hRest⟩ := safe_buildGate.mp hSafe
  simp only [buildGate, Script.leaves_bind, leaves_ask, ask_ok, leaves_skipIf, skipIf_ok, leaves_call, call_ok,
    leaves_storeSnaps hKind, storeSnaps_ok, false_or] at h
  obtain ⟨pending', hPending', ⟨-, hInfo⟩ | ⟨_, hZero, processors, hProcessors, _, ⟨-, rfl⟩, h⟩⟩ := h
  · simp [hKind.info] at hInfo
  · obtain rfl := Except.ok.inj (hPending.symm.trans hPending')
    obtain rfl : pending = 0 := by simpa using hZero
    obtain ⟨processors', hProcessors', hReady, -⟩ := hRest rfl
    obtain rfl := Except.ok.inj (hProcessors.symm.trans hProcessors')
    refine ⟨hPending, processors, hProcessors, ?_⟩
    obtain hUniform | ⟨_, -, hPaths | ⟨_, -, hCurrency⟩⟩ := h
    · exact .inl (leaves_checkUniform hUniform)
    · exact .inr (.inl (leaves_comparePaths hKind (comparePaths_ok.mpr hReady.paths) hPaths))
    · exact .inr (.inr (leaves_currencyGate hKind offers_ne_null hCurrency))

theorem tells_buildGate (hKind : Tells kind) (hSafe : Safe (buildGate env entry answers recipe mirVersion))
    (h : SnapsFail env entry answers recipe mirVersion) :
    (buildGate env entry answers recipe mirVersion).Leaves kind := by
  obtain ⟨hPending, processors, hProcessors, h⟩ := h
  obtain ⟨pending, hPending', hRest⟩ := safe_buildGate.mp hSafe
  obtain rfl := Except.ok.inj (hPending.symm.trans hPending')
  obtain ⟨processors', hProcessors', hReady, -⟩ := hRest rfl
  obtain rfl := Except.ok.inj (hProcessors.symm.trans hProcessors')
  have hReturns := comparePaths_ok (u := ()).mpr hReady.paths
  simp only [buildGate, Script.leaves_bind, leaves_ask, ask_ok, leaves_skipIf, skipIf_ok, leaves_call, call_ok,
    storeSnaps_ok, false_or]
  refine ⟨0, hPending, .inr ⟨(), by simp, processors, hProcessors, .inr ⟨_, ⟨hReady.answered, rfl⟩, ?_⟩⟩⟩
  rcases h with hUniform | hPaths | hNotices
  · exact .inl (tells_checkUniform hKind hReady.readable hUniform)
  · exact .inr ⟨(), checkUniform_ok.mpr hReady.readable, .inl (tells_comparePaths hKind hReturns hPaths)⟩
  · exact .inr ⟨(), checkUniform_ok.mpr hReady.readable,
      .inr ⟨(), hReturns, tells_currencyGate hKind offers_ne_null hNotices⟩⟩

theorem latestSource_none : latestSource sources = none ↔ ¬ ∃ source, FirstValid sources source := by
  rw [← not_iff_not, not_not, ← Ne, Option.ne_none_iff_exists']
  exact exists_congr fun _ => latestSource_eq

theorem failedBuilds_nonempty {builds : List Build} :
    (!(failedBuilds builds).isEmpty) = true ↔ ∃ build ∈ builds, build.buildstate ∈ failedBuild := by
  rw [Bool.not_eq_true', List.isEmpty_eq_false_iff_exists_mem]
  simp [failedBuilds]

theorem leaves_sourceGate (hKind : Marks kind) (h : (sourceGate recipe ppa sources).Leaves kind) :
    BuildsFailed sources ∨ ¬ Versioned sources ∧ ∃ message, kind (.error message) := by
  simp only [sourceGate, Script.leaves_bind, leaves_ask, ask_ok, leaves_skipIf, skipIf_ok, leaves_orSkip,
    orSkip_ok, Script.leaves_pure, false_or, and_false, exists_false, or_false, latestSource_eq,
    failedBuilds_nonempty, List.mem_singleton, exists_eq_left, hKind.info] at h
  rcases h with ⟨hEmpty, hError⟩ | ⟨_, -, ⟨hNone, hError⟩ | ⟨source, hSource, ⟨hNone, hError⟩ |
    ⟨version, hVersion, _, hStatus, builds, hBuilds, processors, -, h⟩⟩⟩
  · refine .inr ⟨?_, _, hError⟩
    rintro ⟨source, version, ⟨before, after, hSources, -⟩, -⟩
    simp [hSources] at hEmpty
  · refine .inr ⟨?_, _, hError⟩
    rintro ⟨source, version, hSource, -⟩
    exact latestSource_none.mp hNone ⟨source, hSource⟩
  · refine .inr ⟨?_, _, hError⟩
    rintro ⟨source', version, hSource', hVersion⟩
    obtain rfl := Option.some.inj ((latestSource_eq.mpr hSource).symm.trans (latestSource_eq.mpr hSource'))
    rw [hNone] at hVersion
    cases hVersion
  · exact .inl ⟨source, version, builds, hSource, hVersion, by simpa using hStatus, hBuilds, h.1⟩

theorem tells_sourceGate (hKind : Tells kind) (hSafe : Safe (sourceGate recipe ppa sources))
    (h : BuildsFailed sources) : (sourceGate recipe ppa sources).Leaves kind := by
  obtain ⟨source, version, builds, hSource, hVersion, hStatus, hBuilds, build, hBuild, hFailed⟩ := h
  obtain ⟨builds', processors, hBuilds', hProcessors, -⟩ :=
    safe_sourceGate.mp hSafe source version hSource hVersion hStatus
  obtain rfl := Except.ok.inj (hBuilds.symm.trans hBuilds')
  have hNonempty : sources.isEmpty = false := by
    obtain ⟨before, after, rfl, -⟩ := hSource
    simp
  simp only [sourceGate, Script.leaves_bind, leaves_ask, ask_ok, leaves_skipIf, skipIf_ok, leaves_orSkip,
    orSkip_ok, false_or, latestSource_eq, failedBuilds_nonempty]
  refine .inr ⟨(), hNonempty, .inr ⟨source, hSource, .inr ⟨version, hVersion, .inr ⟨(), by simp [hStatus],
    builds, hBuilds, processors, hProcessors, .inl ⟨⟨build, hBuild, hFailed⟩, ?_⟩⟩⟩⟩⟩
  rcases hKind with hError | hAppend
  · refine ⟨_, List.mem_append_left _ (List.mem_map_of_mem (a := build) ?_), hError _⟩
    simpa [failedBuilds, hBuild] using hFailed
  · exact ⟨_, List.mem_append_right _ List.mem_cons_self, hAppend _⟩

/-- The gates on the sources annotate what they do not append. -/
theorem annotated_sourceGate (h : ¬ Versioned sources) :
    (sourceGate recipe ppa sources).Leaves Note.Annotated := by
  have hPrefix : ∀ rest : List Char, "::error::".toList <+: ("::error::".toList ++ rest) :=
    fun rest => List.prefix_append _ rest
  simp only [sourceGate, Script.leaves_bind, leaves_ask, ask_ok, leaves_skipIf, skipIf_ok, leaves_orSkip,
    orSkip_ok, false_or, latestSource_eq, List.mem_singleton, exists_eq_left]
  cases hEmpty : sources.isEmpty with
  | true => exact .inl ⟨rfl, hPrefix "Did not find ".toList⟩
  | false =>
      refine .inr ⟨(), rfl, ?_⟩
      cases hLatest : latestSource sources with
      | none => exact .inl ⟨rfl, hPrefix "Did not find a valid source for ".toList⟩
      | some source =>
          have hSource := latestSource_eq.mp hLatest
          refine .inr ⟨source, hSource, .inl ⟨?_, hPrefix "Failed to parse version '".toList⟩⟩
          cases hVersion : mirVersion source.sourcePackageVersion with
          | none => rfl
          | some version => exact absurd ⟨source, version, hSource, hVersion⟩ h

end Gates

/-! ### An entry -/

section Entry

variable {kind : Note → Prop} {env : Environment} {serie : Serie env} {entry : Entry} {answers : Answers}
  {recipe : Recipe} {mirVersion : Option String} {archive mainArchive : Archive} {gate : Gate Unit}

theorem leaves_endBody {body : Body Unit} {event : Event → Prop} :
    (endBody body >>= fun _ => pure serie).Leaves event ↔ body.Leaves event := by
  rw [Script.leaves_bind]
  constructor
  · rintro (hBody | ⟨_, -, hNone⟩)
    · exact hBody
    · exact absurd hNone (Script.leaves_pure serie)
  · exact .inl

theorem leaves_body (hKind : Marks kind) :
    (noted gate >>= fun _ => trigger entry recipe archive).Leaves (Event.OfNote kind) ↔ gate.Leaves kind := by
  rw [Script.leaves_bind, leaves_noted]
  constructor
  · rintro (hGate | ⟨_, -, h⟩)
    · exact hGate
    · rw [trigger, Script.leaves_bind, leaves_noted] at h
      rcases h with hReport | ⟨_, -, hAsk⟩
      · simp [Event.OfNote, hKind.info] at hReport
      · exact absurd hAsk leaves_ask
  · exact .inl

theorem BuildTolerated.safe (h : BuildTolerated env entry answers recipe mirVersion) :
    Safe (buildGate env entry answers recipe mirVersion) := by
  obtain ⟨pending, hPending, hRest⟩ := h
  rw [safe_buildGate]
  refine ⟨pending, hPending, fun hNone => ?_⟩
  obtain ⟨processors, hProcessors, hReady, hCurrency, -⟩ := hRest hNone
  exact ⟨processors, hProcessors, hReady, hCurrency⟩

/-- The archive, the series and the sources are the ones that the answers are about. -/
theorem Tolerated.answered {ppa : String} {series : Series} {sources : List Source}
    (h : Tolerated env entry answers) (hRecipe : answers.getByName entry.recipe = .ok recipe)
    (hPpa : entry.ppa = some ppa) (hArchive : answers.getPPAByName ppa = .ok archive)
    (hSeries : env.series (entry.release.getD defaultRelease) = .ok series)
    (hSources : archive.getPublishedSources sourceName series = .ok sources) :
    SourceAnswered recipe sources ∧ ∀ source version, FirstValid sources source →
      SourceReady recipe source version → BuildTolerated env entry answers recipe (some version) := by
  obtain ⟨archive', series', sources', hArchive', hSeries', hSources', hAnswered⟩ := h.backed recipe ppa hRecipe hPpa
  obtain rfl := Except.ok.inj (hArchive.symm.trans hArchive')
  obtain rfl := Except.ok.inj (hSeries.symm.trans hSeries')
  obtain rfl := Except.ok.inj (hSources.symm.trans hSources')
  exact hAnswered

theorem leaves_processFound (hKind : Marks kind) (hTolerated : Tolerated env entry answers)
    (hRecipe : answers.getByName entry.recipe = .ok recipe)
    (h : (processFound serie entry answers recipe mainArchive).Leaves (Event.OfNote kind)) :
    EntryFails env entry answers ∨ Unsourced env entry answers ∧ ∃ message, kind (.error message) := by
  rw [processFound] at h
  split at h
  · rename_i hPpa
    rw [leaves_endBody, leaves_body hKind] at h
    have hSnaps := leaves_buildGate hKind (hTolerated.plain recipe hRecipe hPpa).safe h
    exact .inl (.inr ⟨recipe, hRecipe, .inr ⟨none, hPpa, hSnaps⟩⟩)
  · rename_i ppa hPpa
    simp only [Script.leaves_bind (x := Script.lift _), Script.leaves_lift, Script.result_lift, false_or,
      leaves_endBody] at h
    obtain ⟨archive, hArchive, ⟨series, later⟩, hSeries, sources, hSources, h⟩ := h
    have hKnown := (getSeries_ok serie).mp ⟨later, hSeries⟩
    rw [Script.leaves_bind, leaves_noted] at h
    rcases h with hSource | ⟨version, hVersion, hBuild⟩
    · rcases leaves_sourceGate hKind hSource with hFailed | ⟨hVersioned, hError⟩
      · exact .inl (.inr ⟨recipe, hRecipe,
          .inl ⟨ppa, archive, series, sources, hPpa, hArchive, hKnown, hSources, hFailed⟩⟩)
      · exact .inr ⟨⟨recipe, ppa, archive, series, sources, hRecipe, hPpa, hArchive, hKnown, hSources,
          hVersioned⟩, hError⟩
    · obtain ⟨source, hValid, hReady⟩ := sourceGate_ok.mp hVersion
      have hBuildTolerated := (hTolerated.answered hRecipe hPpa hArchive hKnown hSources).2
      rw [leaves_body hKind] at hBuild
      have hSnaps := leaves_buildGate hKind (hBuildTolerated source version hValid hReady).safe hBuild
      exact .inl (.inr ⟨recipe, hRecipe, .inr ⟨some version,
        ⟨ppa, archive, series, sources, source, hPpa, hArchive, hKnown, hSources, hValid, hReady⟩, hSnaps⟩⟩)

/-- Only what is wrong with the entry, or with its sources, leaves anything. -/
theorem leaves_processEntry (hKind : Marks kind) (hReturns : (processEntry serie entry answers).Returns)
    (h : (processEntry serie entry answers).Leaves (Event.OfNote kind)) :
    EntryFails env entry answers ∨ Unsourced env entry answers ∧ ∃ message, kind (.error message) := by
  have hTolerated := (processEntry_returns serie).mp hReturns
  simp only [processEntry, Script.leaves_bind (x := noted _), Script.leaves_bind (x := Script.lift _),
    leaves_noted, Script.leaves_report, List.mem_singleton, exists_eq_left, hKind.info, Script.leaves_lift,
    noted_ok, Script.result_lift, false_or] at h
  obtain ⟨_, -, archive, -, hFind | ⟨found, hFound, h⟩⟩ := h
  · rw [findRecipe] at hFind
    split at hFind
    · exact absurd hFind (Script.leaves_pure _)
    · rename_i e hMissing
      exact .inl (.inl ⟨e, hMissing⟩)
  · cases found with
    | none => exact absurd h (Script.leaves_pure _)
    | some recipe => exact leaves_processFound hKind hTolerated (findRecipe_ok.mp hFound) h

/-- What the processing of a found recipe leaves, the entry leaves. -/
theorem processEntry_of_found (hTolerated : Tolerated env entry answers)
    (hRecipe : answers.getByName entry.recipe = .ok recipe)
    (h : ∀ mainArchive, (processFound serie entry answers recipe mainArchive).Leaves (Event.OfNote kind)) :
    (processEntry serie entry answers).Leaves (Event.OfNote kind) := by
  obtain ⟨mainArchive, hArchive⟩ := hTolerated.archive
  simp only [processEntry, Script.leaves_bind (x := noted _), Script.leaves_bind (x := Script.lift _), noted_ok,
    Script.result_lift]
  exact .inr ⟨(), rfl, .inr ⟨mainArchive, hArchive, .inr ⟨some recipe, findRecipe_ok.mpr hRecipe, h mainArchive⟩⟩⟩

/-- What the gates on the sources leave, the entry leaves. -/
theorem processFound_of_source {ppa : String} {series : Series} {sources : List Source}
    (hPpa : entry.ppa = some ppa) (hArchive : answers.getPPAByName ppa = .ok archive)
    (hSeries : env.series (entry.release.getD defaultRelease) = .ok series)
    (hSources : archive.getPublishedSources sourceName series = .ok sources)
    (h : (sourceGate recipe ppa sources).Leaves kind) :
    (processFound serie entry answers recipe mainArchive).Leaves (Event.OfNote kind) := by
  obtain ⟨later, hLater⟩ := (getSeries_ok serie).mpr hSeries
  rw [processFound, hPpa]
  simp only [Script.leaves_bind (x := Script.lift _), Script.leaves_lift, Script.result_lift, false_or,
    leaves_endBody]
  refine ⟨archive, hArchive, (series, later), hLater, sources, hSources, ?_⟩
  rw [Script.leaves_bind, leaves_noted]
  exact .inl h

/-- What the gates behind them leave, the entry leaves. -/
theorem processFound_of_build (hPassed : SourcePassed env entry answers recipe mirVersion)
    (h : (buildGate env entry answers recipe mirVersion).Leaves kind) :
    (processFound serie entry answers recipe mainArchive).Leaves (Event.OfNote kind) := by
  have hBody : ∀ archive, (noted (buildGate env entry answers recipe mirVersion) >>= fun _ =>
      trigger entry recipe archive).Leaves (Event.OfNote kind) := by
    intro archive
    rw [Script.leaves_bind, leaves_noted]
    exact .inl h
  cases mirVersion with
  | none =>
      rw [processFound, hPassed, leaves_endBody]
      exact hBody mainArchive
  | some version =>
      obtain ⟨ppa, archive, series, sources, source, hPpa, hArchive, hSeries, hSources, hValid, hReady⟩ := hPassed
      obtain ⟨later, hLater⟩ := (getSeries_ok serie).mpr hSeries
      rw [processFound, hPpa]
      simp only [Script.leaves_bind (x := Script.lift _), Script.leaves_lift, Script.result_lift, false_or,
        leaves_endBody]
      refine ⟨archive, hArchive, (series, later), hLater, sources, hSources, ?_⟩
      rw [Script.leaves_bind]
      exact .inr ⟨version, sourceGate_ok.mpr ⟨source, hValid, hReady⟩, hBody archive⟩

/-- What is wrong with an entry is logged, and appended. -/
theorem tells_processEntry (hKind : Tells kind) (hReturns : (processEntry serie entry answers).Returns)
    (h : EntryFails env entry answers) : (processEntry serie entry answers).Leaves (Event.OfNote kind) := by
  have hTolerated := (processEntry_returns serie).mp hReturns
  rcases h with ⟨e, hMissing⟩ | ⟨recipe, hRecipe, ⟨ppa, archive, series, sources, hPpa, hArchive, hSeries,
    hSources, hFailed⟩ | ⟨mirVersion, hPassed, hSnaps⟩⟩
  · obtain ⟨mainArchive, hArchive⟩ := hTolerated.archive
    simp only [processEntry, Script.leaves_bind (x := noted _), Script.leaves_bind (x := Script.lift _), noted_ok,
      Script.result_lift, leaves_noted]
    refine .inr ⟨(), rfl, .inr ⟨mainArchive, hArchive, .inl ?_⟩⟩
    rw [findRecipe, hMissing]
    simp only [hTolerated.missing e hMissing, if_true]
    rw [Script.leaves_bind]
    exact .inl (hKind.report _ _)
  · apply processEntry_of_found hTolerated hRecipe
    intro mainArchive
    have hAnswered := (hTolerated.answered hRecipe hPpa hArchive hSeries hSources).1
    exact processFound_of_source hPpa hArchive hSeries hSources
      (tells_sourceGate hKind (safe_sourceGate.mpr hAnswered) hFailed)
  · apply processEntry_of_found hTolerated hRecipe
    intro mainArchive
    refine processFound_of_build hPassed (tells_buildGate hKind ?_ hSnaps)
    cases mirVersion with
    | none => exact (hTolerated.plain recipe hRecipe hPassed).safe
    | some version =>
        obtain ⟨ppa, archive, series, sources, source, hPpa, hArchive, hSeries, hSources, hValid, hReady⟩ :=
          hPassed
        have hBuild := (hTolerated.answered hRecipe hPpa hArchive hSeries hSources).2
        exact (hBuild source version hValid hReady).safe

theorem annotated_processEntry (hReturns : (processEntry serie entry answers).Returns)
    (h : Unsourced env entry answers) :
    (processEntry serie entry answers).Leaves (Event.OfNote Note.Annotated) := by
  obtain ⟨recipe, ppa, archive, series, sources, hRecipe, hPpa, hArchive, hSeries, hSources, hVersioned⟩ := h
  apply processEntry_of_found ((processEntry_returns serie).mp hReturns) hRecipe
  intro mainArchive
  exact processFound_of_source hPpa hArchive hSeries hSources (annotated_sourceGate hVersioned)

end Entry

/-! ### The loop -/

section Loop

variable {env : Environment} {serie : Serie env} {entries : List (Entry × Answers)} {event : Event → Prop}

/-- The loop leaves what its entries leave. -/
theorem leaves_mainLoop (hReturns : (mainLoop serie entries).Returns) :
    (mainLoop serie entries).Leaves event ↔ ∃ x ∈ entries, (processEntry serie x.1 x.2).Leaves event := by
  induction entries generalizing serie with
  | nil => exact iff_of_false (Script.leaves_pure serie) (by simp)
  | cons first rest ih =>
      rw [mainLoop, Script.returns_bind] at hReturns
      obtain ⟨later, hFirst, hRest⟩ := hReturns
      have hAlike : ∀ x : Entry × Answers,
          (processEntry later x.1 x.2).Leaves event ↔ (processEntry serie x.1 x.2).Leaves event := by
        intro x
        rw [Script.Leaves, (processEntry_alike later serie x.1 x.2).1, Script.Leaves]
      simp only [mainLoop, Script.leaves_bind, hFirst, Except.ok.injEq, exists_eq_left', ih hRest, hAlike,
        List.exists_mem_cons_iff]

theorem exitStatus_eq_one {α : Type} (run : Script Event Exc α) :
    exitStatus run.events = 1 ↔ run.Leaves (Event.OfNote Note.Appended) := by
  have hFailure : ∀ event : Event, event.failure? = none ↔ ¬ event.OfNote Note.Appended := by
    intro event
    cases event with
    | requestBuilds => simp [Event.failure?, Event.OfNote]
    | note n => cases n <;> simp [Event.failure?, Event.OfNote, Note.Appended]
  simp only [exitStatus, List.isEmpty_iff, List.filterMap_eq_nil_iff]
  split
  · rename_i hNone
    refine iff_of_false (by simp) ?_
    rintro ⟨event, hEvent, hAppended⟩
    exact (hFailure event).mp (hNone event hEvent) hAppended
  · rename_i hSome
    refine iff_of_true rfl ?_
    push Not at hSome
    obtain ⟨event, hEvent, hAppended⟩ := hSome
    exact ⟨event, hEvent, of_not_not fun h => hAppended ((hFailure event).mpr h)⟩

theorem exitStatus_eq_zero {α : Type} (run : Script Event Exc α) :
    exitStatus run.events = 0 ↔ ¬ run.Leaves (Event.OfNote Note.Appended) := by
  rw [← exitStatus_eq_one, exitStatus]
  split <;> simp

/-- The status tells of the errors just when something appends an error wherever a source is missing or has
no version of Mir. -/
theorem status_tells_iff (hReturns : (mainLoop (Serie.empty : Serie env) entries).Returns) :
    StatusTells (mainLoop (Serie.empty : Serie env) entries) ↔
      ((∃ x ∈ entries, Unsourced env x.1 x.2) → ∃ x ∈ entries, EntryFails env x.1 x.2) := by
  have hEach : ∀ x ∈ entries, (processEntry (Serie.empty : Serie env) x.1 x.2).Returns := by
    intro x hx
    exact (processEntry_returns _).mpr ((mainLoop_returns _ entries).mp hReturns x hx)
  have hAppended : (∃ x ∈ entries, (processEntry (Serie.empty : Serie env) x.1 x.2).Leaves
      (Event.OfNote Note.Appended)) ↔ ∃ x ∈ entries, EntryFails env x.1 x.2 := by
    constructor
    · rintro ⟨x, hx, h⟩
      refine ⟨x, hx, (leaves_processEntry marks_appended (hEach x hx) h).resolve_right ?_⟩
      rintro ⟨-, message, hNever⟩
      exact hNever
    · rintro ⟨x, hx, h⟩
      exact ⟨x, hx, tells_processEntry (.inr fun _ => trivial) (hEach x hx) h⟩
  rw [StatusTells, exitStatus_eq_one, exitStatus_eq_zero, leaves_mainLoop hReturns, leaves_mainLoop hReturns,
    leaves_mainLoop hReturns, hAppended]
  constructor
  · rintro ⟨h, -⟩ ⟨x, hx, hUnsourced⟩
    exact h ⟨x, hx, annotated_processEntry (hEach x hx) hUnsourced⟩
  · intro h
    constructor
    · rintro ⟨x, hx, hAnnotated⟩
      rcases leaves_processEntry marks_annotated (hEach x hx) hAnnotated with hFails | ⟨hUnsourced, -⟩
      · exact ⟨x, hx, hFails⟩
      · exact h ⟨x, hx, hUnsourced⟩
    · rintro hQuiet ⟨x, hx, hFails⟩
      exact hQuiet ⟨x, hx, tells_processEntry (.inl fun _ => trivial) (hEach x hx) hFails⟩

end Loop

/-- Everything is answered, and the ppa has these sources. -/
def answeredFrom (sources : List Source) : Answers :=
  { answeredWith errorContent with
    getPPAByName := fun _ => .ok { rcArchive with getPublishedSources := fun _ _ => .ok sources } }

/-- `status_tells_iff` for a recipe whose builds are there, behind one whose ppa is empty. -/
theorem status_tells_iff_empty :
    StatusTells (mainLoop (Serie.empty : Serie withoutTools)
        [(betaEntry, answeredFrom []), (betaEntry, answeredWith errorContent)]) ↔
      ((∃ x ∈ [(betaEntry, answeredFrom []), (betaEntry, answeredWith errorContent)],
          Unsourced withoutTools x.1 x.2) →
        ∃ x ∈ [(betaEntry, answeredFrom []), (betaEntry, answeredWith errorContent)],
          EntryFails withoutTools x.1 x.2) :=
  status_tells_iff (by decide +kernel)

/-- The ppa has no source of Mir: an error is annotated, and the run succeeds. -/
theorem green_without_source :
    (mainLoop (Serie.empty : Serie withoutTools) [(betaEntry, answeredFrom [])]).Returns ∧
      (mainLoop (Serie.empty : Serie withoutTools) [(betaEntry, answeredFrom [])]).Leaves
        (Event.OfNote Note.Annotated) ∧
      exitStatus (mainLoop (Serie.empty : Serie withoutTools) [(betaEntry, answeredFrom [])]).events = 0 := by
  refine ⟨by decide +kernel, ?_, by decide +kernel⟩
  refine ⟨.note (.error [.lit "::error::Did not find ", .lit sourceName, .lit " in ", .lit team, .lit "/",
    .lit "rc"]), by decide +kernel, ?_⟩
  exact List.prefix_append _ "Did not find ".toList

end MirCi.ProcessSnaps
