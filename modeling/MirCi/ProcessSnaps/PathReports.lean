import MirCi.ProcessSnaps.CheckPaths

/-! What `check_paths` reports of a pair, and when it is about that pair. -/
namespace MirCi.ProcessSnaps

open Python Semantics

/-- The list a pair gets, unless its request fails. -/
def Pair.listed (answers : PairAnswers) (p : Pair) : Option ListReply :=
  (p.response answers).filter fun res => res.statusError = none

/-- What a failed download and a failed extraction contribute. -/
def failureClasses (listed : Option ListReply) (contents : Option Bytes) : List ExcClass :=
  (if listed = none then [.runtimeError] else []) ++ if contents = none then [.runtimeError] else []

/-- What a difference contributes, if there are two contents to compare. -/
def differenceClasses : Option ListReply → Option Bytes → List ExcClass
  | some res, some contents => if res.content = contents then [] else [.valueError]
  | _, _ => []

/-- The message about a difference. -/
def pathsDiffer (p : Pair) (squashPath : Text) (res : ListReply) : Text :=
  [.lit "Paths differ: ", p.dest.part, .lit ":"] ++ squashPath ++ [.lit " vs. ", .lit res.url]

/-- The errors of a pair are about what it got, and nothing else. -/
structure Contributes (answers : PairAnswers) (p : Pair) (errors : List Failure) : Prop where
  classes : errors.map Failure.cls = failureClasses (p.listed answers) (p.contents answers) ++
    differenceClasses (p.listed answers) (p.contents answers)
  message : ∀ failure ∈ errors, failure.cls = .valueError → ∃ squashPath res,
    formatMap p.snap p.squash = .ok squashPath ∧ p.listed answers = some res ∧
      failure.message = pathsDiffer p squashPath res

/-- The call returns, and its errors are what the pairs contribute one after the other. -/
def Reported (answers : ℕ → PairAnswers) (pairs : List Pair) (errors : List Failure) : Prop :=
  ∃ contributions : List (List Failure), errors = contributions.flatten ∧
    contributions.length = pairs.length ∧
    ∀ n p part, pairs[n]? = some p → contributions[n]? = some part → Contributes (answers n) p part

/-- When a download or an extraction fails, `res` and `snapped_contents` have to hold equal
contents; a difference has to be one of texts. -/
def Reportable (answers : PairAnswers) (p : Pair) (res : Option ListReply) (contents : Option Bytes) :
    Prop :=
  ∃ r c, res = some r ∧ contents = some c ∧
    (r.content = c ∨ (p.listed answers).isSome = true ∧ (p.contents answers).isSome = true ∧
      (∃ text, decode r.content = .ok text) ∧ ∃ text, decode c = .ok text)

def PairsReportable (answers : ℕ → PairAnswers) (locals : Locals) (pairs : List Pair) : Prop :=
  ∀ n p, pairs[n]? = some p → PairTolerated (answers n) p ∧
    Reportable (answers n) p
      (latest locals.res (fun k => pairs[k]?.bind (Pair.response (answers k))) (n + 1))
      (latest locals.snappedContents (fun k => pairs[k]?.bind (Pair.contents (answers k))) (n + 1))

structure PathsReportable (answers : Answers) (snaps : List Json) (paths : List (Template × Template)) :
    Prop where
  fetchable : Fetchable answers.pathFetches snaps
  pairs : PairsReportable answers.pairs {} (pairsOf (snaps.map fun s => (s, destOf s)) paths)

/-! ### One pair -/

section Pair

variable {answers : PairAnswers} {locals last : Locals} {p : Pair} {failures : List Failure}

theorem failedDownload_failures {text : String}
    (h : (failedDownload locals text).result = .ok (last, failures)) :
    ∃ message, failures = [⟨.runtimeError, message⟩] := by
  simp only [failedDownload, Script.bind_ok, Script.result_pure] at h
  obtain ⟨res, -, _, -, hLast⟩ := h
  cases hLast
  exact ⟨_, rfl⟩

theorem downloadList_failures (h : (downloadList answers locals p).result = .ok (last, failures)) :
    (p.listed answers = none → ∃ message, failures = [⟨.runtimeError, message⟩]) ∧
      (p.listed answers ≠ none → failures = []) := by
  simp only [downloadList, Script.bind_ok, Script.result_lift] at h
  obtain ⟨url, hUrl, h⟩ := h
  cases hGet : answers.get url with
  | ok res =>
      have hResponse : p.response answers = some res := by
        simp [Pair.response, hUrl, hGet, Except.toOption]
      rw [hGet] at h
      cases hStatus : res.statusError with
      | none =>
          simp only [hStatus, Script.result_pure, Except.ok.injEq, Prod.mk.injEq] at h
          simp [Pair.listed, hResponse, hStatus, h.2.symm]
      | some text =>
          simp only [hStatus] at h
          simp [Pair.listed, hResponse, hStatus, failedDownload_failures h]
  | error e =>
      have hResponse : p.response answers = none := by
        simp [Pair.response, hUrl, hGet, Except.toOption]
      rw [hGet] at h
      by_cases hClass : e.isa .requestException = true
      · simp only [hClass, if_true] at h
        simp [Pair.listed, hResponse, failedDownload_failures h]
      · simp [hClass] at h

theorem unsquashList_failures {path : Text}
    (h : (unsquashList answers locals p).result = .ok (path, last, failures)) :
    formatMap p.snap p.squash = .ok path ∧
      (p.contents answers = none → ∃ message, failures = [⟨.runtimeError, message⟩]) ∧
      (p.contents answers ≠ none → failures = []) := by
  simp only [unsquashList, Script.bind_ok, Script.result_lift] at h
  obtain ⟨squashPath, hPath, h⟩ := h
  cases hRun : answers.unsquash p.dest squashPath with
  | ok contents =>
      have hContents : p.contents answers = some contents := by
        simp [Pair.contents, hPath, hRun, Except.toOption]
      rw [hRun] at h
      cases h
      exact ⟨hPath, by simp [hContents], fun _ => rfl⟩
  | error e =>
      have hContents : p.contents answers = none := by
        simp [Pair.contents, hPath, hRun, Except.toOption]
      rw [hRun] at h
      by_cases hClass : e.exc.isa .calledProcessError = true
      · simp only [hClass, if_true, Script.bind_ok, Script.result_pure] at h
        obtain ⟨_, -, hLast⟩ := h
        cases hLast
        exact ⟨hPath, fun _ => ⟨_, rfl⟩, fun h => absurd hContents h⟩
      · simp [hClass] at h

theorem compareContents_failures {path : Text}
    (h : (compareContents locals p path).result = .ok failures) :
    ∃ r c, locals.res = some r ∧ locals.snappedContents = some c ∧
      failures = if r.content = c then [] else [⟨.valueError, pathsDiffer p path r⟩] := by
  simp only [compareContents, Script.bind_ok, Script.result_lift, bound_ok] at h
  obtain ⟨r, hRes, c, hContents, h⟩ := h
  refine ⟨r, c, hRes, hContents, ?_⟩
  by_cases hSame : r.content = c
  · rw [if_pos hSame] at h ⊢
    cases h
    rfl
  · simp only [if_neg hSame, Script.bind_ok, Script.result_pure] at h
    obtain ⟨_, -, _, -, _, -, _, -, hLast⟩ := h
    rw [if_neg hSame]
    exact (Except.ok.inj hLast).symm

theorem after_of_listed {r : ListReply} (h : p.listed answers = some r) :
    (locals.after answers p).res = some r := by
  obtain ⟨hResponse, -⟩ := Option.filter_eq_some_iff.mp h
  simp [Locals.after, hResponse]

theorem after_of_contents {c : Bytes} (h : p.contents answers = some c) :
    (locals.after answers p).snappedContents = some c := by
  simp [Locals.after, h]

theorem exists_failure_ite {q : Prop} [Decidable q]
    (hFails : q → ∃ message, failures = [⟨.runtimeError, message⟩])
    (hElse : ¬q → failures = []) : ∃ message, failures = if q then [⟨.runtimeError, message⟩] else [] := by
  by_cases h : q
  · simpa [h] using hFails h
  · exact ⟨[], by simp [h, hElse h]⟩

theorem valueError_notMem_failureClasses (listed : Option ListReply) (contents : Option Bytes) :
    .valueError ∉ failureClasses listed contents := by
  simp only [failureClasses, List.mem_append]
  rintro (h | h) <;> split at h <;> simp at h

theorem differenceClasses_eq_nil {listed : Option ListReply} {contents : Option Bytes}
    (h : ¬(listed.isSome = true ∧ contents.isSome = true)) : differenceClasses listed contents = [] := by
  cases listed with
  | none => rfl
  | some l =>
      cases contents with
      | none => rfl
      | some d => exact absurd ⟨rfl, rfl⟩ h

/-- After the failures comes a difference exactly when `res` and `snapped_contents` differ. -/
theorem checkPair_failures (h : (checkPair answers locals p).result = .ok (last, failures)) :
    last = locals.after answers p ∧ ∃ r c, last.res = some r ∧ last.snappedContents = some c ∧
      failures.map Failure.cls = failureClasses (p.listed answers) (p.contents answers) ++
        (if r.content = c then [] else [.valueError]) ∧
      ∀ failure ∈ failures, failure.cls = .valueError → ∃ squashPath,
        formatMap p.snap p.squash = .ok squashPath ∧ failure.message = pathsDiffer p squashPath r := by
  have hLast := (checkPair_ok.mp ⟨failures, h⟩).1
  simp only [checkPair, Script.bind_ok] at h
  obtain ⟨⟨first, downloadErrors⟩, hDownload, ⟨path, second, unsquashErrors⟩, hUnsquash,
    differences, hDiffer, hEnd⟩ := h
  obtain ⟨hNotListed, hListed⟩ := downloadList_failures hDownload
  obtain ⟨hPath, hNotExtracted, hExtracted⟩ := unsquashList_failures hUnsquash
  obtain ⟨r, c, hRes, hContents, hDifferences⟩ := compareContents_failures hDiffer
  obtain ⟨rfl, rfl⟩ := Prod.mk.inj (Except.ok.inj hEnd)
  obtain ⟨downloadMessage, rfl⟩ := exists_failure_ite hNotListed hListed
  obtain ⟨unsquashMessage, rfl⟩ := exists_failure_ite hNotExtracted hExtracted
  subst hDifferences
  refine ⟨hLast, r, c, hRes, hContents, ?_, ?_⟩
  · simp only [List.map_append, failureClasses]
    congr 1
    · congr 1
      · split <;> rfl
      · split <;> rfl
    · split <;> rfl
  · intro failure hMember hClass
    have hDifference : failure = ⟨.valueError, pathsDiffer p path r⟩ := by
      simp only [List.mem_append] at hMember
      rcases hMember with (hMember | hMember) | hMember
      · split at hMember <;> simp_all
      · split at hMember <;> simp_all
      · split at hMember <;> simp_all
    exact ⟨path, hPath, by rw [hDifference]⟩

/-- How many errors a pair should contribute. -/
def due (answers : PairAnswers) (p : Pair) : ℕ :=
  (failureClasses (p.listed answers) (p.contents answers) ++
    differenceClasses (p.listed answers) (p.contents answers)).length

theorem Contributes.length (h : Contributes answers p failures) : failures.length = due answers p := by
  rw [due, ← h.classes, List.length_map]

/-- A pair contributes at least what it should, and exactly that when it can be reported. -/
theorem checkPair_reports (h : (checkPair answers locals p).result = .ok (last, failures)) :
    due answers p ≤ failures.length ∧
      (failures.length = due answers p ↔ Reportable answers p last.res last.snappedContents) ∧
      (failures.length = due answers p → Contributes answers p failures) := by
  obtain ⟨rfl, r, c, hRes, hContents, hClasses, hMessage⟩ := checkPair_failures h
  obtain ⟨r', c', hRes', hContents', hDecodes⟩ := (checkPair_ok.mp ⟨failures, h⟩).2.2
  obtain rfl := Option.some.inj (hRes.symm.trans hRes')
  obtain rfl := Option.some.inj (hContents.symm.trans hContents')
  have hLength := congrArg List.length hClasses
  rw [List.length_map, List.length_append] at hLength
  by_cases hObtained : (p.listed answers).isSome = true ∧ (p.contents answers).isSome = true
  · -- what is compared is what this pair got
    obtain ⟨l, hListed⟩ := Option.isSome_iff_exists.mp hObtained.1
    obtain ⟨d, hExtracted⟩ := Option.isSome_iff_exists.mp hObtained.2
    obtain rfl := Option.some.inj ((after_of_listed hListed).symm.trans hRes)
    obtain rfl := Option.some.inj ((after_of_contents hExtracted).symm.trans hContents)
    have hDue : failures.length = due answers p := by
      rw [due, List.length_append, hLength, hListed, hExtracted]
      rfl
    refine ⟨hDue.ge, ⟨fun _ => ⟨l, d, hRes, hContents, ?_⟩, fun _ => hDue⟩, fun _ => ⟨?_, ?_⟩⟩
    · exact hDecodes.imp_right fun hTexts => ⟨hObtained.1, hObtained.2, hTexts⟩
    · rw [hClasses, hListed, hExtracted]
      rfl
    · intro failure hMember hClass
      obtain ⟨path, hPath, hText⟩ := hMessage failure hMember hClass
      exact ⟨path, l, hPath, hListed, hText⟩
  · have hNoDifference := differenceClasses_eq_nil hObtained
    have hDue : due answers p = (failureClasses (p.listed answers) (p.contents answers)).length := by
      rw [due, hNoDifference, List.append_nil]
    by_cases hSame : r.content = c
    · rw [if_pos hSame, List.length_nil] at hLength
      rw [if_pos hSame] at hClasses
      have hExact : failures.length = due answers p := by omega
      refine ⟨hExact.ge, ⟨fun _ => ⟨r, c, hRes, hContents, Or.inl hSame⟩, fun _ => hExact⟩,
        fun _ => ⟨by rw [hClasses, hNoDifference], ?_⟩⟩
      intro failure hMember hClass
      have hNever : ExcClass.valueError ∈ failures.map Failure.cls := List.mem_map.mpr ⟨failure, hMember, hClass⟩
      rw [hClasses, List.append_nil] at hNever
      exact absurd hNever (valueError_notMem_failureClasses _ _)
    · rw [if_neg hSame, List.length_singleton] at hLength
      refine ⟨by omega, ⟨fun h => by omega, fun hReportable => ?_⟩, fun h => by omega⟩
      obtain ⟨r', c', hRes', hContents', hEither⟩ := hReportable
      obtain rfl := Option.some.inj (hRes.symm.trans hRes')
      obtain rfl := Option.some.inj (hContents.symm.trans hContents')
      rcases hEither with hEqual | ⟨hListed, hExtracted, -⟩
      · exact absurd hEqual hSame
      · exact absurd ⟨hListed, hExtracted⟩ hObtained

end Pair

/-! ### All pairs -/

section Pairs

variable {answers : ℕ → PairAnswers} {locals : Locals} {p : Pair} {pairs rest : List Pair}
  {errors : List Failure}

theorem Reportable.comparable {answers : PairAnswers} {res : Option ListReply} {contents : Option Bytes}
    (h : Reportable answers p res contents) : Comparable res contents := by
  obtain ⟨r, c, hRes, hContents, hEither⟩ := h
  exact ⟨r, c, hRes, hContents, hEither.imp_right fun hTexts => hTexts.2.2⟩

theorem pairsReportable_cons : PairsReportable answers locals (p :: rest) ↔
    (PairTolerated (answers 0) p ∧ Reportable (answers 0) p (locals.after (answers 0) p).res
      (locals.after (answers 0) p).snappedContents) ∧
    PairsReportable (fun n => answers (n + 1)) (locals.after (answers 0) p) rest :=
  pairs_cons fun answers q res contents => PairTolerated answers q ∧ Reportable answers q res contents

theorem PairsReportable.tolerated (h : PairsReportable answers locals pairs) :
    PairsTolerated answers locals pairs := fun n p hp => ⟨(h n p hp).1, (h n p hp).2.comparable⟩

/-- How many errors the pairs should contribute. -/
def dueAll : (ℕ → PairAnswers) → List Pair → ℕ
  | _, [] => 0
  | answers, p :: rest => due (answers 0) p + dueAll (fun n => answers (n + 1)) rest

theorem Reported.length (h : Reported answers pairs errors) : errors.length = dueAll answers pairs := by
  obtain ⟨contributions, rfl, hLength, hEach⟩ := h
  induction pairs generalizing answers contributions with
  | nil =>
      obtain rfl := List.eq_nil_of_length_eq_zero hLength
      rfl
  | cons p rest ih =>
      cases contributions with
      | nil => cases hLength
      | cons part parts =>
          rw [List.flatten_cons, List.length_append, dueAll, (hEach 0 p part rfl rfl).length]
          have hTail : parts.flatten.length = dueAll (fun n => answers (n + 1)) rest :=
            ih parts (by simpa using hLength) fun n q part hq hpart => hEach (n + 1) q part hq hpart
          rw [hTail]

theorem Reported.cons {part others : List Failure} (hFirst : Contributes (answers 0) p part)
    (h : Reported (fun n => answers (n + 1)) rest others) :
    Reported answers (p :: rest) (part ++ others) := by
  obtain ⟨contributions, rfl, hLength, hEach⟩ := h
  refine ⟨part :: contributions, rfl, by simp [hLength], fun n q part' hq hpart => ?_⟩
  cases n with
  | zero =>
      cases hq
      cases hpart
      exact hFirst
  | succ n => exact hEach n q part' hq hpart

/-- The errors are never too few, and they are the right ones when they are not too many. -/
theorem checkPairs_reports (h : (checkPairs answers locals pairs).result = .ok errors) :
    dueAll answers pairs ≤ errors.length ∧
      (errors.length = dueAll answers pairs ↔ PairsReportable answers locals pairs) ∧
      (errors.length = dueAll answers pairs → Reported answers pairs errors) := by
  induction pairs generalizing answers locals errors with
  | nil =>
      cases h
      exact ⟨le_rfl, ⟨fun _ n p hp => (by cases hp), fun _ => rfl⟩,
        fun _ => ⟨[], rfl, rfl, fun n p part hp => by cases hp⟩⟩
  | cons p rest ih =>
      simp only [checkPairs, Script.bind_ok] at h
      obtain ⟨⟨last, part⟩, hPair, others, hOthers, hEnd⟩ := h
      obtain rfl := Except.ok.inj hEnd
      obtain ⟨rfl, hTolerated, -⟩ := checkPair_ok.mp ⟨part, hPair⟩
      obtain ⟨hFew, hExact, hContributes⟩ := checkPair_reports hPair
      obtain ⟨hFewOthers, hExactOthers, hReported⟩ := ih hOthers
      have hLength : (part ++ others).length = part.length + others.length := List.length_append
      -- neither part can make up for the other
      have hBoth : (part ++ others).length = dueAll answers (p :: rest) ↔
          part.length = due (answers 0) p ∧ others.length = dueAll (fun n => answers (n + 1)) rest := by
        rw [hLength, dueAll]
        omega
      refine ⟨by rw [hLength, dueAll]; omega, ?_, fun h => ?_⟩
      · rw [hBoth, hExact, hExactOthers, pairsReportable_cons]
        simp [hTolerated]
      · obtain ⟨hPart, hRest⟩ := hBoth.mp h
        exact (hReported hRest).cons (hContributes hPart)

end Pairs

/-- Every pair is reported on its own exactly when the snaps can be fetched, every pair is
tolerated, and no pair's failure leaves different contents to compare. -/
theorem checkPaths_reported_iff {answers : Answers} {snaps : List Json}
    {paths : List (Template × Template)} :
    (∃ errors, (checkPaths answers snaps paths).result = .ok errors ∧
      Reported answers.pairs (pairsOf (snaps.map fun s => (s, destOf s)) paths) errors) ↔
      PathsReportable answers snaps paths := by
  simp only [checkPaths, Script.bind_ok, Script.result_lift, fetchSnaps_ok]
  constructor
  · rintro ⟨errors, ⟨_, ⟨hFetchable, rfl⟩, hPairs⟩, hReported⟩
    exact ⟨hFetchable, (checkPairs_reports hPairs).2.1.mp hReported.length⟩
  · rintro ⟨hFetchable, hReportable⟩
    obtain ⟨errors, hPairs⟩ := checkPairs_returns.mpr hReportable.tolerated
    obtain ⟨-, hExact, hReported⟩ := checkPairs_reports hPairs
    exact ⟨errors, ⟨_, ⟨hFetchable, rfl⟩, hPairs⟩, hReported (hExact.mpr hReportable)⟩

/-- Answers in which every snap is downloaded already and only the pairs matter. -/
def pairsOnly (pairs : PairAnswers) : Answers where
  mainArchive := .error { cls := .exception }
  getByName _ := .error { cls := .notFound }
  getPPAByName _ := .error { cls := .notFound }
  storeGet _ := .error { cls := .requestException }
  pathFetches _ := { destExists := .ok true, response := .ok 200, written := .ok () }
  pairs _ := pairs
  noticeFetches _ := { destExists := .ok true, response := .ok 200, written := .ok () }
  notices _ := .ok []

def namedSnap : Json :=
  .obj [("package_name", .str "mir-test-tools"), ("revision", .str "1"), ("download_url", .str "mir.snap")]

/-- The list of a single snap is not answered, or answered with an error page. -/
theorem path_reports_fail :
    (checkPaths (pairsOnly ⟨fun _ => .error { cls := .requestException }, fun _ _ => .ok [97]⟩) [namedSnap]
        [([.text "list"], [.text "url"])]).result = .error { cls := .unboundLocalError, text :=
          "cannot access local variable 'res' where it is not associated with a value" } ∧
      (checkPaths (pairsOnly ⟨fun _ => .ok ⟨"url", some "404", [98]⟩, fun _ _ => .ok [97]⟩) [namedSnap]
        [([.text "list"], [.text "url"])]).result.map (fun errors => errors.map Failure.cls) =
          .ok [.runtimeError, .valueError] ∧
      ¬∃ errors, (checkPaths (pairsOnly ⟨fun _ => .ok ⟨"url", some "404", [98]⟩, fun _ _ => .ok [97]⟩)
          [namedSnap] [([.text "list"], [.text "url"])]).result = .ok errors ∧
        Reported (fun _ => ⟨fun _ => .ok ⟨"url", some "404", [98]⟩, fun _ _ => .ok [97]⟩)
          (pairsOf [(namedSnap, destOf namedSnap)] [([.text "list"], [.text "url"])]) errors := by
  have hClasses : (checkPaths (pairsOnly ⟨fun _ => .ok ⟨"url", some "404", [98]⟩, fun _ _ => .ok [97]⟩)
      [namedSnap] [([.text "list"], [.text "url"])]).result.map (fun errors => errors.map Failure.cls) =
        .ok [.runtimeError, .valueError] := by decide +kernel
  have hDue : dueAll (fun _ => ⟨fun _ => .ok ⟨"url", some "404", [98]⟩, fun _ _ => .ok [97]⟩)
      (pairsOf [(namedSnap, destOf namedSnap)] [([.text "list"], [.text "url"])]) = 1 := by decide +kernel
  refine ⟨by decide +kernel, hClasses, ?_⟩
  rintro ⟨errors, hRun, hReported⟩
  rw [hRun] at hClasses
  have hLength := congrArg List.length (Except.ok.inj hClasses)
  rw [List.length_map, hReported.length, hDue] at hLength
  simp at hLength

end MirCi.ProcessSnaps
