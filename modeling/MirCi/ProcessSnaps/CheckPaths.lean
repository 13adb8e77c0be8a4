import MirCi.ProcessSnaps.Store

/-! `check_paths`: a file in each snap against a list on the web. The names `res` and
`snapped_contents` keep what an earlier pair left in them when a download or an
extraction fails. -/
namespace MirCi.ProcessSnaps

open Python Semantics

def Accessor.apply : Accessor → Json → Except Exc Json
  | .index n, a => a.index n
  | .key name, a => a.getItem name

def subscript : List Accessor → Json → Except Exc Json
  | [], a => .ok a
  | accessor :: rest, a => do
      let value ← accessor.apply a
      subscript rest value

/-- `template.format_map(snap)`. -/
def formatMap (snap : Json) : Template → Except Exc Text
  | [] => .ok []
  | .text s :: rest => do
      let others ← formatMap snap rest
      .ok (.lit s :: others)
  | .field name accessors :: rest => do
      let member ← snap.getItem name
      let value ← subscript accessors member
      let others ← formatMap snap rest
      .ok (.value value :: others)

/-- The names that outlive a pair. -/
structure Locals where
  res : Option ListReply := none
  snappedContents : Option Bytes := none

/-- Reading a name. -/
def bound {α : Type} (name : String) (value : Option α) : Except Exc α :=
  match value with
  | some a => .ok a
  | none => .error { cls := .unboundLocalError
                     text := "cannot access local variable '" ++ name ++
                       "' where it is not associated with a value" }

/-- A snap, its file, and an item of the paths. -/
structure Pair where
  snap : Json
  dest : Dest
  squash : Template
  list : Template

def Dest.part (dest : Dest) : Part := .file dest.packageName dest.revision

/-- The handler reads the address of the response, also when there is none. -/
def failedDownload (locals : Locals) (text : String) : Call (Locals × List Failure) := do
  let res ← Script.lift (bound "res" locals.res)
  let message : Text := [.lit "Failed to download list:\n  ", .lit res.url, .lit "\n  ", .lit text]
  Script.report [.error message]
  pure (locals, [{ cls := .runtimeError, message }])

def downloadList (answers : PairAnswers) (locals : Locals) (p : Pair) :
    Call (Locals × List Failure) := do
  let url ← Script.lift (formatMap p.snap p.list)
  match answers.get url with
  | .ok res =>
      match res.statusError with
      | none => pure ({ locals with res := some res }, [])
      | some text => failedDownload { locals with res := some res } text
  | .error e =>
      if e.isa .requestException then failedDownload locals e.text
      else Script.raise e

def unsquashList (answers : PairAnswers) (locals : Locals) (p : Pair) :
    Call (Text × Locals × List Failure) := do
  let squashPath ← Script.lift (formatMap p.snap p.squash)
  match answers.unsquash p.dest squashPath with
  | .ok contents => pure (squashPath, { locals with snappedContents := some contents }, [])
  | .error e =>
      if e.exc.isa .calledProcessError then do
        let message : Text :=
          [.lit "Failed to unsquash list:\n  ", p.dest.part, .lit "\n  ", .lit e.exc.text]
        Script.report [.error message]
        pure (squashPath, locals, [{ cls := .runtimeError, message }])
      else Script.raise e.exc

def compareContents (locals : Locals) (p : Pair) (squashPath : Text) : Call (List Failure) := do
  let res ← Script.lift (bound "res" locals.res)
  let snappedContents ← Script.lift (bound "snapped_contents" locals.snappedContents)
  if res.content = snappedContents then pure []
  else do
    let message : Text := [.lit "Paths differ: ", p.dest.part, .lit ":"] ++ squashPath ++
      [.lit " vs. ", .lit res.url]
    Script.report [.error (.lit "::error::" :: message)]
    let listed ← Script.lift (decode res.content)
    let snapped ← Script.lift (decode snappedContents)
    Script.report [.error [.diff listed snapped]]
    pure [{ cls := .valueError, message }]

def checkPair (answers : PairAnswers) (locals : Locals) (p : Pair) :
    Call (Locals × List Failure) := do
  let (locals, downloadErrors) ← downloadList answers locals p
  let (squashPath, locals, unsquashErrors) ← unsquashList answers locals p
  let differences ← compareContents locals p squashPath
  pure (locals, downloadErrors ++ unsquashErrors ++ differences)

def checkPairs (answers : ℕ → PairAnswers) (locals : Locals) : List Pair → Call (List Failure)
  | [] => pure []
  | p :: rest => do
      let (locals, errors) ← checkPair (answers 0) locals p
      let others ← checkPairs (fun n => answers (n + 1)) locals rest
      pure (errors ++ others)

/-- The pairs in the order of the two loops. -/
def pairsOf (fetched : List (Json × Dest)) (paths : List (Template × Template)) : List Pair :=
  fetched.flatMap fun (snap, dest) => paths.map fun (squash, list) => { snap, dest, squash, list }

def checkPaths (answers : Answers) (snaps : List Json) (paths : List (Template × Template)) :
    Call (List Failure) := do
  let fetched ← Script.lift (fetchSnaps answers.pathFetches snaps)
  checkPairs answers.pairs {} (pairsOf fetched paths)

/-! ### What the answers have to be -/

/-- The response that a pair gets, if it gets one. -/
def Pair.response (answers : PairAnswers) (p : Pair) : Option ListReply :=
  (formatMap p.snap p.list).toOption.bind fun url => (answers.get url).toOption

/-- What a pair extracts from its snap, if anything. -/
def Pair.contents (answers : PairAnswers) (p : Pair) : Option Bytes :=
  (formatMap p.snap p.squash).toOption.bind fun path => (answers.unsquash p.dest path).toOption

/-- The templates of a pair fit the snap, and its two calls raise nothing that is not
handled. -/
structure PairTolerated (answers : PairAnswers) (p : Pair) : Prop where
  list : ∃ url, formatMap p.snap p.list = .ok url ∧
    ∀ e, answers.get url = .error e → e.isa .requestException = true
  squash : ∃ path, formatMap p.snap p.squash = .ok path ∧
    ∀ e, answers.unsquash p.dest path = .error e → e.exc.isa .calledProcessError = true

/-- There are a list and a file to compare, and they are texts if they differ. -/
def Comparable (res : Option ListReply) (contents : Option Bytes) : Prop :=
  ∃ r c, res = some r ∧ contents = some c ∧
    (r.content = c ∨ (∃ text, decode r.content = .ok text) ∧ ∃ text, decode c = .ok text)

/-- The last of the first `n` values that is there. -/
def latest {α : Type} (start : Option α) (f : ℕ → Option α) : ℕ → Option α
  | 0 => start
  | n + 1 => (f n).or (latest start f n)

/-- Each pair is tolerated, and by then some pair has got a list and some pair a file;
the last ones are comparable. -/
def PairsTolerated (answers : ℕ → PairAnswers) (locals : Locals) (pairs : List Pair) : Prop :=
  ∀ n p, pairs[n]? = some p → PairTolerated (answers n) p ∧
    Comparable (latest locals.res (fun k => pairs[k]?.bind (Pair.response (answers k))) (n + 1))
      (latest locals.snappedContents (fun k => pairs[k]?.bind (Pair.contents (answers k))) (n + 1))

structure PathsTolerated (answers : Answers) (snaps : List Json)
    (paths : List (Template × Template)) : Prop where
  fetchable : Fetchable answers.pathFetches snaps
  pairs : PairsTolerated answers.pairs {} (pairsOf (snaps.map fun s => (s, destOf s)) paths)

theorem bound_ok {α : Type} {name : String} {value : Option α} {a : α} :
    bound name value = .ok a ↔ value = some a := by
  cases value <;> simp [bound]

theorem latest_succ {α : Type} (start : Option α) (f : ℕ → Option α) (n : ℕ) :
    latest start f (n + 1) = latest ((f 0).or start) (fun k => f (k + 1)) n := by
  induction n with
  | zero => rfl
  | succ n ih =>
      rw [latest, ih]
      rfl

/-- The names after a pair. -/
def Locals.after (locals : Locals) (answers : PairAnswers) (p : Pair) : Locals where
  res := (p.response answers).or locals.res
  snappedContents := (p.contents answers).or locals.snappedContents

theorem failedDownload_ok {locals last : Locals} {text : String} :
    (∃ failures, (failedDownload locals text).result = .ok (last, failures)) ↔
      last = locals ∧ ∃ res, locals.res = some res := by
  simp only [failedDownload, Script.bind_ok, Script.result_lift, Script.result_report,
    Script.result_pure, bound_ok]
  constructor
  · rintro ⟨_, res, hRes, _, -, ⟨⟩⟩
    exact ⟨rfl, res, hRes⟩
  · rintro ⟨rfl, res, hRes⟩
    exact ⟨_, res, hRes, (), trivial, rfl⟩

theorem downloadList_ok {answers : PairAnswers} {locals last : Locals} {p : Pair} :
    (∃ failures, (downloadList answers locals p).result = .ok (last, failures)) ↔
      last = { locals with res := (p.response answers).or locals.res } ∧
        (∃ res, (p.response answers).or locals.res = some res) ∧
        ∃ url, formatMap p.snap p.list = .ok url ∧
          ∀ e, answers.get url = .error e → e.isa .requestException = true := by
  cases hUrl : formatMap p.snap p.list with
  | error e => simp [downloadList, hUrl, Script.bind_ok]
  | ok url =>
      simp only [downloadList, Script.bind_ok, Script.result_lift, hUrl]
      cases hGet : answers.get url with
      | ok res =>
          have hResponse : p.response answers = some res := by
            simp [Pair.response, hUrl, hGet, Except.toOption]
          cases hStatus : res.statusError with
          | none =>
              simp [hGet, hStatus, hResponse]
              exact eq_comm
          | some text => simp [hGet, hStatus, hResponse, failedDownload_ok]
      | error e =>
          have hResponse : p.response answers = none := by
            simp [Pair.response, hUrl, hGet, Except.toOption]
          by_cases hClass : e.isa .requestException = true
          · simp [hGet, hClass, hResponse, failedDownload_ok]
          · simp [hGet, hClass]

theorem unsquashList_ok {answers : PairAnswers} {locals last : Locals} {p : Pair} :
    (∃ path failures, (unsquashList answers locals p).result = .ok (path, last, failures)) ↔
      last = { locals with snappedContents := (p.contents answers).or locals.snappedContents } ∧
        ∃ path, formatMap p.snap p.squash = .ok path ∧
          ∀ e, answers.unsquash p.dest path = .error e →
            e.exc.isa .calledProcessError = true := by
  cases hPath : formatMap p.snap p.squash with
  | error e => simp [unsquashList, hPath, Script.bind_ok]
  | ok path =>
      simp only [unsquashList, Script.bind_ok, Script.result_lift, hPath]
      cases hRun : answers.unsquash p.dest path with
      | ok contents =>
          have hContents : p.contents answers = some contents := by
            simp [Pair.contents, hPath, hRun, Except.toOption]
          simp [hRun, hContents]
          exact eq_comm
      | error e =>
          have hContents : p.contents answers = none := by
            simp [Pair.contents, hPath, hRun, Except.toOption]
          by_cases hClass : e.exc.isa .calledProcessError = true
          · simp [hRun, hClass, hContents, Script.bind_ok]
            exact eq_comm
          · simp [hRun, hClass]

theorem compareContents_returns {locals : Locals} (p : Pair) (squashPath : Text) :
    (compareContents locals p squashPath).Returns ↔
      Comparable locals.res locals.snappedContents := by
  simp only [compareContents, Script.returns_bind, Script.result_lift, bound_ok, Comparable]
  apply exists_congr
  intro r
  rw [← exists_and_left]
  apply exists_congr
  intro c
  apply and_congr_right
  intro _
  apply and_congr_right
  intro _
  by_cases hEq : r.content = c
  · simp [hEq]
  · simp [hEq, Script.returns_bind]

/-- A pair ends without an exception exactly when it is tolerated and what `res` and
`snapped_contents` then hold can be compared. -/
theorem checkPair_ok {answers : PairAnswers} {locals last : Locals} {p : Pair} :
    (∃ failures, (checkPair answers locals p).result = .ok (last, failures)) ↔
      last = locals.after answers p ∧ PairTolerated answers p ∧
        Comparable last.res last.snappedContents := by
  simp only [checkPair, Script.bind_ok]
  constructor
  · rintro ⟨failures, ⟨first, downloadErrors⟩, hDownload, ⟨path, second, unsquashErrors⟩, hUnsquash,
      differences, hDiffer, hLast⟩
    obtain ⟨rfl, -, hList⟩ := downloadList_ok.mp ⟨_, hDownload⟩
    obtain ⟨rfl, hSquash⟩ := unsquashList_ok.mp ⟨_, _, hUnsquash⟩
    cases hLast
    exact ⟨rfl, ⟨hList, hSquash⟩, (compareContents_returns p path).mp ⟨_, hDiffer⟩⟩
  · rintro ⟨rfl, ⟨hList, hSquash⟩, hComparable⟩
    obtain ⟨r, c, hRes, -⟩ := id hComparable
    obtain ⟨downloadErrors, hDownload⟩ := downloadList_ok.mpr ⟨rfl, ⟨r, hRes⟩, hList⟩
    obtain ⟨path, unsquashErrors, hUnsquash⟩ := unsquashList_ok.mpr ⟨rfl, hSquash⟩
    obtain ⟨differences, hDiffer⟩ :=
      (compareContents_returns p path).mpr hComparable
    exact ⟨_, _, hDownload, _, hUnsquash, _, hDiffer, rfl⟩

/-- What is asked of each pair, its answers and the contents obtained by then. -/
theorem pairs_cons (Q : PairAnswers → Pair → Option ListReply → Option Bytes → Prop) {answers : ℕ → PairAnswers}
    {locals : Locals} {p : Pair} {rest : List Pair} :
    (∀ n q, (p :: rest)[n]? = some q → Q (answers n) q
        (latest locals.res (fun k => (p :: rest)[k]?.bind (Pair.response (answers k))) (n + 1))
        (latest locals.snappedContents (fun k => (p :: rest)[k]?.bind (Pair.contents (answers k))) (n + 1))) ↔
      Q (answers 0) p (locals.after (answers 0) p).res (locals.after (answers 0) p).snappedContents ∧
        ∀ n q, rest[n]? = some q → Q (answers (n + 1)) q
          (latest (locals.after (answers 0) p).res (fun k => rest[k]?.bind (Pair.response (answers (k + 1))))
            (n + 1))
          (latest (locals.after (answers 0) p).snappedContents
            (fun k => rest[k]?.bind (Pair.contents (answers (k + 1)))) (n + 1)) := by
  constructor
  · intro h
    refine ⟨h 0 p rfl, fun n q hq => ?_⟩
    have hLater := h (n + 1) q hq
    rw [latest_succ locals.res, latest_succ locals.snappedContents] at hLater
    exact hLater
  · rintro ⟨hFirst, hRest⟩ n q hq
    cases n with
    | zero =>
        cases hq
        exact hFirst
    | succ n =>
        have hLater := hRest n q hq
        rw [latest_succ locals.res, latest_succ locals.snappedContents]
        exact hLater

theorem pairsTolerated_cons {answers : ℕ → PairAnswers} {locals : Locals} {p : Pair}
    {rest : List Pair} :
    PairsTolerated answers locals (p :: rest) ↔
      (PairTolerated (answers 0) p ∧ Comparable (locals.after (answers 0) p).res
        (locals.after (answers 0) p).snappedContents) ∧
      PairsTolerated (fun n => answers (n + 1)) (locals.after (answers 0) p) rest :=
  pairs_cons fun answers q res contents => PairTolerated answers q ∧ Comparable res contents

theorem checkPairs_returns {answers : ℕ → PairAnswers} {locals : Locals} {pairs : List Pair} :
    (checkPairs answers locals pairs).Returns ↔ PairsTolerated answers locals pairs := by
  induction pairs generalizing answers locals with
  | nil => simp [checkPairs, Script.Returns, PairsTolerated]
  | cons p rest ih =>
      rw [pairsTolerated_cons, checkPairs, Script.returns_bind]
      constructor
      · rintro ⟨⟨last, failures⟩, hPair, hRest⟩
        obtain ⟨rfl, hFirst⟩ := checkPair_ok.mp ⟨_, hPair⟩
        obtain ⟨others, hOthers, -⟩ := Script.returns_bind.mp hRest
        exact ⟨hFirst, ih.mp ⟨others, hOthers⟩⟩
      · rintro ⟨hFirst, hRest⟩
        obtain ⟨failures, hPair⟩ := checkPair_ok.mpr ⟨rfl, hFirst⟩
        obtain ⟨others, hOthers⟩ := ih.mpr hRest
        exact ⟨_, hPair, Script.returns_bind.mpr ⟨others, hOthers, _, rfl⟩⟩

theorem checkPaths_returns {answers : Answers} {snaps : List Json}
    {paths : List (Template × Template)} :
    (checkPaths answers snaps paths).Returns ↔ PathsTolerated answers snaps paths := by
  simp only [checkPaths, Script.returns_bind, Script.result_lift, fetchSnaps_ok, checkPairs_returns]
  constructor
  · rintro ⟨_, ⟨hFetchable, rfl⟩, hPairs⟩
    exact ⟨hFetchable, hPairs⟩
  · rintro ⟨hFetchable, hPairs⟩
    exact ⟨_, ⟨hFetchable, rfl⟩, hPairs⟩

end MirCi.ProcessSnaps
