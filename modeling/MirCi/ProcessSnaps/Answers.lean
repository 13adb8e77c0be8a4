import MirCi.Python.Json
import MirCi.Semantics.Script

/-! What the main loop of `process_snaps.py` works on: the entries of `SNAPS`, the
answers of Launchpad, the store and the tools, and the trace the loop leaves. An
answer that is an exception is one that the call raises. -/
namespace MirCi.ProcessSnaps

open Python Semantics

abbrev Bytes := List UInt8

/-- A piece of a message. Values in it are not rendered. -/
inductive Part where
  | lit (text : String)
  | value (value : Json)
  | bytes (content : Bytes)
  | table (rows : List (Json × Json))
  | file (packageName revision : Json)
  | diff (before after : String)
  deriving DecidableEq

abbrev Text := List Part

/-- A member of the list `errors`. -/
structure Failure where
  cls : ExcClass
  message : Text
  deriving DecidableEq

/-- What is logged, and what is appended to `errors`. -/
inductive Note where
  | info (message : Text)
  | error (message : Text)
  | append (failure : Failure)
  deriving DecidableEq

/-- What the loop does to the outside. -/
inductive Event where
  | note (note : Note)
  | requestBuilds (recipe archive pocket : String) (channels : List (String × String))
  deriving DecidableEq

def Event.isRequest : Event → Bool
  | .note _ => false
  | .requestBuilds .. => true

/-- A function that the loop calls. -/
abbrev Call := Script Note Exc

/-- Why the body of the loop stops before its end: a `continue` or an exception. -/
inductive Halt where
  | skipped
  | raised (e : Exc)

/-- A part of the body that requests no builds. -/
abbrev Gate := Script Note Halt

abbrev Body := Script Event Halt

section Gate

variable {α β : Type}

/-- An exception of a function leaves the loop. -/
def call (x : Call α) : Gate α := { events := x.events, result := x.result.mapError .raised }

/-- The answer of a service. -/
def ask (answer : Except Exc α) : Gate α := call (Script.lift answer)

/-- `continue` after these events if the condition holds. -/
def skipIf (condition : Bool) (events : List Note) : Gate Unit :=
  if condition then { events, result := .error .skipped } else pure ()

/-- `continue` after these events if there is no value. -/
def orSkip (value : Option α) (events : List Note) : Gate α :=
  match value with
  | some a => pure a
  | none => { events, result := .error .skipped }

/-- No exception leaves the loop. -/
def Safe {Event : Type} (x : Script Event Halt α) : Prop := x.Ends (· = .skipped)

variable {x : Call α} {answer : Except Exc α} {condition : Bool} {events : List Note}
  {value : Option α}

@[simp] theorem call_ok {a : α} : (call x).result = .ok a ↔ x.result = .ok a := by
  cases h : x.result <;> simp [call, h, Except.mapError]

@[simp] theorem ask_ok {a : α} : (ask answer).result = .ok a ↔ answer = .ok a := by
  rw [ask, call_ok, Script.result_lift]

@[simp] theorem skipIf_ok {u : Unit} :
    (skipIf condition events).result = .ok u ↔ condition = false := by
  cases condition <;> simp [skipIf]

@[simp] theorem orSkip_ok {a : α} : (orSkip value events).result = .ok a ↔ value = some a := by
  cases value <;> simp [orSkip]

section Safe

variable {f : α → Gate β} {next : Unit → Gate β}

theorem safe_bind {Event : Type} {x : Script Event Halt α} {f : α → Script Event Halt β} :
    Safe (x >>= f) ↔ Safe x ∧ ∀ a, x.result = .ok a → Safe (f a) := Script.ends_bind

theorem safe_pure (a : α) : Safe (pure a : Gate α) := Script.ends_pure a

theorem safe_call : Safe (call x) ↔ x.Returns := by
  cases hResult : x.result <;>
    simp [Safe, Script.Ends, Script.Returns, call, hResult, Except.mapError]

theorem safe_skipIf : Safe (skipIf condition events) := by
  cases condition <;> simp [Safe, skipIf, Script.Ends]

theorem safe_orSkip : Safe (orSkip value events) := by
  cases value <;> simp [Safe, orSkip, Script.Ends]

theorem safe_call_bind : Safe (call x >>= f) ↔ ∃ a, x.result = .ok a ∧ Safe (f a) := by
  rw [safe_bind, safe_call, Script.Returns]
  simp only [call_ok]
  cases x.result <;> simp

theorem safe_ask_bind : Safe (ask answer >>= f) ↔ ∃ a, answer = .ok a ∧ Safe (f a) :=
  safe_call_bind

theorem safe_skipIf_bind :
    Safe (skipIf condition events >>= next) ↔ (condition = false → Safe (next ())) := by
  rw [safe_bind]
  simp only [safe_skipIf, skipIf_ok, true_and]
  exact ⟨fun h => h (), fun h _ => h⟩

theorem safe_orSkip_bind :
    Safe (orSkip value events >>= f) ↔ ∀ a, value = some a → Safe (f a) := by
  rw [safe_bind]
  simp [safe_orSkip]

theorem safe_report_bind : Safe (Script.report events >>= next) ↔ Safe (next ()) := by
  rw [safe_bind]
  constructor
  · intro h
    exact h.2 () rfl
  · intro h
    refine ⟨?_, fun _ _ => h⟩
    intro e hError
    cases hError

end Safe

end Gate

def noted {ε α : Type} (x : Script Note ε α) : Script Event ε α := x.mapEvents .note

/-- The number of builds a program requests. -/
def requests {ε α : Type} (x : Script Event ε α) : ℕ := x.count Event.isRequest

@[simp] theorem noted_ok {ε α : Type} (x : Script Note ε α) : (noted x).result = x.result := rfl

section Requests

variable {ε α β : Type} {x : Script Event ε α} {f : α → Script Event ε β}

@[simp] theorem requests_noted (x : Script Note ε α) : requests (noted x) = 0 :=
  Script.count_mapEvents (fun _ => rfl) x

@[simp] theorem requests_lift (answer : Except ε α) :
    requests (Script.lift answer : Script Event ε α) = 0 := rfl

@[simp] theorem requests_pure (a : α) : requests (pure a : Script Event ε α) = 0 := rfl

theorem requests_bind_pos (hFirst : requests x = 0) :
    0 < requests (x >>= f) ↔ ∃ a, x.result = .ok a ∧ 0 < requests (f a) :=
  Script.count_bind_pos hFirst

theorem requests_bind_left (hNext : ∀ a, requests (f a) = 0) : requests (x >>= f) = requests x :=
  Script.count_bind_left hNext

theorem requests_bind_le {n : ℕ} (hFirst : requests x = 0) (hNext : ∀ a, requests (f a) ≤ n) :
    requests (x >>= f) ≤ n := Script.count_bind_le hFirst hNext

end Requests

/-! ### Entries -/

inductive Accessor where
  | index (n : ℕ)
  | key (name : String)

/-- A part of a format string: a text, or a field with subscripts. -/
inductive Piece where
  | text (s : String)
  | field (name : String) (accessors : List Accessor)

abbrev Template := List Piece

/-- A channel of a snap in `SNAPS`. -/
structure Entry where
  snap : String
  channel : String
  recipe : String
  ppa : Option String := none
  release : Option String := none
  channels : List (String × String) := []
  nonUniform : Bool := false
  checkUsns : Bool := true
  checkPaths : List (Template × Template) := []

/-! ### Answers -/

structure Build where
  archTag : String
  buildstate : String
  webLink : String

structure Binary where
  archTag : String
  status : String

structure Source where
  displayName : String
  sourcePackageVersion : String
  status : String
  getBuilds : Except Exc (List Build)
  getPublishedBinaries : Except Exc (List Binary)

structure Series where
  name : String
  deriving DecidableEq

structure Archive where
  webLink : String
  getPublishedSources : (sourceName : String) → Series → Except Exc (List Source)

structure Recipe where
  name : String
  description : Option String
  webLink : String
  autoBuildPocket : String
  processors : Except Exc (List String)
  pendingBuilds : Except Exc ℕ
  requestBuilds : Except Exc Unit

structure StoreRequest where
  url : String
  headers : List (String × String)
  deriving DecidableEq

/-- The name of a downloaded snap, `{package_name}_{revision}.snap`. -/
structure Dest where
  packageName : Json
  revision : Json
  deriving DecidableEq

/-- What `fetch_url` meets: whether the file is there, the status of the response,
and what writing it comes to. -/
structure Fetch where
  destExists : Except Exc Bool
  response : Except Exc ℕ
  written : Except Exc Unit

/-- A response to the request for a list; `statusError` is what
`raise_for_status` raises. -/
structure ListReply where
  url : String
  statusError : Option String
  content : Bytes
  deriving DecidableEq

/-- What `subprocess.check_output` raises; a `CalledProcessError` has the output. -/
structure CommandError where
  exc : Exc
  output : Bytes := []

/-- The answers to the two calls that `check_paths` makes for a snap and a path. -/
structure PairAnswers where
  get : Text → Except Exc ListReply
  unsquash : Dest → Text → Except CommandError Bytes

/-- The answers the loop gets while it processes an entry. -/
structure Answers where
  mainArchive : Except Exc Archive
  getByName : String → Except Exc Recipe
  getPPAByName : String → Except Exc Archive
  storeGet : StoreRequest → Except Exc Bytes
  pathFetches : ℕ → Fetch
  pairs : ℕ → PairAnswers
  noticeFetches : ℕ → Fetch
  notices : List Dest → Except CommandError Bytes

/-- What does not depend on the entry: the series of Ubuntu, `json.loads`, and
whether `review-tools` is there. -/
structure Environment where
  series : String → Except Exc Series
  loads : Bytes → Except Exc Json
  checkNotices : Bool

end MirCi.ProcessSnaps
