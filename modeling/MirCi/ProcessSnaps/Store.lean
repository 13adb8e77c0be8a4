import MirCi.ProcessSnaps.Answers
import MirCi.Python.Dict
import MirCi.Python.Text

/-! The store's side of the loop: looking up the snaps of a channel, collecting their
versions, downloading them, and asking `review-tools` about them. -/
namespace MirCi.ProcessSnaps

open Python Semantics

/-- `STORE_URL` and `STORE_HEADERS`, formatted. -/
def storeRequest (processor snap channel : String) : StoreRequest where
  url := "https://api.snapcraft.io/api/v1/snaps/details/" ++ snap ++ "?channel=" ++ channel
  headers := [("X-Ubuntu-Series", "16"), ("X-Ubuntu-Architecture", processor)]

/-- A response that is not JSON is logged and gives `None`. -/
def getStoreSnap (env : Environment) (answers : Answers) (processor snap channel : String) :
    Call Json := do
  let content ← Script.lift (answers.storeGet (storeRequest processor snap channel))
  match env.loads content with
  | .ok result => pure result
  | .error e =>
      if e.isa .jsonDecodeError then do
        Script.report [.error [.lit "Could not parse store response: ", .bytes content]]
        pure .null
      else Script.raise e

/-- `store_snaps`: the generator asks for each processor in turn, the filter drops
what has the result `error`. -/
def storeSnaps (env : Environment) (entry : Entry) (answers : Answers) :
    List String → Call (List Json)
  | [] => pure []
  | processor :: rest => do
      let snap ← getStoreSnap env answers processor entry.snap entry.channel
      let result ← Script.lift (snap.get "result")
      let others ← storeSnaps env entry answers rest
      pure (if result.eq (.str "error") then others else snap :: others)

/-- The members of the set `versions`, in the order they are added. -/
def versions : List Json → Except Exc (List Json)
  | [] => .ok []
  | snap :: rest => do
      let version ← snap.getItem "version"
      version.hash
      let others ← versions rest
      .ok (version :: others)

/-- `len(versions)`. -/
def distinct (values : List Json) : ℕ := (values.map Json.norm).dedup.length

/-- `versions_dict`, filled into a dictionary. -/
def versionsDict (table : Dict Json Json) : List Json → Except Exc (Dict Json Json)
  | [] => .ok table
  | snap :: rest => do
      let architecture ← snap.getItem "architecture"
      let key ← architecture.index 0
      let version ← snap.getItem "version"
      key.hash
      versionsDict (table.set key.norm version) rest

structure FetchEntry where
  context : Json
  dest : Dest
  uri : Json

/-- The tuples that `fetch_snaps` makes for `fetch_url`. -/
def fetchEntries : List Json → Except Exc (List FetchEntry)
  | [] => .ok []
  | snap :: rest => do
      let packageName ← snap.getItem "package_name"
      let revision ← snap.getItem "revision"
      let uri ← snap.getItem "download_url"
      let others ← fetchEntries rest
      .ok ({ context := snap, dest := { packageName, revision }, uri } :: others)

/-- A response with another status than 200 is not written. -/
def fetchUrl (fetch : Fetch) (entry : FetchEntry) : Except Exc (Json × Dest) := do
  let destExists ← fetch.destExists
  if destExists then .ok (entry.context, entry.dest)
  else do
    let statusCode ← fetch.response
    if statusCode = 200 then do
      fetch.written
      .ok (entry.context, entry.dest)
    else .ok (entry.context, entry.dest)

/-- `Pool.map`, which passes on an exception of a worker. -/
def fetchAll (fetches : ℕ → Fetch) (n : ℕ) : List FetchEntry → Except Exc (List (Json × Dest))
  | [] => .ok []
  | entry :: rest => do
      let fetched ← fetchUrl (fetches n) entry
      let others ← fetchAll fetches (n + 1) rest
      .ok (fetched :: others)

def fetchSnaps (fetches : ℕ → Fetch) (snaps : List Json) : Except Exc (List (Json × Dest)) := do
  let entries ← fetchEntries snaps
  fetchAll fetches 0 entries

/-- `bytes.decode()`. -/
def decode (content : Bytes) : Except Exc String :=
  match decodeUtf8 content with
  | some text => .ok text
  | none => .error { cls := .unicodeDecodeError, text := "'utf-8' codec can't decode bytes" }

/-- Only a `CalledProcessError` is handled, and gives `None`. -/
def checkSnapNotices (env : Environment) (answers : Answers) (snaps : List Json) : Call Json := do
  let fetched ← Script.lift (fetchSnaps answers.noticeFetches snaps)
  match answers.notices (fetched.map Prod.snd) with
  | .ok notices => do
      let _ ← Script.lift (decode notices)
      Script.lift (env.loads notices)
  | .error e =>
      if e.exc.isa .calledProcessError then do
        Script.report [.error [.lit "Failed to check notices:\n", .bytes e.output]]
        pure .null
      else Script.raise e.exc

/-! ### What the answers have to be -/

/-- The store's answer for a processor, if it is JSON. -/
def storeAnswer (env : Environment) (entry : Entry) (answers : Answers) (processor : String) :
    Option Json :=
  match answers.storeGet (storeRequest processor entry.snap entry.channel) with
  | .ok content => (env.loads content).toOption
  | .error _ => none

/-- The store answered with an object. -/
def StoreAnswered (env : Environment) (entry : Entry) (answers : Answers) (processor : String) :
    Prop :=
  ∃ members, storeAnswer env entry answers processor = some (.obj members)

/-- An answer that is a snap: an object whose result is not `error`. -/
def isOffer : Json → Bool
  | .obj members => !((members.lookup "result").getD .null).eq (.str "error")
  | _ => false

/-- The snaps the store offers in the channel of the entry. -/
def offers (env : Environment) (entry : Entry) (answers : Answers) (processors : List String) :
    List Json :=
  (processors.filterMap (storeAnswer env entry answers)).filter isOffer

/-- A snap has a version and a first architecture that can be members of a
dictionary. -/
structure Readable (snap : Json) : Prop where
  version : ∃ version, snap.getItem "version" = .ok version ∧ version.hashable = true
  architecture : ∃ architecture key, snap.getItem "architecture" = .ok architecture ∧
    architecture.index 0 = .ok key ∧ key.hashable = true

/-- A snap names its package, its revision and where to download it. -/
structure Downloadable (snap : Json) : Prop where
  packageName : ∃ packageName, snap.getItem "package_name" = .ok packageName
  revision : ∃ revision, snap.getItem "revision" = .ok revision
  uri : ∃ uri, snap.getItem "download_url" = .ok uri

/-- The file a snap is downloaded to. -/
def destOf (snap : Json) : Dest where
  packageName := (snap.getItem "package_name").toOption.getD .null
  revision := (snap.getItem "revision").toOption.getD .null

/-- Nothing goes wrong with a download, or the file is there already. -/
def Fetch.Done (fetch : Fetch) : Prop :=
  fetch.destExists = .ok true ∨ fetch.destExists = .ok false ∧
    ∃ statusCode, fetch.response = .ok statusCode ∧ (statusCode = 200 → fetch.written = .ok ())

/-- The snaps can be downloaded. -/
structure Fetchable (fetches : ℕ → Fetch) (snaps : List Json) : Prop where
  named : ∀ snap ∈ snaps, Downloadable snap
  done : ∀ n < snaps.length, (fetches n).Done

section Lookup

variable {env : Environment} {entry : Entry} {answers : Answers}

/-- Only an answer that is an object gets past the filter. -/
theorem getStoreSnap_get {processor : String} {snap result : Json} :
    (getStoreSnap env answers processor entry.snap entry.channel).result = .ok snap ∧
        snap.get "result" = .ok result ↔
      storeAnswer env entry answers processor = some snap ∧
        ∃ members, snap = .obj members ∧ result = (members.lookup "result").getD .null := by
  rw [getStoreSnap, Json.get_ok]
  simp only [Script.bind_ok, Script.result_lift, storeAnswer]
  cases hGet : answers.storeGet (storeRequest processor entry.snap entry.channel) with
  | error e => simp
  | ok content =>
      cases hLoads : env.loads content with
      | ok found => simp [hLoads, Except.toOption]
      | error e =>
          by_cases hJson : e.isa .jsonDecodeError = true
          · simp [hLoads, hJson, Except.toOption, Script.bind_ok]
            rintro rfl
            simp
          · simp [hLoads, hJson, Except.toOption]

theorem offers_cons {processor : String} {rest : List String} {members : List (String × Json)}
    (h : storeAnswer env entry answers processor = some (.obj members)) :
    offers env entry answers (processor :: rest) =
      if ((members.lookup "result").getD .null).eq (.str "error") = true then
        offers env entry answers rest
      else .obj members :: offers env entry answers rest := by
  rw [offers, List.filterMap_cons_some h, List.filter_cons, isOffer]
  cases ((members.lookup "result").getD .null).eq (.str "error") <;> rfl

theorem storeSnaps_ok {processors : List String} {snaps : List Json} :
    (storeSnaps env entry answers processors).result = .ok snaps ↔
      (∀ processor ∈ processors, StoreAnswered env entry answers processor) ∧
        snaps = offers env entry answers processors := by
  induction processors generalizing snaps with
  | nil => simp [storeSnaps, offers, eq_comm]
  | cons processor rest ih =>
      simp only [storeSnaps, Script.bind_ok, Script.result_lift, Script.result_pure]
      constructor
      · rintro ⟨snap, hSnap, result, hResult, others, hOthers, hSnaps⟩
        obtain ⟨hAnswer, members, rfl, rfl⟩ := getStoreSnap_get.mp ⟨hSnap, hResult⟩
        obtain ⟨hRest, rfl⟩ := ih.mp hOthers
        refine ⟨List.forall_mem_cons.mpr ⟨⟨members, hAnswer⟩, hRest⟩, ?_⟩
        rw [offers_cons hAnswer]
        exact (Except.ok.inj hSnaps).symm
      · rintro ⟨hAll, rfl⟩
        obtain ⟨⟨members, hAnswer⟩, hRest⟩ := List.forall_mem_cons.mp hAll
        obtain ⟨hSnap, hResult⟩ := getStoreSnap_get.mpr ⟨hAnswer, members, rfl, rfl⟩
        refine ⟨_, hSnap, _, hResult, _, ih.mpr ⟨hRest, rfl⟩, ?_⟩
        rw [offers_cons hAnswer]

end Lookup

theorem versions_readable {snaps : List Json} (table : Dict Json Json) :
    ((∃ found, versions snaps = .ok found) ∧ ∃ found, versionsDict table snaps = .ok found) ↔
      ∀ snap ∈ snaps, Readable snap := by
  induction snaps generalizing table with
  | nil => simp [versions, versionsDict]
  | cons snap rest ih =>
      rw [List.forall_mem_cons]
      simp only [versions, versionsDict, bind_ok, Json.hash_ok]
      constructor
      · rintro ⟨⟨_, version, hVersion, _, hHash, others, hOthers, -⟩,
          _, architecture, hArchitecture, key, hKey, _, _, _, hKeyHash, hTable⟩
        exact ⟨⟨⟨version, hVersion, hHash⟩, ⟨architecture, key, hArchitecture, hKey, hKeyHash⟩⟩,
          (ih _).mp ⟨⟨others, hOthers⟩, _, hTable⟩⟩
      · rintro ⟨⟨⟨version, hVersion, hHash⟩, ⟨architecture, key, hArchitecture, hKey, hKeyHash⟩⟩,
          hRest⟩
        obtain ⟨⟨others, hOthers⟩, last, hTable⟩ := (ih (table.set key.norm version)).mpr hRest
        exact ⟨⟨_, version, hVersion, (), hHash, others, hOthers, rfl⟩,
          last, architecture, hArchitecture, key, hKey, version, hVersion, (), hKeyHash, hTable⟩

theorem fetchUrl_ok {fetch : Fetch} {entry : FetchEntry} {fetched : Json × Dest} :
    fetchUrl fetch entry = .ok fetched ↔ fetch.Done ∧ fetched = (entry.context, entry.dest) := by
  simp only [fetchUrl, bind_ok, Fetch.Done]
  constructor
  · rintro ⟨destExists, hExists, h⟩
    cases destExists with
    | true => simp_all
    | false =>
        simp only [Bool.false_eq_true, if_false, bind_ok] at h
        obtain ⟨statusCode, hStatus, h⟩ := h
        split at h
        · obtain ⟨_, hWritten, h⟩ := bind_ok.mp h
          simp_all
        · simp_all
  · rintro ⟨hExists | ⟨hExists, statusCode, hStatus, hWritten⟩, rfl⟩
    · exact ⟨true, hExists, rfl⟩
    · refine ⟨false, hExists, ?_⟩
      simp only [Bool.false_eq_true, if_false, bind_ok]
      refine ⟨statusCode, hStatus, ?_⟩
      split
      · exact bind_ok.mpr ⟨(), hWritten ‹_›, rfl⟩
      · rfl

theorem fetchAll_ok {fetches : ℕ → Fetch} {n : ℕ} {entries : List FetchEntry}
    {fetched : List (Json × Dest)} :
    fetchAll fetches n entries = .ok fetched ↔
      (∀ k < entries.length, (fetches (n + k)).Done) ∧
        fetched = entries.map fun entry => (entry.context, entry.dest) := by
  induction entries generalizing n fetched with
  | nil => simp [fetchAll, eq_comm]
  | cons entry rest ih =>
      simp only [fetchAll, bind_ok, fetchUrl_ok, ih]
      constructor
      · rintro ⟨_, ⟨hDone, rfl⟩, _, ⟨hRest, rfl⟩, ⟨⟩⟩
        refine ⟨?_, rfl⟩
        intro k hk
        cases k with
        | zero => exact hDone
        | succ k =>
            rw [show n + (k + 1) = n + 1 + k by omega]
            exact hRest k (by simpa using hk)
      · rintro ⟨hDone, rfl⟩
        refine ⟨_, ⟨hDone 0 (by simp), rfl⟩, _, ⟨?_, rfl⟩, rfl⟩
        intro k hk
        rw [show n + 1 + k = n + (k + 1) by omega]
        exact hDone (k + 1) (by simpa using hk)

theorem fetchEntries_ok {snaps : List Json} {entries : List FetchEntry}
    (h : fetchEntries snaps = .ok entries) :
    (∀ snap ∈ snaps, Downloadable snap) ∧
      entries.map (fun entry => (entry.context, entry.dest)) = snaps.map fun s => (s, destOf s) := by
  induction snaps generalizing entries with
  | nil =>
      cases h
      simp
  | cons snap rest ih =>
      simp only [fetchEntries, bind_ok] at h
      obtain ⟨packageName, hName, revision, hRevision, uri, hUri, others, hOthers, ⟨⟩⟩ := h
      obtain ⟨hRest, hMap⟩ := ih hOthers
      refine ⟨List.forall_mem_cons.mpr ⟨⟨⟨_, hName⟩, ⟨_, hRevision⟩, ⟨_, hUri⟩⟩, hRest⟩, ?_⟩
      rw [List.map_cons, List.map_cons, hMap]
      simp [destOf, hName, hRevision, Except.toOption]

theorem fetchEntries_returns {snaps : List Json} (h : ∀ snap ∈ snaps, Downloadable snap) :
    ∃ entries, fetchEntries snaps = .ok entries := by
  induction snaps with
  | nil => exact ⟨[], rfl⟩
  | cons snap rest ih =>
      obtain ⟨⟨⟨packageName, hName⟩, ⟨revision, hRevision⟩, ⟨uri, hUri⟩⟩, hRest⟩ :=
        List.forall_mem_cons.mp h
      obtain ⟨others, hOthers⟩ := ih hRest
      simp only [fetchEntries, bind_ok]
      exact ⟨_, packageName, hName, revision, hRevision, uri, hUri, others, hOthers, rfl⟩

theorem fetchSnaps_ok {fetches : ℕ → Fetch} {snaps : List Json} {fetched : List (Json × Dest)} :
    fetchSnaps fetches snaps = .ok fetched ↔
      Fetchable fetches snaps ∧ fetched = snaps.map fun snap => (snap, destOf snap) := by
  simp only [fetchSnaps, bind_ok, fetchAll_ok]
  constructor
  · rintro ⟨entries, hEntries, hDone, rfl⟩
    obtain ⟨hNamed, hMap⟩ := fetchEntries_ok hEntries
    have hLength : entries.length = snaps.length := by
      simpa using congrArg List.length hMap
    refine ⟨⟨hNamed, ?_⟩, hMap⟩
    intro n hn
    simpa using hDone n (by omega)
  · rintro ⟨⟨hNamed, hDone⟩, rfl⟩
    obtain ⟨entries, hEntries⟩ := fetchEntries_returns hNamed
    have hMap := (fetchEntries_ok hEntries).2
    have hLength : entries.length = snaps.length := by
      simpa using congrArg List.length hMap
    refine ⟨entries, hEntries, ?_, hMap.symm⟩
    intro n hn
    simpa using hDone n (by omega)

end MirCi.ProcessSnaps
