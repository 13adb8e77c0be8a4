import MirCi.ProcessSnaps.Store
import MirCi.Semantics.Overwrite
import MirCi.Semantics.Run

/-! `fetch_snaps`: the workers of the pool run `fetch_url` beside each other, each for one entry, in any
interleaving of what they do to the files. Several entries can have the same destination. -/
namespace MirCi.ProcessSnaps

open Python Semantics

/-- The response to the request for a snap. -/
structure Download where
  status : ℕ
  body : Bytes

/-- How far a worker got with its entry. -/
inductive Phase where
  | waiting
  /-- the file is not there, and the request is on its way -/
  | asking
  /-- with a response that will be written -/
  | opening
  | writing (position : ℕ)
  /-- returned, with the file written -/
  | closed
  /-- returned, with nothing to write -/
  | passed
  | raised
  deriving DecidableEq

/-- What a worker does next. -/
inductive Deed where
  /-- `dest.exists()` -/
  | look
  /-- the response arrives -/
  | answer
  /-- `open(dest, "wb")` -/
  | create
  /-- the buffer of the file passes on so many bytes -/
  | write (count : ℕ)
  | close
  /-- anything of this raises -/
  | fail
  deriving DecidableEq

/-- Files by their paths. -/
abbrev Files := String → Option Bytes

/-- `fetch_url` step by step, by what it does to its file. -/
def fetchStep (download : Download) (phase : Phase) (deed : Deed) (file : Option Bytes) :
    Option (Phase × Option Bytes) :=
  match phase, deed with
  | .waiting, .look => some (if file.isSome then .passed else .asking, file)
  | .asking, .answer => some (if download.status = 200 then .opening else .passed, file)
  | .opening, .create => some (.writing 0, some [])
  | .writing position, .write count =>
      if position + count ≤ download.body.length then
        some (.writing (position + count),
          file.map fun content => writeAt 0 content position (piece download.body position count))
      else none
  | .writing position, .close => if position = download.body.length then some (.closed, file) else none
  | .waiting, .fail | .asking, .fail | .opening, .fail | .writing _, .fail => some (.raised, file)
  | _, _ => none

/-- The pool, with the files of the directory. -/
structure Pool where
  files : Files
  phases : ℕ → Phase := fun _ => .waiting

/-- The responses by the place of their entries, and the path of a destination. -/
structure Fetching where
  entries : List FetchEntry
  download : ℕ → Download
  path : Dest → String

def Fetching.step (f : Fetching) (pool : Pool) (deed : ℕ × Deed) : Option Pool :=
  match f.entries[deed.1]? with
  | none => none
  | some entry =>
      match fetchStep (f.download deed.1) (pool.phases deed.1) deed.2 (pool.files (f.path entry.dest)) with
      | none => none
      | some (phase, file) => some
          { files := Function.update pool.files (f.path entry.dest) file
            phases := Function.update pool.phases deed.1 phase }

/-- `fetch_url` returned. -/
def Phase.Returned (phase : Phase) : Prop := phase = .closed ∨ phase = .passed

/-- The entry of this place is for this file. -/
def Fetching.For (f : Fetching) (i : ℕ) (file : String) : Prop :=
  ∃ entry, f.entries[i]? = some entry ∧ f.path entry.dest = file

/-- Where several entries have the same destination, they download the same. -/
def Fetching.Agree (f : Fetching) : Prop :=
  ∀ i j file, f.For i file → f.For j file → (f.download i).status = 200 → (f.download j).status = 200 →
    (f.download i).body = (f.download j).body

/-! ### What a step does -/

/-- The step of one worker. -/
inductive FetchStep (download : Download) : Phase → Option Bytes → Phase → Option Bytes → Prop where
  | found (content : Bytes) : FetchStep download .waiting (some content) .passed (some content)
  | missing : FetchStep download .waiting none .asking none
  | answered (file : Option Bytes) (h : download.status = 200) : FetchStep download .asking file .opening file
  | refused (file : Option Bytes) (h : download.status ≠ 200) : FetchStep download .asking file .passed file
  | created (file : Option Bytes) : FetchStep download .opening file (.writing 0) (some [])
  | written (position count : ℕ) (file : Option Bytes) (h : position + count ≤ download.body.length) :
      FetchStep download (.writing position) file (.writing (position + count))
        (file.map fun content => writeAt 0 content position (piece download.body position count))
  | closed (file : Option Bytes) : FetchStep download (.writing download.body.length) file .closed file
  | raised (phase : Phase) (file : Option Bytes) (h : ¬phase.Returned) : FetchStep download phase file .raised file

theorem fetchStep_cases {download : Download} {phase phase' : Phase} {deed : Deed} {file file' : Option Bytes}
    (h : fetchStep download phase deed file = some (phase', file')) :
    FetchStep download phase file phase' file' := by
  unfold fetchStep at h
  split at h
  · cases file with
    | none =>
        cases h
        exact .missing
    | some content =>
        cases h
        exact .found content
  · split at h <;> cases h
    · exact .answered file ‹_›
    · exact .refused file ‹_›
  · cases h
    exact .created file
  · split at h
    · cases h
      exact .written _ _ file ‹_›
    · cases h
  · split at h
    · rename_i hAll
      cases h
      exact hAll ▸ .closed file
    · cases h
  all_goals cases h
  all_goals exact .raised _ file (by rintro (h | h) <;> cases h)

theorem step_cases {f : Fetching} {pool pool' : Pool} {deed : ℕ × Deed} (h : f.step pool deed = some pool') :
    ∃ file phase content, f.For deed.1 file ∧
      FetchStep (f.download deed.1) (pool.phases deed.1) (pool.files file) phase content ∧
      pool'.files = Function.update pool.files file content ∧
      pool'.phases = Function.update pool.phases deed.1 phase := by
  unfold Fetching.step at h
  split at h
  · cases h
  · rename_i entry hEntry
    split at h
    · cases h
    · rename_i phase content hStep
      cases h
      exact ⟨_, phase, content, ⟨entry, hEntry, rfl⟩, fetchStep_cases hStep, rfl, rfl⟩

/-! ### What the files contain -/

/-- Nothing has come from this worker. -/
def Before (download : Download) (phase : Phase) : Prop :=
  phase = .waiting ∨ phase = .asking ∨ phase = .opening ∨ phase = .raised ∨ phase = .passed ∧ download.status ≠ 200

/-- The worker writes the file, or has done so, and so much of it. -/
def Wrote (download : Download) (phase : Phase) (position : ℕ) : Prop :=
  phase = .writing position ∨ phase = .closed ∧ position = download.body.length

/-- The worker that opened the file last, if it has not raised, and how far it came. -/
def Opener (download : Download) (phase : Phase) (content : Bytes) : Prop :=
  download.status = 200 ∧
    (phase = .raised ∨ ∃ position, Wrote download phase position ∧ Partly download.body content position)

/-- The files, by what they were at the start. -/
structure Sound (f : Fetching) (start : Files) (pool : Pool) : Prop where
  kept : ∀ file, (start file).isSome → pool.files file = start file
  idle : ∀ i file, f.For i file → (start file).isSome →
    pool.phases i = .waiting ∨ pool.phases i = .passed ∨ pool.phases i = .raised
  good : ∀ i, (pool.phases i = .opening ∨ ∃ position, Wrote (f.download i) (pool.phases i) position) →
    (f.download i).status = 200
  absent : ∀ i file, f.For i file → pool.files file = none → Before (f.download i) (pool.phases i)
  present : ∀ file content, start file = none → pool.files file = some content →
    ∃ i, f.For i file ∧ Opener (f.download i) (pool.phases i) content

section Sound

variable {f : Fetching} {start : Files} {pool : Pool} {i : ℕ} {file : String} {phase : Phase} {content : Option Bytes}

theorem Fetching.For.unique {other : String} (h : f.For i file) (hOther : f.For i other) : file = other := by
  obtain ⟨entry, hEntry, rfl⟩ := h
  obtain ⟨_, hSame, rfl⟩ := hOther
  rw [hEntry] at hSame
  cases hSame
  rfl

/-- Only the worker and its file matter. -/
theorem Sound.update {pool' : Pool} (h : Sound f start pool) (hFor : f.For i file)
    (hFiles : pool'.files = Function.update pool.files file content)
    (hPhases : pool'.phases = Function.update pool.phases i phase)
    (hKept : (start file).isSome → content = pool.files file ∧ (phase = .waiting ∨ phase = .passed ∨ phase = .raised))
    (hGood : (phase = .opening ∨ ∃ position, Wrote (f.download i) phase position) → (f.download i).status = 200)
    (hAbsent : content = none → pool.files file = none ∧ Before (f.download i) phase)
    (hPresent : ∀ bytes, start file = none → content = some bytes →
      ∃ j, f.For j file ∧ Opener (f.download j) (Function.update pool.phases i phase j) bytes) :
    Sound f start pool' where
  kept other hThere := by
    rw [hFiles]
    by_cases hSame : other = file
    · subst hSame
      rw [Function.update_self, (hKept hThere).1]
      exact h.kept other hThere
    · rw [Function.update_of_ne hSame]
      exact h.kept other hThere
  idle j other hOther hThere := by
    rw [hPhases]
    by_cases hSame : j = i
    · subst hSame
      obtain rfl := hOther.unique hFor
      rw [Function.update_self]
      exact (hKept hThere).2
    · rw [Function.update_of_ne hSame]
      exact h.idle j other hOther hThere
  good j hPhase := by
    rw [hPhases] at hPhase
    by_cases hSame : j = i
    · subst hSame
      rw [Function.update_self] at hPhase
      exact hGood hPhase
    · rw [Function.update_of_ne hSame] at hPhase
      exact h.good j hPhase
  absent j other hOther hNone := by
    rw [hPhases]
    rw [hFiles] at hNone
    by_cases hFile : other = file
    · subst hFile
      rw [Function.update_self] at hNone
      by_cases hSame : j = i
      · subst hSame
        rw [Function.update_self]
        exact (hAbsent hNone).2
      · rw [Function.update_of_ne hSame]
        exact h.absent j other hOther (hAbsent hNone).1
    · rw [Function.update_of_ne hFile] at hNone
      have hSame : j ≠ i := fun hEq => hFile ((hEq ▸ hOther).unique hFor)
      rw [Function.update_of_ne hSame]
      exact h.absent j other hOther hNone
  present other bytes hNew hSome := by
    rw [hPhases]
    rw [hFiles] at hSome
    by_cases hFile : other = file
    · subst hFile
      rw [Function.update_self] at hSome
      exact hPresent bytes hNew hSome
    · rw [Function.update_of_ne hFile] at hSome
      obtain ⟨j, hOther, hOpener⟩ := h.present other bytes hNew hSome
      have hSame : j ≠ i := fun hEq => hFile ((hEq ▸ hOther).unique hFor)
      refine ⟨j, hOther, ?_⟩
      rwa [Function.update_of_ne hSame]

/-- A worker that has not opened the file leaves it to whoever has. -/
theorem Sound.opener (h : Sound f start pool) (hPhase : Before (f.download i) (pool.phases i))
    (hOngoing : pool.phases i ≠ .raised) {bytes : Bytes} (hNew : start file = none)
    (hSome : pool.files file = some bytes) :
    ∃ j, f.For j file ∧ Opener (f.download j) (Function.update pool.phases i phase j) bytes := by
  obtain ⟨j, hFor, hOpener⟩ := h.present file bytes hNew hSome
  refine ⟨j, hFor, ?_⟩
  have hSame : j ≠ i := by
    rintro rfl
    obtain ⟨-, hRaised | ⟨position, hWrote | hWrote, -⟩⟩ := hOpener
    · exact hOngoing hRaised
    · simp [Before, hWrote] at hPhase
    · simp [Before, hWrote.1] at hPhase
  rwa [Function.update_of_ne hSame]

/-- A worker that goes on without touching the file, from before it opens it. -/
theorem Sound.go_on {pool' : Pool} (h : Sound f start pool) (hFor : f.For i file)
    (hFiles : pool'.files = Function.update pool.files file (pool.files file))
    (hPhases : pool'.phases = Function.update pool.phases i phase)
    (hOld : Before (f.download i) (pool.phases i)) (hOngoing : pool.phases i ≠ .raised)
    (hNew : pool.files file = none → Before (f.download i) phase)
    (hIdle : (start file).isSome → phase = .waiting ∨ phase = .passed ∨ phase = .raised)
    (hGood : (phase = .opening ∨ ∃ position, Wrote (f.download i) phase position) → (f.download i).status = 200) :
    Sound f start pool' :=
  h.update hFor hFiles hPhases (fun hThere => ⟨rfl, hIdle hThere⟩) hGood (fun hNone => ⟨hNone, hNew hNone⟩)
    fun _ hAbsent hSome => h.opener hOld hOngoing hAbsent hSome

theorem Sound.step {pool' : Pool} {deed : ℕ × Deed} (hAgree : f.Agree) (h : Sound f start pool)
    (hStep : f.step pool deed = some pool') : Sound f start pool' := by
  obtain ⟨i, deed⟩ := deed
  obtain ⟨file, phase, content, hFor, hFetch, hFiles, hPhases⟩ := step_cases hStep
  have hIdle := h.idle i file hFor
  have hGood := h.good i
  have hAbsent := h.absent i file hFor
  generalize hPhase : pool.phases i = old at hFetch hIdle hGood hAbsent
  generalize hFile : pool.files file = before at hFetch
  dsimp only at hFetch hPhases hFor
  cases hFetch with
  | found bytes =>
      rw [← hFile] at hFiles
      refine h.go_on hFor hFiles hPhases (.inl hPhase) ?_ (fun hNone => ?_) (fun _ => .inr (.inl rfl)) ?_
      · simp [hPhase]
      · simp [hFile] at hNone
      · simp [Wrote]
  | missing =>
      rw [← hFile] at hFiles
      refine h.go_on hFor hFiles hPhases (.inl hPhase) ?_ (fun _ => .inr (.inl rfl)) (fun hThere => ?_) ?_
      · simp [hPhase]
      · rw [← h.kept file hThere, hFile] at hThere
        cases hThere
      · simp [Wrote]
  | answered _ hStatus =>
      rw [← hFile] at hFiles
      refine h.go_on hFor hFiles hPhases (.inr (.inl hPhase)) ?_ (fun _ => .inr (.inr (.inl rfl))) (fun hThere => ?_)
        fun _ => hStatus
      · simp [hPhase]
      · simpa using hIdle hThere
  | refused _ hStatus =>
      rw [← hFile] at hFiles
      refine h.go_on hFor hFiles hPhases (.inr (.inl hPhase)) ?_ (fun _ => ?_) (fun _ => .inr (.inl rfl)) ?_
      · simp [hPhase]
      · exact .inr (.inr (.inr (.inr ⟨rfl, hStatus⟩)))
      · simp [Wrote]
  | created =>
      have hStatus := hGood (.inl rfl)
      refine h.update hFor hFiles hPhases (fun hThere => ?_) (fun _ => hStatus) (fun hNone => by cases hNone) ?_
      · simpa using hIdle hThere
      · intro bytes _ hSome
        cases hSome
        refine ⟨i, hFor, hStatus, .inr ⟨0, ?_, partly_nil _⟩⟩
        rw [Function.update_self]
        exact .inl rfl
  | written position count _ hPiece =>
      have hStatus := hGood (.inr ⟨position, .inl rfl⟩)
      refine h.update hFor hFiles hPhases (fun hThere => ?_) (fun _ => hStatus) (fun hNone => ?_) ?_
      · simpa using hIdle hThere
      · rw [Option.map_eq_none_iff] at hNone
        simpa [Before] using hAbsent (hFile.trans hNone)
      · intro bytes hNew hSome
        obtain ⟨earlier, rfl, rfl⟩ := Option.map_eq_some_iff.mp hSome
        obtain ⟨j, hOther, hGet, hOpener⟩ := h.present file earlier hNew hFile
        refine ⟨j, hOther, hGet, ?_⟩
        by_cases hSame : j = i
        · subst hSame
          rw [Function.update_self]
          rw [hPhase] at hOpener
          obtain hRaised | ⟨reached, hWrote | hWrote, hPartly⟩ := hOpener
          · cases hRaised
          · cases hWrote
            exact .inr ⟨_, .inl rfl, hPartly.write_next 0 hPiece⟩
          · cases hWrote.1
        · rw [Function.update_of_ne hSame]
          refine hOpener.imp_right fun ⟨reached, hWrote, hPartly⟩ => ⟨reached, hWrote, ?_⟩
          rw [hAgree i j file hFor hOther hStatus hGet] at hPiece ⊢
          exact hPartly.write 0 hPiece
  | closed =>
      have hStatus := hGood (.inr ⟨_, .inl rfl⟩)
      refine h.update hFor hFiles hPhases (fun hThere => ?_) (fun _ => hStatus) (fun hNone => ?_) ?_
      · simpa using hIdle hThere
      · simpa [Before] using hAbsent (hFile.trans hNone)
      · intro bytes hNew hSome
        obtain ⟨j, hOther, hGet, hOpener⟩ := h.present file bytes hNew (hFile.trans hSome)
        refine ⟨j, hOther, hGet, ?_⟩
        by_cases hSame : j = i
        · subst hSame
          rw [Function.update_self]
          rw [hPhase] at hOpener
          obtain hRaised | ⟨reached, hWrote | hWrote, hPartly⟩ := hOpener
          · cases hRaised
          · cases hWrote
            exact .inr ⟨_, .inr ⟨rfl, rfl⟩, hPartly⟩
          · cases hWrote.1
        · rwa [Function.update_of_ne hSame]
  | raised _ _ hOngoing =>
      refine h.update hFor hFiles hPhases (fun hThere => ⟨hFile.symm, .inr (.inr rfl)⟩) (by simp [Wrote])
        (fun hNone => ⟨hFile.trans hNone, .inr (.inr (.inr (.inl rfl)))⟩) ?_
      intro bytes hNew hSome
      obtain ⟨j, hOther, hGet, hOpener⟩ := h.present file bytes hNew (hFile.trans hSome)
      refine ⟨j, hOther, hGet, ?_⟩
      by_cases hSame : j = i
      · subst hSame
        rw [Function.update_self]
        exact .inl rfl
      · rwa [Function.update_of_ne hSame]

end Sound

theorem sound_start (f : Fetching) (start : Files) : Sound f start { files := start } where
  kept _ _ := rfl
  idle _ _ _ _ := .inl rfl
  good i h := by simp [Wrote] at h
  absent _ _ _ _ := .inl rfl
  present file content hNew hSome := by
    cases hNew.symm.trans hSome

/-- However the workers get in each other's way, once all have returned each file is the one from before, or
else exactly the snap that was downloaded for it. -/
theorem fetched_files {f : Fetching} (hAgree : f.Agree) {start : Files} {deeds : List (ℕ × Deed)} {pool : Pool}
    (hRun : Runs f.step Any { files := start } deeds pool)
    (hReturned : ∀ i < f.entries.length, (pool.phases i).Returned) (file : String) (content : Bytes) :
    pool.files file = some content ↔ start file = some content ∨
      start file = none ∧ ∃ i, f.For i file ∧ (f.download i).status = 200 ∧ (f.download i).body = content := by
  have hSound : Sound f start pool :=
    hRun.invariant (Sound f start) (sound_start f start) fun _ _ _ h _ hStep => h.step hAgree hStep
  have hEnded : ∀ i, f.For i file → (pool.phases i).Returned := by
    intro i hFor
    obtain ⟨entry, hEntry, -⟩ := hFor
    exact hReturned i (List.getElem?_eq_some_iff.mp hEntry).1
  cases hStart : start file with
  | some old =>
      rw [hSound.kept file (hStart ▸ rfl), hStart]
      simp
  | none =>
      have hBody : ∀ bytes, pool.files file = some bytes →
          ∃ i, f.For i file ∧ (f.download i).status = 200 ∧ (f.download i).body = bytes := by
        intro bytes hSome
        obtain ⟨i, hFor, hStatus, hOpener⟩ := hSound.present file bytes hStart hSome
        refine ⟨i, hFor, hStatus, ?_⟩
        obtain hRaised | ⟨position, hWrote | ⟨-, rfl⟩, hPartly⟩ := hOpener
        · rcases hEnded i hFor with h | h <;> cases hRaised.symm.trans h
        · rcases hEnded i hFor with h | h <;> cases hWrote.symm.trans h
        · exact hPartly.eq_of_all.symm
      constructor
      · exact fun hSome => .inr ⟨rfl, hBody content hSome⟩
      · rintro (hOld | ⟨-, i, hFor, hStatus, rfl⟩)
        · cases hOld
        · cases hFile : pool.files file with
          | some bytes =>
              obtain ⟨j, hOther, hGet, rfl⟩ := hBody bytes hFile
              rw [hAgree i j file hFor hOther hStatus hGet]
          | none =>
              have hBefore := hSound.absent i file hFor hFile
              rcases hEnded i hFor with h | h <;> simp [Before, h, hStatus] at hBefore

/-- Two processors have the same snap. -/
def sameSnap : Fetching where
  entries := [⟨.null, ⟨.null, .null⟩, .null⟩, ⟨.null, ⟨.null, .null⟩, .null⟩]
  download _ := ⟨200, [7, 8, 9]⟩
  path _ := "mir-kiosk_1.snap"

/-- The second worker empties the file under the first one. -/
def entangled : List (ℕ × Deed) :=
  [(0, .look), (1, .look), (0, .answer), (0, .create), (0, .write 2), (1, .answer), (1, .create), (0, .write 1),
   (0, .close), (1, .write 3), (1, .close)]

theorem fetched_files_entangled : ∃ pool, Runs sameSnap.step Any { files := fun _ => none } entangled pool ∧
    pool.files "mir-kiosk_1.snap" = some [7, 8, 9] := by
  have hAgree : sameSnap.Agree := fun _ _ _ _ _ _ _ => rfl
  have hRun : Runs sameSnap.step Any { files := fun _ => none } entangled _ := runs_of_execute rfl fun _ _ _ => trivial
  refine ⟨_, hRun, (fetched_files hAgree hRun ?_ _ _).mpr (.inr ⟨rfl, 0, ⟨_, rfl, rfl⟩, rfl, rfl⟩)⟩
  intro i hi
  have hTwo : i = 0 ∨ i = 1 := by
    have hLength : sameSnap.entries.length = 2 := rfl
    omega
  rcases hTwo with rfl | rfl
  · exact .inl rfl
  · exact .inl rfl

end MirCi.ProcessSnaps
