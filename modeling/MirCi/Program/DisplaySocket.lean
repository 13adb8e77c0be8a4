import MirCi.Semantics.Run

/-! The wait for a display's socket. The server and other processes change the runtime
directory while the test first looks for the socket and then reads events of files that
were created since its watch was installed. -/
namespace MirCi.Program.DisplaySocket

open Semantics

inductive Phase where
  /-- the paths that `clear_wayland_display` has not looked at yet -/
  | clearing (paths : List String)
  /-- `os.remove`, of a path that existed -/
  | removing (path : String) (rest : List String)
  | clearFailed
  /-- the server was started, and the watch is not installed yet -/
  | started
  /-- the watch is installed, and the display has not been looked for -/
  | watching
  | reading
  | returned
  | raised
  deriving DecidableEq

/-- The files of the runtime directory, and the events of the watch that were not read yet. -/
structure Wait where
  phase : Phase
  files : Finset String
  queue : List String := []

inductive Action where
  /-- what `__aenter__` does next -/
  | code
  /-- no event came for `display_appear_timeout` -/
  | timeOut
  /-- a process creates a file -/
  | create (file : String)
  /-- a process removes a file -/
  | remove (file : String)

/-- The display was cleared, and the server runs. -/
def Phase.serverRuns : Phase → Bool
  | .clearing _ | .removing .. | .clearFailed => false
  | .started | .watching | .reading | .returned | .raised => true

/-- Files that are created give events. -/
def Phase.watched : Phase → Bool
  | .watching | .reading => true
  | _ => false

/-- The paths that may still hold a file of an earlier display. -/
def Phase.pending : Phase → List String
  | .clearing paths => paths
  | .removing path rest => path :: rest
  | _ => []

def lockFile (name : String) : String := name ++ ".lock"

def start (name : String) (files : Finset String) : Wait :=
  { phase := .clearing [name, lockFile name], files }

/-- `__aenter__` clears the display, starts the server and waits for the socket. -/
def code (name : String) (s : Wait) : Option Wait :=
  match s.phase with
  | .clearing (path :: rest) =>
      some { s with phase := if path ∈ s.files then .removing path rest else .clearing rest }
  | .removing path rest =>
      -- another process may have removed the file since the check
      if path ∈ s.files then some { s with phase := .clearing rest, files := s.files.erase path }
      else some { s with phase := .clearFailed }
  | .clearing [] => some { s with phase := .started }
  | .started => some { s with phase := .watching, queue := [] }
  | .watching => some { s with phase := if name ∈ s.files then .returned else .reading }
  | .reading =>
      match s.queue with
      | [] => none
      | filename :: queue =>
          some { s with phase := if filename = name then .returned else .reading, queue }
  | .clearFailed | .returned | .raised => none

def Wait.create (s : Wait) (file : String) : Wait :=
  { s with
    files := insert file s.files
    queue := if s.phase.watched then s.queue ++ [file] else s.queue }

/-- Only the server creates the socket; any process creates and removes other files. -/
def step (name : String) (s : Wait) : Action → Option Wait
  | .code => code name s
  | .timeOut => if s.phase = .reading ∧ s.queue = [] then some { s with phase := .raised } else none
  | .create file =>
      if file ∉ s.files ∧ (file = name → s.phase.serverRuns) then some (s.create file) else none
  | .remove file => if file ∈ s.files then some { s with files := s.files.erase file } else none

/-- The socket was created at some point after the display had been cleared. -/
def Created (name : String) (files : Finset String) (actions : List Action) : Prop :=
  ∃ before after s, actions = before ++ .create name :: after ∧
    Runs (step name) Any (start name files) before s ∧ s.phase.serverRuns

/-- The socket was created and not removed again. -/
def Lasting (name : String) (actions : List Action) : Prop :=
  ∃ before after, actions = before ++ .create name :: after ∧ .remove name ∉ after

section Run

variable {name file : String} {files : Finset String} {s t : Wait} {actions : List Action} {a : Action}

/-- What `__aenter__` can do in one step. -/
inductive CodeStep (name : String) (s : Wait) : Wait → Prop where
  | found {path : String} {rest : List String} (phase : s.phase = .clearing (path :: rest))
      (exists_path : path ∈ s.files) : CodeStep name s { s with phase := .removing path rest }
  | absent {path : String} {rest : List String} (phase : s.phase = .clearing (path :: rest))
      (exists_path : path ∉ s.files) : CodeStep name s { s with phase := .clearing rest }
  | removed {path : String} {rest : List String} (phase : s.phase = .removing path rest) :
      CodeStep name s { s with phase := .clearing rest, files := s.files.erase path }
  | lost {path : String} {rest : List String} (phase : s.phase = .removing path rest) :
      CodeStep name s { s with phase := .clearFailed }
  | start (phase : s.phase = .clearing []) : CodeStep name s { s with phase := .started }
  | watch (phase : s.phase = .started) : CodeStep name s { s with phase := .watching, queue := [] }
  | seen (phase : s.phase = .watching) (appeared : name ∈ s.files) :
      CodeStep name s { s with phase := .returned }
  | missed (phase : s.phase = .watching) (appeared : name ∉ s.files) :
      CodeStep name s { s with phase := .reading }
  | wanted {queue : List String} (phase : s.phase = .reading) (event : s.queue = name :: queue) :
      CodeStep name s { s with phase := .returned, queue }
  | other {filename : String} {queue : List String} (phase : s.phase = .reading)
      (event : s.queue = filename :: queue) (different : filename ≠ name) :
      CodeStep name s { s with phase := .reading, queue }

theorem codeStep_of_code (h : code name s = some t) : CodeStep name s t := by
  unfold code at h
  split at h
  case h_1 path rest hPhase =>
    obtain rfl := Option.some.inj h
    split
    · exact .found hPhase ‹_›
    · exact .absent hPhase ‹_›
  case h_2 path rest hPhase =>
    split at h <;> obtain rfl := Option.some.inj h
    · exact .removed hPhase
    · exact .lost hPhase
  case h_3 hPhase =>
    obtain rfl := Option.some.inj h
    exact .start hPhase
  case h_4 hPhase =>
    obtain rfl := Option.some.inj h
    exact .watch hPhase
  case h_5 hPhase =>
    obtain rfl := Option.some.inj h
    split
    · exact .seen hPhase ‹_›
    · exact .missed hPhase ‹_›
  case h_6 hPhase =>
    split at h
    · cases h
    · rename_i filename queue hQueue
      obtain rfl := Option.some.inj h
      split
      next hName =>
        subst hName
        exact .wanted hPhase hQueue
      next hName => exact .other hPhase hQueue hName
  all_goals cases h

theorem Created.snoc (h : Created name files actions) (a : Action) : Created name files (actions ++ [a]) := by
  obtain ⟨before, after, s, rfl, hRun, hRuns⟩ := h
  exact ⟨before, after ++ [a], s, by simp, hRun, hRuns⟩

theorem lasting_snoc (h : Lasting name (actions ++ [a])) :
    a = .create name ∨ Lasting name actions ∧ a ≠ .remove name := by
  obtain ⟨before, after, hActions, hAfter⟩ := h
  induction after using List.reverseRecOn with
  | nil =>
      obtain ⟨-, hLast⟩ := List.append_inj' hActions rfl
      exact .inl (List.singleton_inj.mp hLast)
  | append_singleton after b ih =>
      rw [← List.cons_append, ← List.append_assoc] at hActions
      obtain ⟨rfl, hLast⟩ := List.append_inj' hActions rfl
      obtain rfl := List.singleton_inj.mp hLast
      rw [List.mem_append, not_or, List.mem_singleton] at hAfter
      exact .inr ⟨⟨before, after, rfl, hAfter.1⟩, fun h => hAfter.2 h.symm⟩

/-- What the actions so far say of the directory and the events. -/
structure Accounted (name : String) (files : Finset String) (actions : List Action) (t : Wait) : Prop where
  /-- A socket that is there before the server runs is one the clearing still looks at. -/
  cleared : t.phase.serverRuns = false →
    (name ∈ t.files → name ∈ t.phase.pending ∨ t.phase = .clearFailed) ∧ t.queue = [] ∧
      .create name ∉ actions
  created : t.phase.serverRuns = true → name ∈ t.files ∨ name ∈ t.queue ∨ t.phase = .returned →
    Created name files actions
  /-- The check came before the first event was read, so what it missed is an event. -/
  seen : t.phase = .reading → name ∈ t.files → name ∈ t.queue
  lasting : Lasting name actions → name ∈ t.files
  raised : t.phase = .raised →
    ∃ before after, actions = before ++ .timeOut :: after ∧ ¬ Lasting name before

theorem accounted_start : Accounted name files [] (start name files) where
  cleared _ := by simp [start, Phase.pending]
  created h := by simp [start, Phase.serverRuns] at h
  seen h := by simp [start] at h
  lasting h := by
    obtain ⟨before, after, hNil, -⟩ := h
    simp at hNil
  raised h := by simp [start] at h

theorem lasting_code (h : Lasting name (actions ++ [.code])) : Lasting name actions := by
  obtain hCreate | hEarlier := lasting_snoc h
  · cases hCreate
  · exact hEarlier.1

/-- Before the server runs the socket is one that the clearing still looks at. -/
theorem Accounted.clearing (h : Accounted name files actions s) (hBefore : s.phase.serverRuns = false)
    (hAfter : t.phase.serverRuns = false) (hQueue : t.queue = s.queue)
    (hPending : name ∈ t.files → name ∈ t.phase.pending ∨ t.phase = .clearFailed) :
    Accounted name files (actions ++ [.code]) t := by
  obtain ⟨-, hEmpty, hCreate⟩ := h.cleared hBefore
  refine ⟨fun _ => ⟨hPending, hQueue.trans hEmpty, by simpa using hCreate⟩, ?_, ?_, ?_, ?_⟩
  · intro hRuns
    rw [hAfter] at hRuns
    cases hRuns
  · intro hPhase
    rw [hPhase] at hAfter
    cases hAfter
  · intro hLasting
    obtain ⟨before, after, hActions, -⟩ := lasting_code hLasting
    exact absurd (by simp [hActions]) hCreate
  · intro hPhase
    rw [hPhase] at hAfter
    cases hAfter

/-- While the server runs the code leaves the files alone. -/
theorem Accounted.serving (h : Accounted name files actions s) (hRuns : t.phase.serverRuns = true)
    (hRaised : t.phase ≠ .raised) (hFiles : t.files = s.files)
    (hCreated : name ∈ t.files ∨ name ∈ t.queue ∨ t.phase = .returned → Created name files actions)
    (hSeen : t.phase = .reading → name ∈ t.files → name ∈ t.queue) :
    Accounted name files (actions ++ [.code]) t := by
  refine ⟨?_, fun _ hThere => (hCreated hThere).snoc _, hSeen, ?_, fun hPhase => absurd hPhase hRaised⟩
  · intro hBefore
    rw [hRuns] at hBefore
    cases hBefore
  · intro hLasting
    rw [hFiles]
    exact h.lasting (lasting_code hLasting)

theorem Accounted.mem_pending (h : Accounted name files actions s) (hBefore : s.phase.serverRuns = false)
    (hFailed : s.phase ≠ .clearFailed) (hThere : name ∈ s.files) : name ∈ s.phase.pending :=
  ((h.cleared hBefore).1 hThere).resolve_right hFailed

theorem Accounted.code (h : Accounted name files actions s) (hStep : CodeStep name s t) :
    Accounted name files (actions ++ [.code]) t := by
  cases hStep with
  | @found path rest phase exists_path =>
      have hPending := h.mem_pending (by rw [phase]; rfl) (by simp [phase])
      rw [phase] at hPending
      exact h.clearing (by rw [phase]; rfl) rfl rfl fun hThere => .inl (hPending hThere)
  | @absent path rest phase exists_path =>
      have hPending := h.mem_pending (by rw [phase]; rfl) (by simp [phase])
      rw [phase] at hPending
      refine h.clearing (by rw [phase]; rfl) rfl rfl fun hThere => .inl ?_
      obtain rfl | hRest := List.mem_cons.mp (hPending hThere)
      · exact absurd hThere exists_path
      · exact hRest
  | @removed path rest phase =>
      have hPending := h.mem_pending (by rw [phase]; rfl) (by simp [phase])
      rw [phase] at hPending
      refine h.clearing (by rw [phase]; rfl) rfl rfl fun hThere => .inl ?_
      obtain ⟨hOther, hBefore⟩ := Finset.mem_erase.mp hThere
      exact (List.mem_cons.mp (hPending hBefore)).resolve_left hOther
  | lost phase => exact h.clearing (by rw [phase]; rfl) rfl rfl fun _ => .inr rfl
  | start phase =>
      have hPending := h.mem_pending (by rw [phase]; rfl) (by simp [phase])
      have hEmpty := (h.cleared (by rw [phase]; rfl)).2.1
      rw [phase] at hPending
      refine h.serving rfl (by simp) rfl ?_ (by simp)
      rintro (hThere | hQueue | hPhase)
      · cases hPending hThere
      · change name ∈ s.queue at hQueue
        rw [hEmpty] at hQueue
        cases hQueue
      · cases hPhase
  | watch phase =>
      refine h.serving rfl (by simp) rfl ?_ (by simp)
      rintro (hThere | hQueue | hPhase)
      · exact h.created (by rw [phase]; rfl) (.inl hThere)
      · cases hQueue
      · cases hPhase
  | seen phase appeared =>
      exact h.serving rfl (by simp) rfl (fun _ => h.created (by rw [phase]; rfl) (.inl appeared)) (by simp)
  | missed phase appeared =>
      refine h.serving rfl (by simp) rfl ?_ fun _ hThere => absurd hThere appeared
      rintro (hThere | hQueue | hPhase)
      · exact absurd hThere appeared
      · exact h.created (by rw [phase]; rfl) (.inr (.inl hQueue))
      · cases hPhase
  | wanted phase event =>
      refine h.serving rfl (by simp) rfl (fun _ => ?_) (by simp)
      exact h.created (by rw [phase]; rfl) (.inr (.inl (by simp [event])))
  | other phase event different =>
      refine h.serving rfl (by simp) rfl ?_ ?_
      · rintro (hThere | hQueue | hPhase)
        · exact h.created (by rw [phase]; rfl) (.inl hThere)
        · exact h.created (by rw [phase]; rfl) (.inr (.inl (by simp [event, hQueue])))
        · cases hPhase
      · intro _ hThere
        have hSeen := h.seen phase hThere
        rw [event] at hSeen
        exact (List.mem_cons.mp hSeen).resolve_left fun hName => different hName.symm

theorem Accounted.timeOut (h : Accounted name files actions s) (hStep : step name s .timeOut = some t) :
    Accounted name files (actions ++ [.timeOut]) t := by
  simp only [step] at hStep
  split at hStep
  · rename_i hWait
    obtain ⟨hPhase, hQueue⟩ := hWait
    obtain rfl := Option.some.inj hStep
    have hGone : name ∉ s.files := by
      intro hThere
      have hSeen := h.seen hPhase hThere
      rw [hQueue] at hSeen
      cases hSeen
    have hEnded : ¬ Lasting name actions := fun hLasting => hGone (h.lasting hLasting)
    refine ⟨by simp [Phase.serverRuns], ?_, by simp, ?_, fun _ => ⟨actions, [], rfl, hEnded⟩⟩
    · rintro - (hThere | hEvent | hReturned)
      · exact absurd hThere hGone
      · change name ∈ s.queue at hEvent
        rw [hQueue] at hEvent
        cases hEvent
      · cases hReturned
    · intro hLasting
      obtain hCreate | hEarlier := lasting_snoc hLasting
      · cases hCreate
      · exact absurd hEarlier.1 hEnded
  · cases hStep

theorem serverRuns_of_watched {phase : Phase} (h : phase.watched) : phase.serverRuns := by
  cases phase with
  | watching | reading => rfl
  | _ => cases h

/-- A raise stays where it was in the longer run. -/
theorem Accounted.raised_snoc (h : Accounted name files actions s) (hPhase : s.phase = .raised) (a : Action) :
    ∃ before after, actions ++ [a] = before ++ .timeOut :: after ∧ ¬ Lasting name before := by
  obtain ⟨before, after, rfl, hEnded⟩ := h.raised hPhase
  exact ⟨before, after ++ [a], by simp, hEnded⟩

theorem Accounted.create (h : Accounted name files actions s)
    (run : Runs (step name) Any (start name files) actions s) (hSocket : file = name → s.phase.serverRuns) :
    Accounted name files (actions ++ [.create file]) (s.create file) where
  cleared hBefore := by
    change s.phase.serverRuns = false at hBefore
    have hOther : file ≠ name := fun hName => by simp [hSocket hName] at hBefore
    obtain ⟨hPending, hEmpty, hCreate⟩ := h.cleared hBefore
    refine ⟨fun hThere => ?_, ?_, ?_⟩
    · exact hPending ((Finset.mem_insert.mp hThere).resolve_left hOther.symm)
    · have hWatched : ¬ s.phase.watched := fun hWatched => by simp [serverRuns_of_watched hWatched] at hBefore
      simp [Wait.create, hWatched, hEmpty]
    · simp [hCreate, hOther.symm]
  created hRuns hThere := by
    by_cases hName : file = name
    · subst hName
      exact ⟨actions, [], s, rfl, run, hRuns⟩
    · refine (h.created hRuns ?_).snoc _
      obtain hFile | hQueue | hPhase := hThere
      · exact .inl ((Finset.mem_insert.mp hFile).resolve_left fun h => hName h.symm)
      · refine .inr (.inl ?_)
        simp only [Wait.create] at hQueue
        split at hQueue
        · exact (List.mem_append.mp hQueue).resolve_right (by simpa using fun h => hName h.symm)
        · exact hQueue
      · exact .inr (.inr hPhase)
  seen hPhase hThere := by
    change s.phase = .reading at hPhase
    simp only [Wait.create, hPhase, Phase.watched, if_true, List.mem_append, List.mem_singleton]
    obtain hNew | hOld := Finset.mem_insert.mp hThere
    · exact .inr hNew
    · exact .inl (h.seen hPhase hOld)
  lasting hLasting := by
    obtain hCreate | hEarlier := lasting_snoc hLasting
    · cases hCreate
      exact Finset.mem_insert_self _ _
    · exact Finset.mem_insert_of_mem (h.lasting hEarlier.1)
  raised hPhase := h.raised_snoc hPhase _

theorem Accounted.remove (h : Accounted name files actions s) (file : String) :
    Accounted name files (actions ++ [.remove file]) { s with files := s.files.erase file } where
  cleared hBefore := by
    obtain ⟨hPending, hEmpty, hCreate⟩ := h.cleared hBefore
    exact ⟨fun hThere => hPending (Finset.mem_of_mem_erase hThere), hEmpty, by simpa using hCreate⟩
  created hRuns hThere :=
    (h.created hRuns (hThere.imp_left Finset.mem_of_mem_erase)).snoc _
  seen hPhase hThere := h.seen hPhase (Finset.mem_of_mem_erase hThere)
  lasting hLasting := by
    obtain hCreate | ⟨hEarlier, hOther⟩ := lasting_snoc hLasting
    · cases hCreate
    · refine Finset.mem_erase.mpr ⟨fun hName => hOther ?_, h.lasting hEarlier⟩
      rw [hName]
  raised hPhase := h.raised_snoc hPhase _

theorem accounted_run (run : Runs (step name) Any (start name files) actions t) :
    Accounted name files actions t := by
  induction run with
  | nil => exact accounted_start
  | @snoc s t actions a prior admitted last ih =>
      cases a with
      | code => exact ih.code (codeStep_of_code last)
      | timeOut => exact ih.timeOut last
      | create file =>
          simp only [step] at last
          split at last
          · rename_i hFile
            obtain rfl := Option.some.inj last
            exact ih.create prior hFile.2
          · cases last
      | remove file =>
          simp only [step] at last
          split at last
          · obtain rfl := Option.some.inj last
            exact ih.remove file
          · cases last

/-- Reading goes on to the socket's event. -/
theorem returns_of_event (hPhase : s.phase = .reading) (hEvent : name ∈ s.queue) :
    ∃ n t, Runs (step name) Any s (List.replicate n .code) t ∧ t.phase = .returned := by
  obtain ⟨phase, files, queue⟩ := s
  obtain rfl : phase = .reading := hPhase
  change name ∈ queue at hEvent
  induction queue with
  | nil => cases hEvent
  | cons filename queue ih =>
      by_cases hName : filename = name
      · have hStep : step name ⟨.reading, files, filename :: queue⟩ .code = some ⟨.returned, files, queue⟩ := by
          simp [step, code, hName]
        exact ⟨1, _, .single trivial hStep, rfl⟩
      · have hStep : step name ⟨.reading, files, filename :: queue⟩ .code = some ⟨.reading, files, queue⟩ := by
          simp [step, code, hName]
        obtain ⟨n, t, hRun, hReturned⟩ :=
          ih ((List.mem_cons.mp hEvent).resolve_left fun h => hName h.symm)
        refine ⟨n + 1, t, ?_, hReturned⟩
        rw [List.replicate_succ]
        exact (Runs.single trivial hStep).trans hRun

/-- Once the socket is there, the wait ends by itself unless it had timed out. -/
theorem returns_of_socket (run : Runs (step name) Any (start name files) actions t)
    (hRuns : t.phase.serverRuns) (hRaised : t.phase ≠ .raised) (hThere : name ∈ t.files) :
    ∃ n u, Runs (step name) Any t (List.replicate n .code) u ∧ u.phase = .returned := by
  cases hPhase : t.phase with
  | clearing | removing | clearFailed => simp [hPhase, Phase.serverRuns] at hRuns
  | started =>
      refine ⟨2, { t with phase := .returned, queue := [] }, runs_of_execute ?_ fun _ _ _ => trivial, rfl⟩
      simp [execute, step, code, hPhase, hThere]
  | watching =>
      refine ⟨1, { t with phase := .returned }, .single trivial ?_, rfl⟩
      simp [step, code, hPhase, hThere]
  | reading => exact returns_of_event hPhase ((accounted_run run).seen hPhase hThere)
  | returned => exact ⟨0, t, .nil t, hPhase⟩
  | raised => exact absurd hPhase hRaised

/-- The wait returns only for a socket of this server, it raises only when there was none to find, and
it returns whenever there is one. -/
theorem display_never_missed (run : Runs (step name) Any (start name files) actions t) :
    (t.phase = .returned → Created name files actions) ∧
      (t.phase = .raised →
        ∃ before after, actions = before ++ .timeOut :: after ∧ ¬ Lasting name before) ∧
      (t.phase.serverRuns → t.phase ≠ .raised → name ∈ t.files →
        ∃ n u, Runs (step name) Any t (List.replicate n .code) u ∧ u.phase = .returned) := by
  have h := accounted_run run
  refine ⟨fun hReturned => ?_, h.raised, returns_of_socket run⟩
  exact h.created (by rw [hReturned]; rfl) (.inr (.inr hReturned))

end Run

/-- The socket appears between the watch and the check, after one of an earlier display was removed. -/
theorem display_never_missed_before_check :
    Created "wayland-00" {"wayland-00"}
      [.code, .code, .code, .code, .code, .create "wayland-00", .create "wayland-00.lock", .code] := by
  refine (display_never_missed (t := ⟨.returned, {"wayland-00.lock", "wayland-00"},
    ["wayland-00", "wayland-00.lock"]⟩) (runs_of_execute ?_ fun _ _ _ => trivial)).1 rfl
  rfl

end MirCi.Program.DisplaySocket
