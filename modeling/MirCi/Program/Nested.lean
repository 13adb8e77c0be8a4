import MirCi.Program.Teardown
import MirCi.Semantics.Nesting

/-! A test around a display server and its clients: `async with server as s, s.program(app) as p:`,
with blocks that may be nested further. One coroutine enters the blocks, calls `wait` and `kill`
in them and leaves them, while the programs, their tasks and the clock go on. -/
namespace MirCi.Program.Nested

open Python Semantics Semantics.Nesting

/-- What a block is around. -/
inductive Block where
  | program
  | displayServer (startTime : Time)
  /-- a `DisplayServer` whose display did not appear -/
  | displayMissing
  deriving DecidableEq

/-- What starts a process and opens a block. -/
structure Entry where
  block : Block
  name : String
  rawOutput : List UInt8
  now : Time
  cgroupV2 : Bool

/-- A program of the test. `failed` is one whose `__aenter__` kills it and raises. -/
structure Member where
  state : State
  failed : Bool

/-- `Program.__aenter__`, with the rest of `DisplayServer.__aenter__` up to its first await. -/
def Entry.enter (e : Entry) : Member :=
  match e.block with
  | .program => ⟨entered .program e.name e.rawOutput e.now e.cgroupV2, false⟩
  | .displayServer startTime => ⟨entered (.displayServer startTime) e.name e.rawOutput e.now e.cgroupV2, false⟩
  | .displayMissing =>
      ⟨(entered (.displayServer e.now) e.name e.rawOutput e.now e.cgroupV2).kill .kill defaultTermTimeout, true⟩

def role : Action → Role
  | .wait _ _ | .kill _ => .call
  | .leave => .leave
  | .tick _ => .shared
  | .cancel | .wake | .exit _ | .record | .communicate | .resume _ _ | .cgroupFound => .own

/-- Where an `__aenter__` raised, no block was entered that could call the program or be left. -/
def Member.step (m : Member) (a : Action) : Option Member :=
  if m.failed ∧ (role a = .call ∨ role a = .leave) then none
  else (Program.step m.state a).map fun s => ⟨s, m.failed⟩

/-- The block is open, and `__aexit__` was not called. -/
def inside : Caller → Bool
  | .body _ | .awaiting .wait | .awaiting .kill => true
  | .awaiting .exitKill | .awaiting .exitDead | .sleeping _ | .left _ => false

def idle : Caller → Bool
  | .body _ => true
  | _ => false

/-- `__aexit__` returned or raised, or the `__aenter__` that failed raised. -/
def Member.out (m : Member) : Bool :=
  match m.state.caller with
  | .left _ => true
  | .body _ => m.failed
  | _ => false

/-- A program as the test's coroutine sees it. -/
def programs : Component Entry Member Action where
  enter := Entry.enter
  step := Member.step
  role
  inside m := !m.failed && inside m.state.caller
  idle m := !m.failed && idle m.state.caller
  out := Member.out

abbrev Test := Nest Member

/-- Cancellations hit the program they interrupt a call of, and are harmless there. -/
def Harmless (n : Test) : Move Entry Action → Prop
  | .acts i a => ∀ m, n.members[i]? = some m → HarmlessCancel m.state a
  | _ => True

/-! ### The steps of one program -/

section Steps

variable {s t : State} {a : Action}

/-- Where the call that is suspended in the frame returns to. -/
def back (raised : Option Exc) : Frame → Caller
  | .wait | .kill => .body raised
  | .exitKill | .exitDead => .left raised

theorem finish_caller (s : State) (frame : Frame) (raised : Option Exc) :
    ∃ after, (s.finish frame raised).caller = back after frame := by
  cases frame <;> exact ⟨_, rfl⟩

theorem awaitEnd_caller (s : State) (frame : Frame) :
    (s.awaitEnd frame).caller = .awaiting frame ∨ ∃ after, (s.awaitEnd frame).caller = back after frame := by
  unfold State.awaitEnd
  split
  · exact .inr (finish_caller s frame _)
  · exact .inl rfl
  · exact .inr (finish_caller s frame _)
  · exact .inr (finish_caller s frame _)

theorem communicated_caller (s : State) (frame : Frame) :
    (∃ after, (s.communicated frame).caller = back after frame) ∧ (s.communicated frame).Over := by
  obtain ⟨processEnd, output, raised, hEq, hOver⟩ := s.communicated_eq frame
  rw [hEq]
  refine ⟨finish_caller _ frame raised, ?_⟩
  obtain ⟨caller, hFinish, -⟩ :=
    { s.cancelSignalsTask with processEnd := processEnd, output := output }.finish_eq frame raised
  rw [hFinish]
  exact hOver

/-- What a program does when nothing calls it: go on by itself, or return from the call that is
suspended, or go on leaving its block after a sleep. -/
inductive OwnStep (s t : State) : Prop where
  | goesOn (caller : t.caller = s.caller) (processEnd : t.processEnd = s.processEnd)
      (tasks : s.tasks = [] → t.tasks = [] ∧ t.kills = s.kills)
  | returns (frame : Frame) (raised : Option Exc) (awaiting : s.caller = .awaiting frame)
      (caller : t.caller = back raised frame) (ended : t.Over)
  | awakes (due : Time) (sleeping : s.caller = .sleeping due)
      (caller : t.caller = .awaiting .exitKill ∨ ∃ raised, t.caller = .left raised)

theorem own_cases (h : Program.step s a = some t) (hOwn : role a = .own ∨ role a = .shared) : OwnStep s t := by
  cases a with
  | wait | kill | leave => simp [role] at hOwn
  | cancel =>
      simp only [Program.step] at h
      split at h <;> cases h
      · exact .returns .wait _ ‹_› rfl (.inr rfl)
      · exact .returns .kill _ ‹_› rfl (.inr rfl)
  | wake =>
      simp only [Program.step] at h
      split at h
      · split at h <;> cases h
        exact .awakes _ ‹_› (awaitEnd_caller _ .exitKill)
      · cases h
  | communicate =>
      simp only [Program.step] at h
      split at h
      · split at h <;> cases h
        rename_i frame hAwaiting _
        obtain ⟨⟨raised, hCaller⟩, hOver⟩ := communicated_caller s frame
        exact .returns frame raised hAwaiting hCaller hOver
      · cases h
  | resume i delivered =>
      obtain ⟨stage, kills, sigkillSent, hFrame⟩ := State.step_resume_frame h
      refine .goesOn (by rw [hFrame]; rfl) (by rw [hFrame]; rfl) fun hNone => ?_
      simp [Program.step, hNone] at h
  | tick _ | exit _ | record | cgroupFound =>
      simp only [Program.step] at h
      split at h <;> cases h
      exact .goesOn rfl rfl fun hNone => ⟨hNone, rfl⟩

theorem inside_back {raised : Option Exc} {frame : Frame} :
    inside (back raised frame) = inside (.awaiting frame) := by
  cases frame <;> rfl

theorem OwnStep.inside (h : OwnStep s t) (hInside : inside s.caller = true) : inside t.caller = true := by
  cases h with
  | goesOn hCaller => rw [hCaller, hInside]
  | returns frame raised hAwaiting hCaller => rw [hCaller, inside_back, ← hAwaiting, hInside]
  | awakes due hSleeping =>
      rw [hSleeping] at hInside
      cases hInside

/-- A call of the code in the block stays in the block. -/
theorem call_inside (h : Program.step s a = some t) (hCall : role a = .call) : inside t.caller = true := by
  have hReturn (u : State) {frame : Frame} (hFrame : Nested.inside (.awaiting frame) = true) :
      Nested.inside (u.awaitEnd frame).caller = true := by
    rcases awaitEnd_caller u frame with hCaller | ⟨raised, hCaller⟩
    · rw [hCaller, hFrame]
    · rw [hCaller, inside_back, hFrame]
  cases a with
  | wait timeout termTimeout =>
      simp only [Program.step] at h
      split at h <;> cases h
      exact hReturn _ rfl
  | kill timeout =>
      simp only [Program.step] at h
      split at h <;> cases h
      exact hReturn _ rfl
  | cancel | leave | wake | tick | exit | record | communicate | resume | cgroupFound => simp [role] at hCall

/-- Leaving a block gets out of it. -/
theorem leave_inside (s : State) : inside s.leave.caller = false := by
  have hReturn (u : State) {frame : Frame} (hFrame : Nested.inside (.awaiting frame) = false) :
      Nested.inside (u.awaitEnd frame).caller = false := by
    rcases awaitEnd_caller u frame with hCaller | ⟨raised, hCaller⟩
    · rw [hCaller, hFrame]
    · rw [hCaller, inside_back, hFrame]
  unfold State.leave
  split
  · simp only [State.programExit]
    split
    · rfl
    · split
      · exact hReturn _ rfl
      · exact hReturn _ rfl
  · simp only [State.displayServerExit]
    split
    · rfl
    · exact hReturn _ rfl

theorem OwnStep.left {raised : Option Exc} (h : OwnStep s t) (hLeft : s.caller = .left raised) :
    t.caller = .left raised := by
  cases h with
  | goesOn hCaller => rw [hCaller, hLeft]
  | returns frame _ hAwaiting => simp [hLeft] at hAwaiting
  | awakes due hSleeping => simp [hLeft] at hSleeping

theorem OwnStep.body {raised : Option Exc} (h : OwnStep s t) (hBody : s.caller = .body raised) :
    t.caller = .body raised := by
  cases h with
  | goesOn hCaller => rw [hCaller, hBody]
  | returns frame _ hAwaiting => simp [hBody] at hAwaiting
  | awakes due hSleeping => simp [hBody] at hSleeping

/-- Nothing is called on a program that has been left. -/
theorem left_own {raised : Option Exc} (h : Program.step s a = some t) (hLeft : s.caller = .left raised) :
    role a = .own ∨ role a = .shared := by
  cases a with
  | wait | kill | leave => simp [Program.step, hLeft] at h
  | cancel | wake | exit | record | communicate | resume | cgroupFound => exact .inl rfl
  | tick => exact .inr rfl

theorem role_own (hCall : role a ≠ .call) (hLeave : role a ≠ .leave) : role a = .own ∨ role a = .shared := by
  cases hRole : role a with
  | call => exact absurd hRole hCall
  | leave => exact absurd hRole hLeave
  | own => exact .inl rfl
  | shared => exact .inr rfl

end Steps

section Members

variable {m k : Member} {a : Action}

theorem Member.step_cases (h : m.step a = some k) :
    Program.step m.state a = some k.state ∧ k.failed = m.failed ∧
      (m.failed = true → role a = .own ∨ role a = .shared) := by
  simp only [Member.step] at h
  split at h
  · cases h
  · rename_i hGuard
    obtain ⟨s, hs, rfl⟩ := Option.map_eq_some_iff.mp h
    refine ⟨hs, rfl, fun hFailed => ?_⟩
    simp only [hFailed, true_and, not_or] at hGuard
    exact role_own hGuard.1 hGuard.2

/-- A block is inside of none that is being left. -/
theorem inside_iff : programs.inside m = true ↔ m.failed = false ∧ inside m.state.caller = true := by
  simp [programs]

theorem out_iff : programs.out m = true ↔ (∃ raised, m.state.caller = .left raised) ∨
    m.failed = true ∧ ∃ raised, m.state.caller = .body raised := by
  cases hCaller : m.state.caller <;> simp [programs, Member.out, hCaller]

theorem programs_lawful : programs.Lawful where
  idle {m} h := by
    have hIdle : m.failed = false ∧ idle m.state.caller = true := by simpa [programs] using h
    refine inside_iff.mpr ⟨hIdle.1, ?_⟩
    cases hCaller : m.state.caller <;> simp_all [idle, inside]
  inside {m k a} hRole h hStep := by
    obtain ⟨hStep, hFailed, -⟩ := Member.step_cases hStep
    obtain ⟨hEntered, hInside⟩ := inside_iff.mp h
    refine inside_iff.mpr ⟨hFailed.trans hEntered, ?_⟩
    by_cases hCall : role a = .call
    · exact call_inside hStep hCall
    · exact (own_cases hStep (role_own hCall hRole)).inside hInside
  out {m k a} h hStep := by
    obtain ⟨hStep, hFailed, hOwn⟩ := Member.step_cases hStep
    rcases out_iff.mp h with ⟨raised, hLeft⟩ | ⟨hMember, raised, hBody⟩
    · exact out_iff.mpr (.inl ⟨raised, (own_cases hStep (left_own hStep hLeft)).left hLeft⟩)
    · exact out_iff.mpr (.inr ⟨hFailed.trans hMember, raised, (own_cases hStep (hOwn hMember)).body hBody⟩)

end Members

/-! ### Runs of a test -/

section Run

variable {n : Test} {m : Member} {moves : List (Move Entry Action)}

/-- What is known of a program between two turns of the event loop. -/
structure Kept (m : Member) : Prop where
  sound : Sound m.state
  failed : m.failed = true →
    (∃ raised, m.state.caller = .body raised) ∧ m.state.Over ∨ m.state.caller = .awaiting .kill

theorem Kept.enter (e : Entry) : Kept e.enter := by
  have hSound (context : Context) := Sound.entered context e.name e.rawOutput e.now e.cgroupV2
  cases hBlock : e.block with
  | program => exact ⟨by simpa [Entry.enter, hBlock] using hSound .program, by simp [Entry.enter, hBlock]⟩
  | displayServer startTime =>
      exact ⟨by simpa [Entry.enter, hBlock] using hSound (.displayServer startTime), by
        simp [Entry.enter, hBlock]⟩
  | displayMissing =>
      have hKill := (hSound (.displayServer e.now)).wait (by simp [entered]) .kill 0 defaultTermTimeout
      refine ⟨by simpa [Entry.enter, hBlock, State.kill] using hKill, fun _ => .inr ?_⟩
      simp [Entry.enter, hBlock, State.kill, State.wait, State.isRunning, entered, State.createSignalsTask,
        State.awaitEnd]

theorem Kept.step {k : Member} {a : Action} (h : Kept m) (hCancel : HarmlessCancel m.state a)
    (hStep : m.step a = some k) : Kept k := by
  obtain ⟨hStep, hFailed, hOwn⟩ := Member.step_cases hStep
  refine ⟨h.sound.step hCancel hStep, fun hMember => ?_⟩
  rw [hFailed] at hMember
  rcases own_cases hStep (hOwn hMember) with ⟨hCaller, hEnd, -⟩ | ⟨frame, raised, hAwaiting, hCaller, hOver⟩ |
    ⟨due, hSleeping, -⟩
  · rcases h.failed hMember with ⟨hBody, hOver⟩ | hKill
    · exact .inl ⟨by rwa [hCaller], by rwa [State.Over, hEnd]⟩
    · exact .inr (hCaller.trans hKill)
  · rcases h.failed hMember with ⟨⟨_, hBody⟩, -⟩ | hKill
    · simp [hBody] at hAwaiting
    · rw [hKill] at hAwaiting
      cases hAwaiting
      exact .inl ⟨⟨raised, hCaller⟩, hOver⟩
  · rcases h.failed hMember with ⟨⟨_, hBody⟩, -⟩ | hKill
    · simp [hBody] at hSleeping
    · simp [hKill] at hSleeping

/-- A program whose block has been left has exited, the loop knows it, and nothing signals it. -/
theorem Kept.settled (h : Kept m) (hOut : programs.out m = true) : m.state.Settled := by
  have hOver : m.state.Over := by
    rcases out_iff.mp hOut with ⟨raised, hLeft⟩ | ⟨hFailed, raised, hBody⟩
    · exact h.sound.left raised hLeft
    · rcases h.failed hFailed with ⟨-, hOver⟩ | hKill
      · exact hOver
      · simp [hBody] at hKill
  obtain ⟨hRecorded, hUnarmed⟩ := h.sound.settled hOver
  exact ⟨hRecorded, h.sound.recorded hRecorded, hUnarmed⟩

theorem kept_of_run (hRun : Runs (Nesting.step programs) Harmless {} moves n) {i : ℕ}
    (hm : n.members[i]? = some m) : Kept m := by
  refine members_invariant (fun _ m => Kept m) hRun (fun _ e => Kept.enter e) ?_ i m hm
  rintro n i a m k ⟨j, hOk, rfl | hShared⟩ hm hKept hStep
  · exact hKept.step (hOk m hm) hStep
  · refine hKept.step ?_ hStep
    rintro rfl
    cases hShared

/-- However the test and its programs interleave, a program whose block is not open any more has exited, with
its exit recorded and no task that can still signal it, and so have all that were started inside of a block
that is being left. -/
theorem teardown_order (hRun : Runs (Nesting.step programs) Harmless {} moves n) :
    (∀ i m, n.members[i]? = some m → i ∉ n.stack → m.state.Settled) ∧
    ∀ i ∈ n.stack, ∀ m, n.members[i]? = some m → programs.inside m = false →
      ∀ j k, i < j → n.members[j]? = some k → k.state.Settled := by
  have hNested := wellNested_of_run programs_lawful hRun
  constructor
  · intro i m hm hClosed
    exact (kept_of_run hRun hm).settled (hNested.outside i m hm hClosed)
  · intro i hOpen m hm hLeaving j k hLater hk
    exact (kept_of_run hRun hk).settled (hNested.out_of_leaving hOpen hm hLeaving hLater hk)

/-- A server and, inside of its block, a client. -/
def serverEntry : Entry := ⟨.displayServer 0, "mir", [], 0, true⟩

def clientEntry : Entry := ⟨.program, "app", [], 0, true⟩

/-- The client's block is left, and after it has exited that of the server. -/
def teardown : List (Move Entry Action) :=
  [.opens serverEntry, .opens clientEntry, .acts 1 .leave, .acts 1 (.resume 0 true), .acts 1 (.exit 0),
   .acts 1 .record, .acts 1 .communicate, .closes, .acts 0 (.tick 1), .acts 0 .leave, .acts 0 (.resume 0 true)]

theorem harmless_teardown (n : Test) : ∀ move ∈ teardown, Harmless n move := by
  simp [teardown, Harmless, HarmlessCancel]

/-- The server's block is open, and the server was signalled. -/
theorem teardown_runs : (execute (Nesting.step programs) {} teardown).map (fun n =>
    (n.stack, n.members.map fun m => (programs.inside m, m.state.kills.length))) =
      some ([0], [(false, 1), (false, 1)]) := by
  decide +kernel

theorem teardown_order_run : ∃ n, Runs (Nesting.step programs) Harmless {} teardown n ∧ n.stack = [0] ∧
    (∀ i m, n.members[i]? = some m → i ∉ n.stack → m.state.Settled) ∧
    ∀ i ∈ n.stack, ∀ m, n.members[i]? = some m → programs.inside m = false →
      ∀ j k, i < j → n.members[j]? = some k → k.state.Settled := by
  obtain ⟨n, hn, hEnd⟩ := Option.map_eq_some_iff.mp teardown_runs
  have hRun : Runs (Nesting.step programs) Harmless {} teardown n := runs_of_execute hn harmless_teardown
  exact ⟨n, hRun, congrArg Prod.fst hEnd, teardown_order hRun⟩

/-- The code of the test does not call `wait` or `kill` of the program at the index. -/
def Uncalled (index : ℕ) (n : Test) (move : Move Entry Action) : Prop :=
  Harmless n move ∧ ∀ a, move = .acts index a → role a ≠ .call

/-- A program that was not called gets no signal before its block is left. -/
def Unsignalled (m : Member) : Prop :=
  programs.inside m = true → (∃ raised, m.state.caller = .body raised) ∧ m.state.tasks = [] ∧ m.state.kills = []

theorem unsignalled_enter (e : Entry) : Unsignalled e.enter := by
  intro hInside
  cases hBlock : e.block with
  | program | displayServer => exact ⟨⟨none, by simp [Entry.enter, hBlock, entered]⟩, by
      simp [Entry.enter, hBlock, entered]⟩
  | displayMissing => simp [Entry.enter, hBlock, programs] at hInside

theorem Unsignalled.step {k : Member} {a : Action} (h : Unsignalled m) (hCall : role a ≠ .call)
    (hStep : m.step a = some k) : Unsignalled k := by
  obtain ⟨hStep, hFailed, -⟩ := Member.step_cases hStep
  intro hInside
  obtain ⟨hEntered, hInside⟩ := inside_iff.mp hInside
  by_cases hLeave : role a = .leave
  · obtain rfl : a = .leave := by
      cases a <;> simp_all [role]
    simp only [Program.step] at hStep
    split at hStep
    · rw [← Option.some.inj hStep, leave_inside] at hInside
      cases hInside
    · cases hStep
  · rw [hFailed] at hEntered
    rcases own_cases hStep (role_own hCall hLeave) with ⟨hCaller, -, hTasks⟩ | ⟨frame, _, hAwaiting, hCaller, -⟩ |
      ⟨_, -, hCaller⟩
    · rw [hCaller] at hInside ⊢
      obtain ⟨hBody, hNone, hKills⟩ := h (inside_iff.mpr ⟨hEntered, hInside⟩)
      exact ⟨hBody, (hTasks hNone).1, (hTasks hNone).2.trans hKills⟩
    · rw [hCaller, inside_back, ← hAwaiting] at hInside
      obtain ⟨⟨_, hBody⟩, -⟩ := h (inside_iff.mpr ⟨hEntered, hInside⟩)
      simp [hBody] at hAwaiting
    · rcases hCaller with hCaller | ⟨raised, hCaller⟩ <;> rw [hCaller] at hInside <;> cases hInside

theorem unsignalled_of_run {i : ℕ} (hRun : Runs (Nesting.step programs) (Uncalled i) {} moves n)
    (hm : n.members[i]? = some m) : Unsignalled m := by
  have hAll := members_invariant (fun j m => j = i → Unsignalled m) hRun
    (fun _ e _ => unsignalled_enter e) ?_ i m hm rfl
  · exact hAll
  rintro n j a m k ⟨index, hOk, hIndex⟩ hm hInv hStep rfl
  refine (hInv rfl).step (fun hCall => ?_) hStep
  rcases hIndex with rfl | hShared
  · exact hOk.2 a rfl hCall
  · exact absurd (hCall.symm.trans hShared) (by simp)

/-- As long as the test does not itself call `wait` or `kill` of a program, nothing signals it before
whatever was started inside of its block has exited. -/
theorem signals_from_inside {i j : ℕ} {k : Member}
    (hRun : Runs (Nesting.step programs) (Uncalled i) {} moves n) (hOpen : i ∈ n.stack)
    (hm : n.members[i]? = some m) (hSignalled : m.state.kills ≠ []) (hLater : i < j)
    (hk : n.members[j]? = some k) : k.state.Clean := by
  have hHarmless := hRun.mono fun _ _ h => h.1
  refine ((kept_of_run hHarmless hk).settled ?_).2
  refine (wellNested_of_run programs_lawful hHarmless).out_of_leaving hOpen hm ?_ hLater hk
  by_contra hInside
  exact hSignalled ((unsignalled_of_run hRun hm) (by simpa using hInside)).2.2

theorem signals_from_inside_run : ∃ n server client, Runs (Nesting.step programs) (Uncalled 0) {} teardown n ∧
    n.members = [server, client] ∧ server.state.kills ≠ [] ∧ client.state.Clean := by
  obtain ⟨n, hn, hEnd⟩ := Option.map_eq_some_iff.mp teardown_runs
  obtain ⟨hStack, hMembers⟩ := Prod.mk.inj hEnd
  have hRun : Runs (Nesting.step programs) (Uncalled 0) {} teardown n :=
    runs_of_execute hn (by simp [teardown, Uncalled, Harmless, HarmlessCancel, role])
  obtain ⟨server, rest, hServer, hKills, hRest⟩ := List.map_eq_cons_iff.mp hMembers
  obtain ⟨client, later, rfl, -, hLater⟩ := List.map_eq_cons_iff.mp hRest
  obtain rfl := List.map_eq_nil_iff.mp hLater
  have hSignalled : server.state.kills ≠ [] := by
    intro hNone
    simp [hNone] at hKills
  refine ⟨n, server, client, hRun, hServer, hSignalled, ?_⟩
  exact signals_from_inside hRun (by simp [hStack]) (by simp [hServer]) hSignalled Nat.zero_lt_one (by simp [hServer])

end Run

end MirCi.Program.Nested
