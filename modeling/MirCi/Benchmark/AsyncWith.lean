import MirCi.Benchmark.Unwind
import MirCi.Semantics.With

/-! `async with Benchmarker(programs)` beside `async with` around the programs themselves. The
programs do the same in both: what a program's `__aenter__` and `__aexit__` raise is its own. -/
namespace MirCi.Benchmark

open Python Semantics Script

variable {P : Type}

/-- A program, and what entering and exiting it raises. -/
structure Managed (P : Type) where
  program : P
  enters : Option Exc := none
  exits : Option Exc := none
  deriving DecidableEq

namespace Managed

/-- What raises or returns nothing. -/
def outcome : Option Exc → Except Exc Unit
  | none => .ok ()
  | some e => .error e

/-- The calls that `async with` makes of a program. -/
def guard (m : Managed P) : Guard (Call (Managed P)) Exc where
  enter := { events := [.aenter m m.enters], result := outcome m.enters }
  leave := { events := [.aexit m m.exits], result := outcome m.exits }

/-- `async with` the programs, in their order, around a body. -/
def asyncWith (managed : List (Managed P)) (body : Option Exc) : Script (Call (Managed P)) Exc Unit :=
  nest (managed.map guard) (lift (outcome body))

/-- What is raised, by position. -/
def raisesOf (outcomes : List (Option Exc)) : Raises := fun n => outcomes[n]?.join

/-- What the programs raise as they are entered. -/
def entering (managed : List (Managed P)) : Raises := raisesOf (managed.map enters)

/-- What the programs raise as they are exited, in the order in which a benchmarker has listed them. -/
def exiting (managed : List (Managed P)) : Raises := raisesOf (managed.map exits)

/-- The programs before the first that does not enter. -/
def enterable (managed : List (Managed P)) : List (Managed P) := managed.takeWhile fun m => m.enters.isNone

/-- The polling task gets a turn, if it is pending. -/
def pollNext (s : State (Managed P)) (reads : String → CgroupReads) : State (Managed P) :=
  (step s (.poll reads)).getD s

/-- The benchmarker after its `__aenter__`. -/
def benchmarker (programs : Dict String (Managed P)) : State (Managed P) :=
  (fresh programs).aenter (entering programs.values) (exiting (enterable programs.values).reverse)

/-- `async with Benchmarker(programs)` around a body during which the task polls. -/
def withBenchmarker (programs : Dict String (Managed P)) (polls : List (String → CgroupReads))
    (body : Option Exc) : Script (Call (Managed P)) Exc Unit :=
  let entered := benchmarker programs
  match entered.outcome with
  | some (.aenter _ (some e)) => { events := entered.calls, result := .error e }
  | _ =>
      let left := (polls.foldl pollNext entered).aexit (exiting (enterable programs.values).reverse)
      { events := left.calls
        result := match left.outcome with
          | some (.aexit _ (some e)) => .error e
          | _ => outcome body }

end Managed

/-! ### Loops that stop -/

section Loop

variable {α β : Type}

/-- What a loop does that goes on until one of its items stops it. -/
def through (stops : α → Bool) (f : α → β) : List α → List β
  | [] => []
  | a :: rest => f a :: if stops a then [] else through stops f rest

theorem through_initial (stops : α → Bool) (f : α → β) (items : List α) : through stops f items <+: items.map f := by
  induction items with
  | nil => exact List.prefix_refl []
  | cons a rest ih =>
      rw [through, List.map_cons, List.cons_prefix_cons]
      refine ⟨rfl, ?_⟩
      split
      · exact List.nil_prefix
      · exact ih

/-- The loop goes through if only the last item stops it. -/
theorem through_eq_map {stops : α → Bool} {f : α → β} {items : List α} :
    through stops f items = items.map f ↔ ∀ a ∈ items.dropLast, stops a = false := by
  induction items with
  | nil => simp [through]
  | cons a rest ih =>
      rw [through, List.map_cons, List.cons.injEq]
      cases rest with
      | nil => cases hStops : stops a <;> simp [through]
      | cons b rest =>
          rw [List.dropLast_cons_cons, List.forall_mem_cons, ← ih]
          cases hStops : stops a <;> simp

end Loop

/-! ### The loops of the benchmarker -/

namespace Managed

/-- The exit ends a loop that collects what is an `Exception`. -/
def halts (m : Managed P) : Bool := m.exits.any fun e => !e.isa .exception

def exitCall (m : Managed P) : Call (Managed P) := .aexit m m.exits

section Loops

variable {m : Managed P} {managed rest : List (Managed P)}

theorem raisesOf_cons (first : Option Exc) (outcomes : List (Option Exc)) :
    raisesOf (first :: outcomes) 0 = first ∧ (raisesOf (first :: outcomes)).later = raisesOf outcomes :=
  ⟨rfl, rfl⟩

theorem raisesOf_none {outcomes : List (Option Exc)} (h : ∀ o ∈ outcomes, o = none) :
    raisesOf outcomes = fun _ => none := by
  funext n
  cases hn : outcomes[n]? with
  | none => simp [raisesOf, hn]
  | some o => simp [raisesOf, hn, h o (List.mem_of_getElem? hn)]

theorem exitAll_calls (managed : List (Managed P)) :
    (exitAll (exiting managed) managed).1 = through halts exitCall managed := by
  induction managed with
  | nil => rfl
  | cons m managed ih =>
      obtain ⟨hFirst, hLater⟩ := raisesOf_cons m.exits (managed.map exits)
      rw [exiting, List.map_cons]
      cases hExits : m.exits with
      | none => 
        rw [hExits] at hFirst hLater
        simp [exitAll, hFirst, hLater, through, exitCall, halts, hExits, ← ih, exiting]
      | some e =>
          rw [hExits] at hFirst hLater
          cases hException : e.isa .exception <;>
            simp [exitAll, hFirst, hLater, through, exitCall, halts, hExits, hException, ← ih, exiting]

theorem exitAll_raised (managed : List (Managed P)) :
    (exitAll (exiting managed) managed).2.1 = [] ∧ (exitAll (exiting managed) managed).2.2 = none ↔
      ∀ m ∈ managed, m.exits = none := by
  induction managed with
  | nil => simp [exitAll]
  | cons m managed ih =>
      obtain ⟨hFirst, hLater⟩ := raisesOf_cons m.exits (managed.map exits)
      rw [List.forall_mem_cons, ← ih, exiting, List.map_cons]
      cases hExits : m.exits with
      | none =>
        rw [hExits] at hFirst hLater
        simp [exitAll, hFirst, hLater, exiting]
      | some e =>
          rw [hExits] at hFirst hLater
          cases hException : e.isa .exception <;> simp [exitAll, hFirst, hLater, hException]

theorem unwindAll_calls (managed : List (Managed P)) :
    (unwindAll (exiting managed) managed).1 = through (fun m => m.exits.isSome) exitCall managed := by
  induction managed with
  | nil => rfl
  | cons m managed ih =>
      obtain ⟨hFirst, hLater⟩ := raisesOf_cons m.exits (managed.map exits)
      rw [exiting, List.map_cons]
      cases hExits : m.exits <;> rw [hExits] at hFirst hLater <;>
        simp [unwindAll, hFirst, hLater, through, exitCall, hExits, ← ih, exiting]

theorem enterCalls_quiet (items : List (String × Managed P)) (h : ∀ item ∈ items, item.2.enters = none) :
    enterCalls (fun _ => none) items = items.map fun item => .aenter item.2 item.2.enters := by
  induction items with
  | nil => rfl
  | cons item items ih =>
      rw [List.forall_mem_cons] at h
      have hLater : Raises.later (fun _ => none) = fun _ => none := rfl
      simp [enterCalls, hLater, ih h.2, h.1]

theorem enterable_all (h : ∀ m ∈ managed, m.enters = none) : enterable managed = managed := by
  induction managed with
  | nil => rfl
  | cons m managed ih =>
      rw [List.forall_mem_cons] at h
      rw [enterable, List.takeWhile_cons_of_pos (by simp [h.1]), ← enterable, ih h.2]

theorem enterable_failed {e : Exc} (h : ∀ m ∈ managed, m.enters = none) (hFails : m.enters = some e) :
    enterable (managed ++ m :: rest) = managed := by
  rw [enterable, List.takeWhile_append_of_pos fun b hb => by simp [h b hb]]
  simp [hFails]

end Loops

/-! ### The benchmarker beside the nested blocks -/

section Blocks

variable {programs : Dict String (Managed P)} {managed rest : List (Managed P)} {m : Managed P}
  (polls : List (String → CgroupReads)) (body : Option Exc)

theorem pollNext_frame (s : State (Managed P)) (reads : String → CgroupReads) :
    (pollNext s reads).calls = s.calls ∧ (pollNext s reads).running = s.running ∧
      (pollNext s reads).runningPrograms = s.runningPrograms := by
  by_cases hPending : s.task = some .pending
  · have hPoll : pollNext s reads = s.poll reads := by simp [pollNext, Benchmark.step, hPending]
    rw [hPoll, State.poll]
    split
    · split <;> exact ⟨rfl, rfl, rfl⟩
    · exact ⟨rfl, rfl, rfl⟩
  · have hIdle : pollNext s reads = s := by simp [pollNext, Benchmark.step, hPending]
    rw [hIdle]
    exact ⟨rfl, rfl, rfl⟩

theorem polls_frame (s : State (Managed P)) :
    (polls.foldl pollNext s).calls = s.calls ∧ (polls.foldl pollNext s).running = s.running ∧
      (polls.foldl pollNext s).runningPrograms = s.runningPrograms := by
  induction polls generalizing s with
  | nil => exact ⟨rfl, rfl, rfl⟩
  | cons reads polls ih =>
      obtain ⟨hCalls, hRunning, hListed⟩ := ih (pollNext s reads)
      obtain ⟨hCalls', hRunning', hListed'⟩ := pollNext_frame s reads
      exact ⟨hCalls.trans hCalls', hRunning.trans hRunning', hListed.trans hListed'⟩

theorem returns_outcome {raised : Option Exc} (events : List (Call (Managed P))) :
    ({ events := events, result := outcome raised } : Script (Call (Managed P)) Exc Unit).Returns ↔ raised = none := by
  cases raised <;> simp [Returns, outcome]

theorem returns_asyncWith : (asyncWith managed body).Returns ↔
    (∀ m ∈ managed, m.enters = none ∧ m.exits = none) ∧ body = none := by
  rw [asyncWith, returns_nest, List.forall_mem_map]
  refine and_congr (forall₂_congr fun m _ => and_congr ?_ ?_) ?_
  · exact returns_outcome _
  · exact returns_outcome _
  · exact returns_outcome []

theorem guard_enters (managed : List (Managed P)) :
    (managed.map guard).flatMap (fun g => g.enter.events) = managed.map fun m => .aenter m m.enters := by
  rw [List.flatMap_map, List.map_eq_flatMap]
  rfl

theorem guard_leaves (managed : List (Managed P)) :
    (managed.map guard).reverse.flatMap (fun g => g.leave.events) = managed.reverse.map exitCall := by
  rw [← List.map_reverse, List.flatMap_map, List.map_eq_flatMap]
  rfl

theorem enter_returns (h : ∀ m ∈ managed, m.enters = none) : ∀ g ∈ managed.map guard, g.enter.Returns :=
  List.forall_mem_map.mpr fun m hm => (returns_outcome _).mpr (h m hm)

theorem events_asyncWith (h : ∀ m ∈ managed, m.enters = none) : (asyncWith managed body).events =
    managed.map (fun m => .aenter m m.enters) ++ managed.reverse.map exitCall := by
  rw [asyncWith, events_nest (enter_returns h), guard_enters, guard_leaves]
  simp [lift]

theorem events_asyncWith_failed {e : Exc} (h : ∀ m ∈ managed, m.enters = none) (hFails : m.enters = some e) :
    (asyncWith (managed ++ m :: rest) body).events =
      managed.map (fun m => .aenter m m.enters) ++ [.aenter m m.enters] ++ managed.reverse.map exitCall := by
  have hNot : ¬m.guard.enter.Returns := fun hReturns => by
    rw [(returns_outcome _).mp hReturns] at hFails
    cases hFails
  rw [asyncWith, List.map_append, List.map_cons, events_nest_failed (enter_returns h) hNot, guard_enters,
    guard_leaves]
  rfl

/-- `__aexit__` with the programs that are listed. -/
theorem aexit_listed {s : State (Managed P)} {task : TaskState} (hRunning : s.running = true)
    (hListed : s.runningPrograms = managed) (hTask : s.task = some task) :
    (s.aexit (exiting managed)).calls = s.calls ++ through halts exitCall managed ∧
      ∃ raised, (s.aexit (exiting managed)).outcome = some (.aexit true raised) ∧
        (raised = none ↔ (∀ m ∈ managed, m.exits = none) ∧ ∀ e, task ≠ .failed e) := by
  have hRaised := exitAll_raised managed
  rw [← exitAll_calls, ← hRaised]
  generalize hLoop : exitAll (exiting managed) managed = loop
  obtain ⟨calls, exs, left⟩ := loop
  simp only [State.aexit, hRunning, if_true, hListed, hLoop, hTask, Option.map_some, Option.bind_some]
  refine ⟨trivial, _, rfl, ?_⟩
  cases left with
  | some e => simp
  | none =>
      by_cases hQuiet : exs = []
      · cases task <;> simp [hQuiet, TaskState.cancelAndAwait]
      · simp [hQuiet]

/-- A benchmarker that has entered all its programs. -/
structure Entered (programs : Dict String (Managed P)) (s : State (Managed P)) : Prop where
  calls : s.calls = programs.values.map fun m => .aenter m m.enters
  running : s.running = true
  listed : s.runningPrograms = programs.values.reverse
  task : s.task = some .pending
  outcome : s.outcome = some (.aenter true none)

theorem benchmarker_entered (h : ∀ m ∈ programs.values, m.enters = none) :
    Entered programs (benchmarker programs) := by
  have hItems : ∀ item ∈ programs.items, item.2.enters = none := fun item hItem =>
    h item.2 (List.mem_map_of_mem hItem)
  have hQuiet : entering programs.values = fun _ => none := raisesOf_none (List.forall_mem_map.mpr h)
  obtain ⟨hEntered, hFailure⟩ := enter_quiet programs.items
  have hCalls := enterCalls_quiet _ hItems
  rw [benchmarker, hQuiet]
  constructor <;> simp [State.aenter, fresh, enterAll_eq, hEntered, hFailure, Dict.values, hCalls]

/-- The task when the body has ended. -/
def taskAfter (programs : Dict String (Managed P)) : Option TaskState :=
  (polls.foldl pollNext (benchmarker programs)).task

theorem pollNext_task {s : State (Managed P)} (hTask : s.task.isSome) (reads : String → CgroupReads) :
    (pollNext s reads).task.isSome := by
  by_cases hPending : s.task = some .pending
  · have hPoll : pollNext s reads = s.poll reads := by simp [pollNext, Benchmark.step, hPending]
    rw [hPoll, State.poll]
    split
    · split
      · exact hTask
      · rfl
    · rfl
  · simpa [pollNext, Benchmark.step, hPending] using hTask

theorem polls_task {s : State (Managed P)} (hTask : s.task.isSome) : (polls.foldl pollNext s).task.isSome := by
  induction polls generalizing s with
  | nil => exact hTask
  | cons reads polls ih => exact ih (pollNext_task hTask reads)

/-- The calls of a benchmarker that enters all its programs, and when it returns. -/
theorem withBenchmarker_entered (h : ∀ m ∈ programs.values, m.enters = none) :
    (withBenchmarker programs polls body).events = programs.values.map (fun m => .aenter m m.enters) ++
        through halts exitCall programs.values.reverse ∧
      ((withBenchmarker programs polls body).Returns ↔
        ((∀ m ∈ programs.values, m.exits = none) ∧ ∀ e, taskAfter polls programs ≠ some (.failed e)) ∧
          body = none) := by
  have hEntered := benchmarker_entered h
  have hStarted : (benchmarker programs).task.isSome := by
    rw [hEntered.task]
    rfl
  obtain ⟨hCalls, hRunning, hListed⟩ := polls_frame polls (benchmarker programs)
  obtain ⟨task, hTask⟩ := Option.isSome_iff_exists.mp (polls_task polls hStarted)
  obtain ⟨hExits, raised, hOutcome, hRaised⟩ :=
    aexit_listed (hRunning.trans hEntered.running) (hListed.trans hEntered.listed) hTask
  simp only [List.mem_reverse] at hRaised
  rw [withBenchmarker, hEntered.outcome]
  simp only [enterable_all h, hExits, hOutcome, taskAfter, hTask, ne_eq, Option.some.injEq]
  refine ⟨by rw [hCalls, hEntered.calls], ?_⟩
  rw [← hRaised]
  cases raised with
  | some e => simp [Returns]
  | none => simp [returns_outcome]

/-- The calls of a benchmarker that does not enter all its programs. It raises. -/
theorem withBenchmarker_failed {e : Exc} (hValues : programs.values = managed ++ m :: rest)
    (h : ∀ m ∈ managed, m.enters = none) (hFails : m.enters = some e) :
    (withBenchmarker programs polls body).events =
        managed.map (fun m => .aenter m m.enters) ++ [.aenter m m.enters] ++
          (if e.isa .exception then through (fun m => m.exits.isSome) exitCall managed.reverse else []) ∧
      ¬(withBenchmarker programs polls body).Returns := by
  obtain ⟨before, items, hItems, hBefore, hRest⟩ := List.map_eq_append_iff.mp hValues
  obtain ⟨item, after, rfl, rfl, -⟩ := List.map_eq_cons_iff.mp hRest
  have hLength : before.length = managed.length := by rw [← hBefore, List.length_map]
  have hEnters : ∀ i < before.length, entering programs.values i = none := by
    intro i hi
    rw [hLength] at hi
    have hMapped : i < (managed.map enters).length := by rwa [List.length_map]
    rw [entering, raisesOf, hValues, List.map_append, List.getElem?_append_left hMapped]
    simp [List.getElem?_eq_getElem hi, h _ (List.getElem_mem hi)]
  have hFailing : entering programs.values before.length = some e := by
    simp [entering, raisesOf, hValues, hLength, hFails]
  obtain ⟨hEntered, hFailure, hCalls⟩ := enter_failed item after hEnters hFailing
  have hMap : (before.map fun item => Call.aenter item.2 none) = managed.map fun m => .aenter m m.enters := by
    rw [← hBefore, List.map_map]
    exact List.map_congr_left fun item hItem => by
      simp [h item.2 (hBefore ▸ List.mem_map_of_mem hItem)]
  have hEnterable : enterable programs.values = managed := by rw [hValues, enterable_failed h hFails]
  have hEnd : (benchmarker programs).calls = managed.map (fun m => .aenter m m.enters) ++ [.aenter item.2 item.2.enters] ++
      (if e.isa .exception then through (fun m => m.exits.isSome) exitCall managed.reverse else []) ∧
      ∃ raised, (benchmarker programs).outcome = some (.aenter true (some raised)) := by
    rw [benchmarker, hEnterable, ← unwindAll_calls, ← hMap, hFails]
    cases hException : e.isa .exception <;>
      simp [State.aenter, fresh, enterAll_eq, hItems, hEntered, hFailure, hCalls, hException, hBefore]
  obtain ⟨hEvents, raised, hOutcome⟩ := hEnd
  rw [withBenchmarker, hOutcome]
  exact ⟨hEvents, fun hReturns => by simp [Returns] at hReturns⟩

end Blocks

/-- Nothing of what is entered is left over when the benchmarker is left. -/
def Whole (managed : List (Managed P)) : Prop :=
  match managed.findSome? enters with
  | none => ∀ m ∈ managed.tail, m.halts = false
  | some e => if e.isa .exception then ∀ m ∈ (enterable managed).tail, m.exits = none else enterable managed = []

theorem through_reverse {stops : Managed P → Bool} {managed : List (Managed P)} :
    through stops exitCall managed.reverse = managed.reverse.map exitCall ↔
      ∀ m ∈ managed.tail, stops m = false := by
  rw [through_eq_map, List.dropLast_reverse]
  simp only [List.mem_reverse]

/-- `async with Benchmarker(programs)` calls its programs as `async with` around each of them would,
as far as it gets; it gets to the end exactly if it is `Whole`, and it returns where the blocks
would, unless its polling task has failed. -/
theorem benchmarker_follows_blocks (programs : Dict String (Managed P)) (polls : List (String → CgroupReads))
    (body : Option Exc) :
    (withBenchmarker programs polls body).events <+: (asyncWith programs.values body).events ∧
      ((withBenchmarker programs polls body).events = (asyncWith programs.values body).events ↔
        Whole programs.values) ∧
      ((withBenchmarker programs polls body).Returns ↔ (asyncWith programs.values body).Returns ∧
        ∀ e, taskAfter polls programs ≠ some (.failed e)) := by
  cases hFailure : programs.values.findSome? enters with
  | none =>
      have hEnters : ∀ m ∈ programs.values, m.enters = none := List.findSome?_eq_none_iff.mp hFailure
      obtain ⟨hEvents, hReturns⟩ := withBenchmarker_entered polls body hEnters
      rw [hEvents, hReturns, events_asyncWith body hEnters, returns_asyncWith]
      refine ⟨?_, ?_, ?_⟩
      · exact (List.prefix_append_right_inj _).mpr (through_initial _ _ _)
      · rw [List.append_cancel_left_eq, through_reverse, Whole, hFailure]
      · constructor
        · rintro ⟨⟨hExits, hTask⟩, hBody⟩
          exact ⟨⟨fun m hm => ⟨hEnters m hm, hExits m hm⟩, hBody⟩, hTask⟩
        · rintro ⟨⟨hQuiet, hBody⟩, hTask⟩
          exact ⟨⟨fun m hm => (hQuiet m hm).2, hTask⟩, hBody⟩
  | some e =>
      obtain ⟨managed, m, rest, hValues, hFails, hEnters⟩ := List.findSome?_eq_some_iff.mp hFailure
      obtain ⟨hEvents, hRaises⟩ := withBenchmarker_failed polls body hValues hEnters hFails
      have hEnterable : enterable programs.values = managed := by rw [hValues, enterable_failed hEnters hFails]
      rw [hEvents, Whole, hFailure, hEnterable]
      simp only
      rw [hValues, events_asyncWith_failed body hEnters hFails]
      refine ⟨(List.prefix_append_right_inj _).mpr ?_, ?_, ?_⟩
      · split
        · exact through_initial _ _ _
        · exact List.nil_prefix
      · rw [List.append_cancel_left_eq]
        cases hException : e.isa .exception
        · rw [if_neg Bool.false_ne_true, if_neg Bool.false_ne_true, eq_comm, List.map_eq_nil_iff,
            List.reverse_eq_nil_iff]
        · rw [if_pos rfl, if_pos rfl, through_reverse]
          simp
      · refine iff_of_false hRaises fun ⟨hReturns, _⟩ => ?_
        rw [returns_asyncWith] at hReturns
        have := (hReturns.1 m (by simp)).1
        rw [hFails] at this
        cases this

end Managed

end MirCi.Benchmark
