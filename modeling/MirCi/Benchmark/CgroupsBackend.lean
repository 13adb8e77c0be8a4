import MirCi.Python.Dict
import MirCi.Python.Float

/-! `CgroupsBackend`: one record per program name, updated by `poll` and read
out by `generate_report`. What the programs and their cgroups answer is an input
of every poll; the same program may be recorded under several names. -/
namespace MirCi.Benchmark

open Python

/-- `CgroupsBackend.ProcessInfo`. -/
structure ProcessInfo (P : Type) where
  program : P
  cpuTimeMicroseconds : ℤ := 0
  memBytesAccumulator : ℤ := 0
  memBytesMax : ℤ := 0
  numDataPoints : ℤ := 0
  deriving DecidableEq

/-- The answers one poll gets for one record: `get_cgroup` and the three
readers of the cgroup it returned. -/
structure CgroupReads where
  getCgroup : Except Exc Unit
  getCpuTimeMicroseconds : Except Exc ℤ
  getCurrentMemory : Except Exc ℤ
  getPeakMemory : Except Exc ℤ

/-- The body of the outer `try` and its `else`. Only a `RuntimeError` of the
peak reader is handled here. -/
def ProcessInfo.sample {P : Type} (info : ProcessInfo P) (reads : CgroupReads) :
    Except Exc (ProcessInfo P) := do
  reads.getCgroup
  let cpuMs ← reads.getCpuTimeMicroseconds
  let memCurrent ← reads.getCurrentMemory
  let memMax ← match reads.getPeakMemory with
    | .ok memMax => .ok memMax
    | .error ex =>
        if ex.isa .runtimeError then .ok (max info.memBytesMax memCurrent) else .error ex
  return { info with
    cpuTimeMicroseconds := cpuMs
    memBytesAccumulator := info.memBytesAccumulator + memCurrent
    memBytesMax := memMax
    numDataPoints := info.numDataPoints + 1 }

/-- A turn of the loop over the records: the record afterwards and the warning
issued, or the exception that leaves the loop. -/
def ProcessInfo.poll {P : Type} (info : ProcessInfo P) (reads : CgroupReads) :
    Except Exc (ProcessInfo P × List String) :=
  match info.sample reads with
  | .ok sampled => .ok (sampled, [])
  | .error ex =>
      if ex.isa .runtimeError then
        .ok (info, ["Ignoring cgroup read failure: " ++ ex.text])
      else .error ex

structure CgroupsBackend (P : Type) where
  dataRecords : Dict String (ProcessInfo P) := .empty
  deriving DecidableEq

/-- What a poll leaves behind. -/
structure Polled (P : Type) where
  items : List (String × ProcessInfo P)
  warnings : List String := []
  raised : Option Exc := none
  deriving DecidableEq

variable {P : Type}

/-- The loop over the records. Those behind the one that raises stay unread. -/
def pollItems (reads : String → CgroupReads) : List (String × ProcessInfo P) → Polled P
  | [] => { items := [] }
  | (name, info) :: rest =>
      match info.poll (reads name) with
      | .ok (polled, warned) =>
          let after := pollItems reads rest
          { after with items := (name, polled) :: after.items, warnings := warned ++ after.warnings }
      | .error ex => { items := (name, info) :: rest, raised := some ex }

theorem pollItems_keys (reads : String → CgroupReads) (items : List (String × ProcessInfo P)) :
    (pollItems reads items).items.map Prod.fst = items.map Prod.fst := by
  induction items with
  | nil => rfl
  | cons item rest ih =>
      simp only [pollItems]
      split
      · simpa using ih
      · rfl

namespace CgroupsBackend

def add (b : CgroupsBackend P) (name : String) (program : P) : CgroupsBackend P :=
  { b with dataRecords := b.dataRecords.set name { program := program } }

/-- `poll`: the backend afterwards, the warnings, and the exception it raised. -/
def poll (b : CgroupsBackend P) (reads : String → CgroupReads) :
    CgroupsBackend P × List String × Option Exc :=
  let polled := pollItems reads b.dataRecords.items
  ({ b with dataRecords := ⟨polled.items, by
      rw [pollItems_keys]
      exact b.dataRecords.nodup⟩ }, polled.warnings, polled.raised)

/-- The loop of `generate_report`, entered with the entries reported so far. -/
def reportItems : List (String × ProcessInfo P) → Dict String ℤ → Except Exc (Dict String ℤ)
  | [], result => .ok result
  | (name, info) :: rest, result =>
      if info.cpuTimeMicroseconds ≠ 0 ∧ info.memBytesMax ≠ 0 ∧ info.memBytesAccumulator ≠ 0 ∧
          info.numDataPoints ≠ 0 then do
        let average ← trueDiv info.memBytesAccumulator info.numDataPoints
        reportItems rest
          (((result.set (name ++ "_cpu_time_microseconds") info.cpuTimeMicroseconds).set
            (name ++ "_max_mem_bytes") info.memBytesMax).set
            (name ++ "_avg_mem_bytes") (truncate average))
      else
        .error { cls := .runtimeError
                 text := "Failed to collect benchmarking data for " ++ name }

def generateReport (b : CgroupsBackend P) : Except Exc (Dict String ℤ) :=
  reportItems b.dataRecords.items .empty

end CgroupsBackend

theorem ProcessInfo.sample_of_no_cgroup {info : ProcessInfo P} {reads : CgroupReads} {e : Exc}
    (h : reads.getCgroup = .error e) : info.sample reads = .error e := by
  rw [ProcessInfo.sample, h]
  rfl

/-- Whatever a sample raises, one of the four answers raised. -/
theorem ProcessInfo.sample_raised {info : ProcessInfo P} {reads : CgroupReads} {e : Exc}
    (h : info.sample reads = .error e) :
    reads.getCgroup = .error e ∨ reads.getCpuTimeMicroseconds = .error e ∨
      reads.getCurrentMemory = .error e ∨ reads.getPeakMemory = .error e := by
  obtain ⟨getCgroup, cpu, current, peak⟩ := reads
  cases getCgroup with
  | error raised =>
      cases h
      exact .inl rfl
  | ok u =>
      cases cpu with
      | error raised =>
          cases h
          exact .inr (.inl rfl)
      | ok cpuMs =>
          cases current with
          | error raised =>
              cases h
              exact .inr (.inr (.inl rfl))
          | ok memCurrent =>
              cases peak with
              | ok memMax => cases h
              | error raised =>
                  simp only [ProcessInfo.sample, bind, Except.bind] at h
                  split at h <;> cases h
                  exact .inr (.inr (.inr rfl))

/-- A turn of the loop changes a record only by a sample, and what leaves it is
no `RuntimeError`. -/
theorem ProcessInfo.poll_cases (info : ProcessInfo P) (reads : CgroupReads) :
    (∃ sampled, info.sample reads = .ok sampled ∧ info.poll reads = .ok (sampled, [])) ∨
    (∃ ex, info.sample reads = .error ex ∧ ex.isa .runtimeError = true ∧
      info.poll reads = .ok (info, ["Ignoring cgroup read failure: " ++ ex.text])) ∨
    (∃ ex, info.sample reads = .error ex ∧ ex.isa .runtimeError = false ∧
      info.poll reads = .error ex) := by
  unfold ProcessInfo.poll
  cases hSample : info.sample reads with
  | ok sampled => exact .inl ⟨sampled, rfl, rfl⟩
  | error ex =>
      by_cases hRuntime : ex.isa .runtimeError = true
      · exact .inr (.inl ⟨ex, rfl, hRuntime, by simp [hRuntime]⟩)
      · exact .inr (.inr ⟨ex, rfl, by simpa using hRuntime, by simp [hRuntime]⟩)

/-- The record after a turn that the loop survives. -/
def ProcessInfo.polled (info : ProcessInfo P) (reads : CgroupReads) : ProcessInfo P :=
  match info.sample reads with
  | .ok sampled => sampled
  | .error _ => info

theorem ProcessInfo.poll_fst {info : ProcessInfo P} {reads : CgroupReads}
    {result : ProcessInfo P × List String} (h : info.poll reads = .ok result) :
    result.1 = info.polled reads := by
  obtain ⟨sampled, hSample, hPoll⟩ | ⟨ex, hSample, -, hPoll⟩ | ⟨ex, -, -, hPoll⟩ :=
    info.poll_cases reads
  · rw [hPoll] at h
    cases h
    simp [ProcessInfo.polled, hSample]
  · rw [hPoll] at h
    cases h
    simp [ProcessInfo.polled, hSample]
  · rw [hPoll] at h
    cases h

/-- A poll in which no record's turn raises handles every record, each on its own
answers. -/
theorem pollItems_of_survive {reads : String → CgroupReads} {items : List (String × ProcessInfo P)}
    (h : ∀ item ∈ items, ∃ result, item.2.poll (reads item.1) = .ok result) :
    (pollItems reads items).items = items.map (fun item => (item.1, item.2.polled (reads item.1))) ∧
      (pollItems reads items).raised = none := by
  induction items with
  | nil => exact ⟨rfl, rfl⟩
  | cons item rest ih =>
      obtain ⟨name, info⟩ := item
      obtain ⟨result, hPoll⟩ := h (name, info) (by simp)
      obtain ⟨hItems, hRaised⟩ := ih fun item hItem => h item (List.mem_cons_of_mem _ hItem)
      have hFst := ProcessInfo.poll_fst hPoll
      rw [List.map_cons, ← hItems, ← hFst]
      simp only [pollItems, hPoll]
      exact ⟨trivial, hRaised⟩

/-- A poll raises as soon as one record's turn does. -/
theorem pollItems_raised_iff (reads : String → CgroupReads) (items : List (String × ProcessInfo P)) :
    (pollItems reads items).raised = none ↔
      ∀ item ∈ items, ∃ result, item.2.poll (reads item.1) = .ok result := by
  constructor
  · intro h
    induction items with
    | nil => simp
    | cons item rest ih =>
        simp only [pollItems] at h
        split at h
        · rename_i result warned hPoll
          exact List.forall_mem_cons.mpr ⟨⟨_, hPoll⟩, ih h⟩
        · cases h
  · intro h
    exact (pollItems_of_survive h).2

theorem CgroupsBackend.poll_of_survive {b : CgroupsBackend P} {reads : String → CgroupReads}
    (h : ∀ item ∈ b.dataRecords.items, ∃ result, item.2.poll (reads item.1) = .ok result) :
    (b.poll reads).1.dataRecords = b.dataRecords.mapValues (fun name info =>
      info.polled (reads name)) ∧ (b.poll reads).2.2 = none := by
  obtain ⟨hItems, hRaised⟩ := pollItems_of_survive h
  exact ⟨Dict.ext hItems, hRaised⟩

end MirCi.Benchmark
