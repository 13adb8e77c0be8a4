import MirCi.Benchmark.CgroupsBackend

/-! What the records of a `CgroupsBackend` say about the polls so far, when every
reader gives a natural number or raises `RuntimeError`. A record is a fold over
the readings of its own program; no other program enters into it. -/
namespace MirCi.Benchmark

open Python

/-- A reading, or the text of the `RuntimeError` raised instead. -/
abbrev Reading := Except String ℕ

/-- The readings of one program in one poll. -/
structure Readings where
  cpu : Reading
  current : Reading
  peak : Reading

def Reading.answer : Reading → Except Exc ℤ
  | .ok n => .ok n
  | .error text => .error { cls := .runtimeError, text := text }

def Readings.answers (r : Readings) : CgroupReads where
  getCgroup := .ok ()
  getCpuTimeMicroseconds := Reading.answer r.cpu
  getCurrentMemory := Reading.answer r.current
  getPeakMemory := Reading.answer r.peak

/-- The cpu and current readings of a poll in which both succeeded. -/
def Readings.counted (r : Readings) : Option (ℕ × ℕ) :=
  match r.cpu, r.current with
  | .ok cpu, .ok current => some (cpu, current)
  | _, _ => none

/-- The peak reading of such a poll, the only one that is taken. -/
def Readings.peakTaken (r : Readings) : Option ℕ :=
  match r.counted, r.peak with
  | some _, .ok peak => some peak
  | _, _ => none

def counts (history : List Readings) : List (ℕ × ℕ) := history.filterMap Readings.counted

def peaks (history : List Readings) : List ℕ := history.filterMap Readings.peakTaken

/-- Every peak taken is at least every current reading counted so far and every
earlier peak. -/
def PeaksDominate (history : List Readings) : Prop :=
  ∀ earlier r later peak, history = earlier ++ r :: later → r.peakTaken = some peak →
    (∀ count ∈ counts (earlier ++ [r]), count.2 ≤ peak) ∧ ∀ old ∈ peaks earlier, old ≤ peak

/-- What a record says after the readings in `history`. -/
structure Accounts {P : Type} (history : List Readings) (info : ProcessInfo P) : Prop where
  numDataPoints : info.numDataPoints = (counts history).length
  memBytesAccumulator : info.memBytesAccumulator = ((counts history).map Prod.snd).sum
  cpuTimeMicroseconds : info.cpuTimeMicroseconds =
    (((counts history).map Prod.fst).getLast?.getD 0 : ℕ)

/-- Where the recorded maximum lies between the readings in `history`. -/
structure MaxBetween (history : List Readings) (memBytesMax : ℤ) : Prop where
  below : ∀ bound : ℕ, (∀ count ∈ counts history, count.2 ≤ bound) →
    (∀ peak ∈ peaks history, peak ≤ bound) → memBytesMax ≤ bound
  above : PeaksDominate history → ∀ count ∈ counts history, (count.2 : ℤ) ≤ memBytesMax

variable {P : Type}

/-- The record of a program polled through `history`. -/
def recordOf (program : P) (history : List Readings) : ProcessInfo P :=
  history.foldl (fun info r => info.polled r.answers) { program := program }

theorem recordOf_append (program : P) (history : List Readings) (r : Readings) :
    recordOf program (history ++ [r]) = (recordOf program history).polled r.answers := by
  simp [recordOf]

theorem sample_of_not_counted (info : ProcessInfo P) {r : Readings} (h : r.counted = none) :
    ∃ text, info.sample r.answers = .error { cls := .runtimeError, text := text } := by
  obtain ⟨cpu, current, peak⟩ := r
  cases cpu with
  | error text => exact ⟨text, rfl⟩
  | ok cpu =>
      cases current with
      | error text => exact ⟨text, rfl⟩
      | ok current => cases h

/-- A counted poll records the kernel's peak when that was read; otherwise the
maximum runs over the current readings. -/
theorem sample_of_counted {info : ProcessInfo P} {r : Readings} {cpu current : ℕ}
    (h : r.counted = some (cpu, current)) :
    info.sample r.answers = .ok
      { info with
        cpuTimeMicroseconds := cpu
        memBytesAccumulator := info.memBytesAccumulator + current
        memBytesMax := match r.peakTaken with
          | some peak => peak
          | none => max info.memBytesMax current
        numDataPoints := info.numDataPoints + 1 } := by
  rw [Readings.peakTaken, h]
  obtain ⟨cpuRead, currentRead, peak⟩ := r
  cases cpuRead <;> cases currentRead <;> cases h
  cases peak <;> rfl

/-- No reading makes a record's turn raise. -/
theorem poll_answers (info : ProcessInfo P) (r : Readings) :
    ∃ result, info.poll r.answers = .ok result := by
  unfold ProcessInfo.poll
  cases hCounted : r.counted with
  | none =>
      obtain ⟨text, hSample⟩ := sample_of_not_counted info hCounted
      rw [hSample]
      exact ⟨_, rfl⟩
  | some count =>
      obtain ⟨cpu, current⟩ := count
      rw [sample_of_counted hCounted]
      exact ⟨_, rfl⟩

theorem polled_of_not_counted {info : ProcessInfo P} {r : Readings} (h : r.counted = none) :
    info.polled r.answers = info := by
  obtain ⟨text, hSample⟩ := sample_of_not_counted info h
  simp [ProcessInfo.polled, hSample]

theorem polled_of_counted {info : ProcessInfo P} {r : Readings} {cpu current : ℕ}
    (h : r.counted = some (cpu, current)) :
    info.polled r.answers =
      { info with
        cpuTimeMicroseconds := cpu
        memBytesAccumulator := info.memBytesAccumulator + current
        memBytesMax := match r.peakTaken with
          | some peak => peak
          | none => max info.memBytesMax current
        numDataPoints := info.numDataPoints + 1 } := by
  rw [ProcessInfo.polled, sample_of_counted h]

theorem recordOf_program (program : P) (history : List Readings) :
    (recordOf program history).program = program := by
  induction history using List.reverseRecOn with
  | nil => rfl
  | append_singleton history r ih =>
      rw [recordOf_append]
      cases hCounted : r.counted with
      | none => rw [polled_of_not_counted hCounted, ih]
      | some count =>
          obtain ⟨cpu, current⟩ := count
          rw [polled_of_counted hCounted, ih]

theorem counts_append (history : List Readings) (r : Readings) :
    counts (history ++ [r]) = counts history ++ r.counted.toList := by
  rw [counts, List.filterMap_append]
  cases h : r.counted <;> simp [counts, h]

theorem peaks_append (history : List Readings) (r : Readings) :
    peaks (history ++ [r]) = peaks history ++ r.peakTaken.toList := by
  rw [peaks, List.filterMap_append]
  cases h : r.peakTaken <;> simp [peaks, h]

theorem peakTaken_of_not_counted {r : Readings} (h : r.counted = none) : r.peakTaken = none := by
  simp [Readings.peakTaken, h]

theorem PeaksDominate.of_append {history : List Readings} {r : Readings}
    (h : PeaksDominate (history ++ [r])) : PeaksDominate history := by
  intro earlier q later peak hSplit hTaken
  exact h earlier q (later ++ [r]) peak (by simp [hSplit]) hTaken

/-- The books of a record after one more poll. -/
theorem Accounts.step {history : List Readings} {info : ProcessInfo P} (h : Accounts history info)
    (r : Readings) : Accounts (history ++ [r]) (info.polled r.answers) := by
  cases hCounted : r.counted with
  | none =>
      rw [polled_of_not_counted hCounted]
      constructor
      · simpa [counts_append, hCounted] using h.numDataPoints
      · simpa [counts_append, hCounted] using h.memBytesAccumulator
      · simpa [counts_append, hCounted] using h.cpuTimeMicroseconds
  | some count =>
      obtain ⟨cpu, current⟩ := count
      rw [polled_of_counted hCounted]
      constructor
      · simp [counts_append, hCounted, h.numDataPoints]
      · simp [counts_append, hCounted, h.memBytesAccumulator]
      · simp [counts_append, hCounted]

theorem accounts_recordOf (program : P) (history : List Readings) :
    Accounts history (recordOf program history) := by
  induction history using List.reverseRecOn with
  | nil => exact ⟨rfl, rfl, rfl⟩
  | append_singleton history r ih =>
      rw [recordOf_append]
      exact ih.step r

/-- One more poll moves the maximum within its bounds. -/
theorem MaxBetween.step {history : List Readings} {info : ProcessInfo P}
    (h : MaxBetween history info.memBytesMax) (r : Readings) :
    MaxBetween (history ++ [r]) (info.polled r.answers).memBytesMax := by
  cases hCounted : r.counted with
  | none =>
      have hTaken := peakTaken_of_not_counted hCounted
      have hCounts : counts (history ++ [r]) = counts history := by simp [counts_append, hCounted]
      have hPeaks : peaks (history ++ [r]) = peaks history := by simp [peaks_append, hTaken]
      rw [polled_of_not_counted hCounted]
      constructor
      · rw [hCounts, hPeaks]
        exact h.below
      · intro hDominate
        rw [hCounts]
        exact h.above hDominate.of_append
  | some count =>
      obtain ⟨cpu, current⟩ := count
      have hCounts : counts (history ++ [r]) = counts history ++ [(cpu, current)] := by
        simp [counts_append, hCounted]
      rw [polled_of_counted hCounted]
      cases hTaken : r.peakTaken with
      | some peak =>
          constructor
          · intro bound _ hPeaks
            have hPeak : peak ≤ bound := hPeaks peak (by simp [peaks_append, hTaken])
            exact Int.ofNat_le.mpr hPeak
          · intro hDominate count hCount
            have hBelow := (hDominate history r [] peak rfl hTaken).1 count hCount
            exact Int.ofNat_le.mpr hBelow
      | none =>
          have hPeaks : peaks (history ++ [r]) = peaks history := by simp [peaks_append, hTaken]
          constructor
          · intro bound hCurrents hPeakBound
            rw [hCounts] at hCurrents
            rw [hPeaks] at hPeakBound
            have hOld := h.below bound
              (fun count hCount => hCurrents count (List.mem_append_left _ hCount)) hPeakBound
            have hNew : current ≤ bound := hCurrents (cpu, current) (by simp)
            simp only
            omega
          · intro hDominate count hCount
            rw [hCounts, List.mem_append, List.mem_singleton] at hCount
            simp only
            rcases hCount with hOld | rfl
            · have hAbove := h.above hDominate.of_append count hOld
              omega
            · omega

theorem maxBetween_recordOf (program : P) (history : List Readings) :
    MaxBetween history (recordOf program history).memBytesMax := by
  induction history using List.reverseRecOn with
  | nil =>
      constructor
      · intro bound _ _
        exact Int.natCast_nonneg bound
      · intro _ count hCount
        simp [counts] at hCount
  | append_singleton history r ih =>
      rw [recordOf_append]
      exact ih.step r

/-- While the peaks dominate, one more poll never lowers the maximum. -/
theorem max_step (program : P) {history : List Readings} {r : Readings}
    (hDominate : PeaksDominate (history ++ [r])) :
    (recordOf program history).memBytesMax ≤ (recordOf program (history ++ [r])).memBytesMax := by
  rw [recordOf_append]
  cases hCounted : r.counted with
  | none => rw [polled_of_not_counted hCounted]
  | some count =>
      obtain ⟨cpu, current⟩ := count
      rw [polled_of_counted hCounted]
      cases hTaken : r.peakTaken with
      | some peak =>
          obtain ⟨hCurrents, hPeaks⟩ := hDominate history r [] peak rfl hTaken
          apply (maxBetween_recordOf program history).below peak _ hPeaks
          intro old hOld
          exact hCurrents old (by simp [counts_append, hOld])
      | none => exact le_max_left _ _

theorem max_monotone (program : P) {earlier history : List Readings}
    (hPrefix : earlier <+: history) (hDominate : PeaksDominate history) :
    (recordOf program earlier).memBytesMax ≤ (recordOf program history).memBytesMax := by
  obtain ⟨later, rfl⟩ := hPrefix
  induction later using List.reverseRecOn with
  | nil => simp
  | append_singleton later r ih =>
      rw [← List.append_assoc] at hDominate ⊢
      exact (ih hDominate.of_append).trans (max_step program hDominate)

/-- A fresh backend to which the programs were added in order. -/
def enlist (programs : Dict String P) : CgroupsBackend P :=
  programs.items.foldl (fun b item => b.add item.1 item.2) {}

/-- `poll` once for every element of `polls`. -/
def pollAll (b : CgroupsBackend P) (polls : List (String → Readings)) : CgroupsBackend P :=
  polls.foldl (fun b readings => (b.poll fun name => (readings name).answers).1) b

theorem poll_readings (b : CgroupsBackend P) (readings : String → Readings) :
    (b.poll fun name => (readings name).answers).1.dataRecords =
        b.dataRecords.mapValues (fun name info => info.polled (readings name).answers) ∧
      (b.poll fun name => (readings name).answers).2.2 = none :=
  CgroupsBackend.poll_of_survive fun item _ => poll_answers item.2 (readings item.1)

/-- Adding programs under new names appends one empty record for each. -/
theorem enlist_items (items : List (String × P)) (b : CgroupsBackend P)
    (hNodup : (b.dataRecords.keys ++ items.map Prod.fst).Nodup) :
    (items.foldl (fun b item => b.add item.1 item.2) b).dataRecords.items =
      b.dataRecords.items ++ items.map fun item => (item.1, { program := item.2 }) := by
  induction items generalizing b with
  | nil => simp
  | cons item rest ih =>
      have hNew : item.1 ∉ b.dataRecords.keys := by
        intro hOld
        exact (List.nodup_append.mp hNodup).2.2 _ hOld _ (by simp) rfl
      have hKeys : (b.add item.1 item.2).dataRecords.keys = b.dataRecords.keys ++ [item.1] :=
        Dict.keys_set_of_notMem _ hNew
      have hItems : (b.add item.1 item.2).dataRecords.items =
          b.dataRecords.items ++ [(item.1, { program := item.2 })] :=
        Dict.items_set_of_notMem _ hNew
      rw [List.foldl_cons, ih _ (by simpa [hKeys] using hNodup), hItems]
      simp

theorem enlist_records (programs : Dict String P) :
    (enlist programs).dataRecords = programs.mapValues fun _ program => { program := program } := by
  apply Dict.ext
  exact enlist_items programs.items {} (by simpa using programs.nodup)

/-- After any polls every record is the fold over its own program's readings. -/
theorem pollAll_records (programs : Dict String P) (polls : List (String → Readings)) :
    (pollAll (enlist programs) polls).dataRecords =
      programs.mapValues fun name program => recordOf program (polls.map fun readings => readings name) := by
  induction polls using List.reverseRecOn with
  | nil => exact enlist_records programs
  | append_singleton polls readings ih =>
      have hLast : pollAll (enlist programs) (polls ++ [readings]) =
          ((pollAll (enlist programs) polls).poll fun name => (readings name).answers).1 := by
        simp [pollAll]
      rw [hLast, (poll_readings _ _).1, ih]
      apply Dict.ext
      simp [Dict.mapValues, recordOf_append]

def reportKeys (name : String) : List String :=
  [name ++ "_cpu_time_microseconds", name ++ "_max_mem_bytes", name ++ "_avg_mem_bytes"]

/-- Texts with different endings differ, whatever stands before the endings. -/
theorem append_ne_append {s t : String} (n : ℕ) (hs : n ≤ s.toList.length)
    (ht : n ≤ t.toList.length) (h : s.toList.reverse.take n ≠ t.toList.reverse.take n)
    (a b : String) : a ++ s ≠ b ++ t := by
  intro hEq
  have hEnds := congrArg (fun text => text.toList.reverse.take n) hEq
  simp only [String.toList_append, List.reverse_append] at hEnds
  rw [List.take_append_of_le_length (by simpa using hs),
    List.take_append_of_le_length (by simpa using ht)] at hEnds
  exact h hEnds

theorem cpu_ne_max (a b : String) : a ++ "_cpu_time_microseconds" ≠ b ++ "_max_mem_bytes" :=
  append_ne_append 14 (by decide) (by decide) (by decide) a b

theorem cpu_ne_avg (a b : String) : a ++ "_cpu_time_microseconds" ≠ b ++ "_avg_mem_bytes" :=
  append_ne_append 14 (by decide) (by decide) (by decide) a b

theorem max_ne_avg (a b : String) : a ++ "_max_mem_bytes" ≠ b ++ "_avg_mem_bytes" :=
  append_ne_append 14 (by decide) (by decide) (by decide) a b

/-- A report key names its program. -/
theorem reportKeys_inj {a b key : String} (ha : key ∈ reportKeys a) (hb : key ∈ reportKeys b) :
    a = b := by
  simp only [reportKeys, List.mem_cons, List.not_mem_nil, or_false] at ha hb
  rcases ha with rfl | rfl | rfl <;> rcases hb with h | h | h
  · exact (String.append_left_inj _).mp h
  · exact absurd h (cpu_ne_max a b)
  · exact absurd h (cpu_ne_avg a b)
  · exact absurd h.symm (cpu_ne_max b a)
  · exact (String.append_left_inj _).mp h
  · exact absurd h (max_ne_avg a b)
  · exact absurd h.symm (cpu_ne_avg b a)
  · exact absurd h.symm (max_ne_avg b a)
  · exact (String.append_left_inj _).mp h

/-- A report that comes about lists the three keys of every record, in order. -/
theorem reportItems_keys {items : List (String × ProcessInfo P)} {result report : Dict String ℤ}
    (hNodup : (items.map Prod.fst).Nodup)
    (hFresh : ∀ item ∈ items, ∀ key ∈ reportKeys item.1, key ∉ result.keys)
    (h : CgroupsBackend.reportItems items result = .ok report) :
    report.keys = result.keys ++ items.flatMap fun item => reportKeys item.1 := by
  induction items generalizing result with
  | nil =>
      cases h
      simp
  | cons item rest ih =>
      obtain ⟨name, info⟩ := item
      rw [List.map_cons, List.nodup_cons] at hNodup
      obtain ⟨hName, hRest⟩ := hNodup
      simp only [CgroupsBackend.reportItems] at h
      split at h
      · cases hAverage : trueDiv info.memBytesAccumulator info.numDataPoints with
        | error ex => simp [hAverage, bind, Except.bind] at h
        | ok average =>
            simp only [hAverage, bind, Except.bind] at h
            have hNew : ∀ key ∈ reportKeys name, key ∉ result.keys := hFresh (name, info) (by simp)
            simp only [reportKeys, List.forall_mem_cons] at hNew
            obtain ⟨hCpu, hMax, hAvg, -⟩ := hNew
            let withCpu := result.set (name ++ "_cpu_time_microseconds") info.cpuTimeMicroseconds
            let withMax := withCpu.set (name ++ "_max_mem_bytes") info.memBytesMax
            let withAvg := withMax.set (name ++ "_avg_mem_bytes") (truncate average)
            have hKeysCpu : withCpu.keys = result.keys ++ [name ++ "_cpu_time_microseconds"] :=
              Dict.keys_set_of_notMem _ hCpu
            have hKeysMax : withMax.keys = withCpu.keys ++ [name ++ "_max_mem_bytes"] :=
              Dict.keys_set_of_notMem _ (by simp [hKeysCpu, hMax, (cpu_ne_max _ _).symm])
            have hKeysAvg : withAvg.keys = withMax.keys ++ [name ++ "_avg_mem_bytes"] :=
              Dict.keys_set_of_notMem _ (by
                simp [hKeysMax, hKeysCpu, hAvg, (cpu_ne_avg _ _).symm, (max_ne_avg _ _).symm])
            have hKeys : withAvg.keys = result.keys ++ reportKeys name := by
              simp [hKeysAvg, hKeysMax, hKeysCpu, reportKeys]
            have hStill : ∀ item ∈ rest, ∀ key ∈ reportKeys item.1, key ∉ withAvg.keys := by
              intro item hItem key hKey hMem
              rw [hKeys, List.mem_append] at hMem
              rcases hMem with hOld | hOwn
              · exact hFresh item (List.mem_cons_of_mem _ hItem) key hKey hOld
              · apply hName
                rw [reportKeys_inj hOwn hKey]
                exact List.mem_map.mpr ⟨item, hItem, rfl⟩
            have hTail := ih hRest hStill h
            rw [hTail, hKeys, List.flatMap_cons, List.append_assoc]
      · cases h

/-- The accounts after any polls: the records are the folds of the readings of
their own programs, and a report has three entries for each. -/
theorem polls_account (programs : Dict String P) (polls : List (String → Readings)) :
    (∀ readings : String → Readings, ((pollAll (enlist programs) polls).poll fun name =>
      (readings name).answers).2.2 = none) ∧
    (pollAll (enlist programs) polls).dataRecords.keys = programs.keys ∧
    (∀ name program, programs.get? name = some program →
      ∃ info, (pollAll (enlist programs) polls).dataRecords.get? name = some info ∧
        info.program = program ∧
        Accounts (polls.map fun readings => readings name) info ∧
        (pollAll (CgroupsBackend.add {} name program) polls).dataRecords.get? name = some info ∧
        (∀ readings : String → Readings, (readings name).counted = none →
          (pollAll (enlist programs) (polls ++ [readings])).dataRecords.get? name = some info) ∧
        (PeaksDominate (polls.map fun readings => readings name) →
          (∀ count ∈ counts (polls.map fun readings => readings name),
            (count.2 : ℤ) ≤ info.memBytesMax) ∧
          (∀ earlier before, earlier <+: polls →
            (pollAll (enlist programs) earlier).dataRecords.get? name = some before →
              before.memBytesMax ≤ info.memBytesMax))) ∧
    (∀ report, (pollAll (enlist programs) polls).generateReport = .ok report →
      report.keys = programs.keys.flatMap reportKeys ∧ report.keys.Nodup) := by
  have hRecords := pollAll_records programs polls
  refine ⟨fun readings => (poll_readings _ readings).2, by simp [hRecords], ?_, ?_⟩
  · intro name program hProgram
    have hGet : ∀ later : List (String → Readings),
        (pollAll (enlist programs) later).dataRecords.get? name =
          some (recordOf program (later.map fun readings => readings name)) := by
      intro later
      simp [pollAll_records, hProgram]
    refine ⟨_, hGet polls, ?_, accounts_recordOf program _, ?_, ?_, ?_⟩
    · exact recordOf_program program _
    · have hAlone := pollAll_records (Dict.empty.set name program) polls
      have hEnlist : enlist (Dict.empty.set name program) = CgroupsBackend.add {} name program := rfl
      rw [← hEnlist, hAlone]
      simp [Dict.get?_set]
    · intro readings hFailed
      rw [hGet, List.map_append, List.map_singleton, recordOf_append, polled_of_not_counted hFailed]
    · intro hDominate
      refine ⟨(maxBetween_recordOf program _).above hDominate, ?_⟩
      intro earlier before hPrefix hBefore
      obtain rfl := Option.some.inj ((hGet earlier).symm.trans hBefore)
      exact max_monotone program (hPrefix.map _) hDominate
  · intro report hReport
    have hNodup := (pollAll (enlist programs) polls).dataRecords.nodup
    have hKeys := reportItems_keys hNodup (by simp) hReport
    have hEq : report.keys = programs.keys.flatMap reportKeys := by
      have hNames : (pollAll (enlist programs) polls).dataRecords.keys = programs.keys := by
        simp [hRecords]
      rw [hKeys, ← hNames, Dict.keys_empty, List.nil_append, Dict.keys, List.flatMap_map]
    exact ⟨hEq, report.nodup⟩

theorem polls_account_run :
    let programs : Dict String ℕ := ⟨[("app", 1), ("server", 2)], by decide⟩
    let readings : String → Readings := fun name =>
      if name = "app" then ⟨.ok 7, .ok 10, .error "no peak"⟩ else ⟨.error "gone", .ok 3, .ok 4⟩
    ∃ info, (pollAll (enlist programs) [readings]).dataRecords.get? "app" = some info ∧
      info.numDataPoints = 1 ∧ 10 ≤ info.memBytesMax := by
  intro programs readings
  obtain ⟨-, -, hRecords, -⟩ := polls_account programs [readings]
  obtain ⟨info, hGet, -, hAccounts, -, -, hMax⟩ := hRecords "app" 1 (by decide)
  have hDominate : PeaksDominate ([readings].map fun readings => readings "app") := by
    intro earlier r later peak hSplit hTaken
    have hMem : r ∈ [readings].map fun readings => readings "app" := by simp [hSplit]
    obtain rfl : r = ⟨.ok 7, .ok 10, .error "no peak"⟩ := by simpa [readings] using hMem
    cases hTaken
  exact ⟨info, hGet, hAccounts.numDataPoints, (hMax hDominate).1 (7, 10) (by decide)⟩

end MirCi.Benchmark
