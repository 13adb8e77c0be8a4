import MirCi.Benchmark.Resilience

/-! The search for `usage_usec` in `cpu.stat`: right on the lines it is given, of which
there is one. -/
namespace MirCi.Benchmark

open Python

/-- A line of `cpu.stat`: a key and a value. -/
structure StatLine where
  key : String
  value : String
  keyPlain : ∀ c ∈ key.toList, c ≠ ' ' ∧ c ≠ '\n' ∧ c ≠ '\r'
  valuePlain : ∀ c ∈ value.toList, c ≠ ' ' ∧ c ≠ '\n' ∧ c ≠ '\r'

def StatLine.chars (line : StatLine) : List Char := line.key.toList ++ ' ' :: line.value.toList

/-- The text of the lines. The last one may lack its line ending. -/
def statChars (terminated : Bool) : List StatLine → List Char
  | [] => []
  | [line] => line.chars ++ if terminated then ['\n'] else []
  | line :: rest => line.chars ++ '\n' :: statChars terminated rest

/-- The file with these lines. -/
def statFile (terminated : Bool) (lines : List StatLine) : FileRead :=
  .ok (String.ofList (statChars terminated lines))

/-- The integer of the first `usage_usec` line, if there is such a line and it has one. -/
def usage (lines : List StatLine) : Option ℤ :=
  (lines.find? fun line => line.key = "usage_usec").bind fun line => (int line.value).toOption

/-- The integer of that line is the result, or there is none and the result a `RuntimeError`. -/
def Reports (lines : List StatLine) (result : Except Exc ℤ) : Prop :=
  match usage lines with
  | some n => result = .ok n
  | none => ∃ e, result = .error e ∧ e.isa .runtimeError = true

/-- The loop of `get_cpu_time_microseconds` over the lines that it is given. -/
def searchUsage : List String → Except Exc ℤ
  | [] => .error { cls := .runtimeError, text := "usage_usec line not found" }
  | line :: rest =>
      match split ' ' line with
      | "usage_usec" :: value :: _ => int value
      | ["usage_usec"] => .error { cls := .indexError, text := "list index out of range" }
      | _ => searchUsage rest

/-- `_read_file` gives the loop one line. -/
theorem getCpuTimeMicroseconds_eq (path : Path) (cpuStat : FileRead) :
    getCpuTimeMicroseconds path cpuStat =
      orRuntimeError ("Unable to get the cpu time for cgroup: " ++ path.str)
        (readFile cpuStat >>= fun line => searchUsage [line]) := rfl

section Lines

variable {lines : List StatLine} {line : StatLine}

/-- A line as it is read, with its ending if it has one. -/
def StatLine.ReadAs (line : StatLine) (text : String) : Prop :=
  ∃ ending, (ending = [] ∨ ending = ['\n']) ∧ text = String.ofList (line.chars ++ ending)

/-- A line that is read has two parts. The ending is no part of an integer. -/
theorem StatLine.ReadAs.split {text : String} (h : line.ReadAs text) :
    ∃ value, split ' ' text = [line.key, value] ∧ int value = int line.value := by
  obtain ⟨ending, hEnding, rfl⟩ := h
  refine ⟨String.ofList (line.value.toList ++ ending), ?_, ?_⟩
  · rw [split_eq_iff]
    refine ⟨by simp, ?_, ?_⟩
    · intro part hPart
      rcases List.mem_pair.mp hPart with rfl | rfl
      · exact fun hBlank => (line.keyPlain ' ' hBlank).1 rfl
      · rw [String.toList_ofList]
        intro hBlank
        rcases List.mem_append.mp hBlank with hBlank | hBlank
        · exact (line.valuePlain ' ' hBlank).1 rfl
        · rcases hEnding with rfl | rfl <;> simp at hBlank
    · apply String.toList_injective
      rw [String.toList_intercalate]
      simp [StatLine.chars, List.intercalate]
  · rcases hEnding with rfl | rfl
    · rw [List.append_nil, String.ofList_toList]
    · rw [int_append_blank line.value.toList (by decide), String.ofList_toList]

theorem searchUsage_usage {text value : String} (h : split ' ' text = ["usage_usec", value])
    (rest : List String) : searchUsage (text :: rest) = int value := by
  rw [searchUsage.eq_def]
  dsimp only
  rw [h]
  split
  · rename_i hSplit
    rw [(List.cons.inj (List.cons.inj hSplit).2).1]
  · rename_i hSplit
    cases hSplit
  · rename_i hNot _
    exact absurd rfl (hNot value [])

theorem searchUsage_other {text key value : String} (h : split ' ' text = [key, value])
    (hKey : key ≠ "usage_usec") (rest : List String) : searchUsage (text :: rest) = searchUsage rest := by
  rw [searchUsage.eq_def]
  dsimp only
  rw [h]
  split
  · rename_i hSplit
    exact absurd (List.cons.inj hSplit).1 hKey
  · rename_i hSplit
    cases hSplit
  · rfl

theorem usage_cons_usage (hKey : line.key = "usage_usec") :
    usage (line :: lines) = (int line.value).toOption := by
  have hFind : (line :: lines).find? (fun line => line.key = "usage_usec") = some line :=
    List.find?_cons_of_pos (by simpa using hKey)
  rw [usage, hFind, Option.bind_some]

theorem usage_cons_other (hKey : line.key ≠ "usage_usec") : usage (line :: lines) = usage lines := by
  rw [usage, List.find?_cons_of_neg (by simpa using hKey), usage]

/-- The search gives what the lines report, on all the lines that it sees. -/
theorem searchUsage_reports (text : String) {texts : List String}
    (h : List.Forall₂ StatLine.ReadAs lines texts) :
    Reports lines (orRuntimeError text (searchUsage texts)) := by
  induction h with
  | nil => exact ⟨_, rfl, rfl⟩
  | @cons line first lines texts hFirst _ ih =>
      obtain ⟨value, hSplit, hInt⟩ := hFirst.split
      by_cases hKey : line.key = "usage_usec"
      · rw [hKey] at hSplit
        rw [Reports, usage_cons_usage hKey, searchUsage_usage hSplit, hInt]
        cases hValue : int line.value with
        | ok n => rfl
        | error e =>
            refine ⟨_, rfl, ?_⟩
            rw [if_pos (int_exception _ e hValue)]
            rfl
      · rwa [Reports, usage_cons_other hKey, searchUsage_other hSplit hKey]

/-- The first line of the file is read. -/
theorem readFile_statFile (terminated : Bool) (line : StatLine) (rest : List StatLine) :
    ∃ text, readFile (statFile terminated (line :: rest)) = .ok text ∧ line.ReadAs text := by
  have hPlain : ∀ c ∈ line.chars, c ≠ '\n' ∧ c ≠ '\r' := by
    intro c hc
    rcases List.mem_append.mp hc with hc | hc
    · exact (line.keyPlain c hc).2
    · rcases List.mem_cons.mp hc with rfl | hc
      · decide
      · exact (line.valuePlain c hc).2
  have hRead : readFile (statFile terminated (line :: rest)) =
      .ok (String.ofList (readline (statChars terminated (line :: rest)))) := by
    change Except.ok (String.ofList (readline (String.ofList _).toList)) = _
    rw [String.toList_ofList]
  refine ⟨_, hRead, ?_⟩
  cases rest with
  | nil =>
      refine ⟨if terminated then ['\n'] else [], by split <;> simp, ?_⟩
      rw [statChars, readline_append hPlain]
      cases terminated <;> rfl
  | cons next rest =>
      refine ⟨['\n'], .inr rfl, ?_⟩
      rw [statChars, readline_append hPlain]
      · rfl
      · exact List.cons_ne_nil next rest

/-- What is reported is what the first line says. -/
theorem reports_first (path : Path) (terminated : Bool) (line : StatLine) (rest : List StatLine) :
    Reports [line] (getCpuTimeMicroseconds path (statFile terminated (line :: rest))) := by
  obtain ⟨text, hRead, hText⟩ := readFile_statFile terminated line rest
  rw [getCpuTimeMicroseconds_eq, hRead]
  exact searchUsage_reports _ (.cons hText .nil)

/-- The usage is reported just when the first line tells it, or no line does. -/
theorem cpu_time_reported_iff (path : Path) (terminated : Bool) (lines : List StatLine) :
    Reports lines (getCpuTimeMicroseconds path (statFile terminated lines)) ↔
      lines.head?.map StatLine.key = some "usage_usec" ∨ usage lines = none := by
  cases lines with
  | nil => exact ⟨fun _ => .inr rfl, fun _ => ⟨_, rfl, rfl⟩⟩
  | cons line rest =>
      have hFirst := reports_first path terminated line rest
      rw [List.head?_cons, Option.map_some, Option.some_inj]
      by_cases hKey : line.key = "usage_usec"
      · have hSame : usage (line :: rest) = usage [line] := by
          rw [usage_cons_usage hKey, usage_cons_usage hKey]
        rw [Reports, hSame]
        exact ⟨fun _ => .inl hKey, fun _ => hFirst⟩
      · rw [Reports, usage_cons_other hKey] at hFirst
        obtain ⟨e, hError, hClass⟩ := hFirst
        rw [Reports, hError]
        cases usage (line :: rest) with
        | some n => simp [hKey]
        | none => exact ⟨fun _ => .inr rfl, fun _ => ⟨e, rfl, hClass⟩⟩

/-- The key is on the second line, and not found. -/
theorem cpu_time_on_second_line : ∃ lines : List StatLine, usage lines = some 5 ∧
    ¬Reports lines (getCpuTimeMicroseconds (Path.parse "/sys/fs/cgroup/mirci.scope") (statFile true lines)) := by
  let user : StatLine := ⟨"user_usec", "3", by simp, by simp⟩
  let usec : StatLine := ⟨"usage_usec", "5", by simp, by simp⟩
  have hUsage : usage [user, usec] = some 5 := by decide +kernel
  refine ⟨[user, usec], hUsage, ?_⟩
  obtain ⟨e, hError, -⟩ := reports_first (Path.parse "/sys/fs/cgroup/mirci.scope") true user [usec]
  rw [Reports, hUsage, hError]
  nofun

end Lines

end MirCi.Benchmark
