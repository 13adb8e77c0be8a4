import Mathlib.Tactic

/-! Python's regular expressions over single-character repetitions. A pattern
turns a cursor into the list of cursors it can be left at, in the order in which
backtracking tries them; a match is the first of them. -/
namespace Python

/-- Where a match stands in its text, and the groups captured so far, the latest
first. -/
structure Cursor where
  before : List Char := []
  rest : List Char
  groups : List (String × List Char) := []
  deriving DecidableEq

/-- `lineStart` is `^` with `re.MULTILINE`. -/
inductive Regex where
  | empty
  | literal (text : List Char)
  | char (p : Char → Bool)
  | rep (greedy : Bool) (min : ℕ) (p : Char → Bool)
  | seq (r s : Regex)
  | alt (r s : Regex)
  | group (name : String) (r : Regex)
  | bol
  | lineStart
  | eol

/-- `.`, which matches no newline. -/
def anyChar (c : Char) : Bool := c != '\n'

/-- `(?:r)?`. -/
def Regex.opt (r : Regex) : Regex := .alt r .empty

def Cursor.advance (c : Cursor) (n : ℕ) : Cursor :=
  { c with before := c.before ++ c.rest.take n, rest := c.rest.drop n }

/-- Close a group that was opened at `start`. -/
def Cursor.capture (c start : Cursor) (name : String) : Cursor :=
  { c with groups := (name, c.before.drop start.before.length) :: c.groups }

/-- The numbers of repetitions in the order they are tried. -/
def counts (greedy : Bool) (min max : ℕ) : List ℕ :=
  if greedy then (List.range' min (max + 1 - min)).reverse else List.range' min (max + 1 - min)

/-- All ways to match, the preferred one first. -/
def Regex.run : Regex → Cursor → List Cursor
  | .empty, c => [c]
  | .literal text, c => if text <+: c.rest then [c.advance text.length] else []
  | .char p, c =>
      match c.rest with
      | x :: _ => if p x then [c.advance 1] else []
      | [] => []
  | .rep greedy min p, c => (counts greedy min (c.rest.takeWhile p).length).map c.advance
  | .seq r s, c => (r.run c).flatMap s.run
  | .alt r s, c => r.run c ++ s.run c
  | .group name r, c => (r.run c).map fun d => d.capture c name
  | .bol, c => if c.before = [] then [c] else []
  | .lineStart, c => if c.before = [] ∨ c.before.getLast? = some '\n' then [c] else []
  | .eol, c => if c.rest = [] ∨ c.rest = ['\n'] then [c] else []

/-- `pattern.match(text)`. -/
def Regex.reMatch (r : Regex) (text : String) : Option Cursor :=
  (r.run { rest := text.toList }).head?

/-- `pattern.fullmatch(text)`. -/
def Regex.fullmatch (r : Regex) (text : String) : Option Cursor :=
  (r.run { rest := text.toList }).find? fun c => c.rest = []

/-- `re.search(pattern, text)`. -/
def Regex.search (r : Regex) (text : String) : Option Cursor :=
  (List.range (text.toList.length + 1)).findSome? fun i =>
    (r.run { before := text.toList.take i, rest := text.toList.drop i }).head?

/-- `match.group(name)`; nothing for a group that took no part. -/
def Cursor.group (c : Cursor) (name : String) : Option String :=
  (c.groups.lookup name).map String.ofList

theorem range'_split {min n max : ℕ} (hMin : min ≤ n) (hMax : n ≤ max) :
    List.range' min (max + 1 - min) = List.range' min (n - min) ++ n :: List.range' (n + 1) (max - n) := by
  rw [← List.range'_succ, show max + 1 - min = (n - min) + (max - n + 1) by omega,
    ← List.range'_append_1, show min + (n - min) = n by omega]

/-- The trials of a greedy repetition down to `n`. -/
theorem counts_greedy {min n max : ℕ} (hMin : min ≤ n) (hMax : n ≤ max) :
    counts true min max =
      (List.range' (n + 1) (max - n)).reverse ++ n :: (List.range' min (n - min)).reverse := by
  simp [counts, range'_split hMin hMax]

/-- The trials of a lazy repetition up to `n`. -/
theorem counts_lazy {min n max : ℕ} (hMin : min ≤ n) (hMax : n ≤ max) :
    counts false min max = List.range' min (n - min) ++ n :: List.range' (n + 1) (max - n) := by
  simp [counts, range'_split hMin hMax]

/-- Trials that fail leave the choice to the ones after them. -/
theorem head?_flatMap_skip {α β : Type*} {skipped later : List α} {x : α} {f : α → List β} {b : β}
    (hSkip : ∀ y ∈ skipped, f y = []) (hFirst : (f x).head? = some b) :
    ((skipped ++ x :: later).flatMap f).head? = some b := by
  have hNone : skipped.flatMap f = [] := List.flatMap_eq_nil_iff.mpr hSkip
  rw [List.flatMap_append, hNone, List.nil_append, List.flatMap_cons, List.head?_append, hFirst]
  rfl

namespace Regex

section Run

variable (c : Cursor) (r s : Regex)

@[simp] theorem run_empty : empty.run c = [c] := rfl

@[simp] theorem run_literal (text : List Char) :
    (literal text).run c = if text <+: c.rest then [c.advance text.length] else [] := rfl

theorem run_rep (greedy : Bool) (min : ℕ) (p : Char → Bool) :
    (rep greedy min p).run c =
      (counts greedy min (c.rest.takeWhile p).length).map c.advance := rfl

@[simp] theorem run_seq : (seq r s).run c = (r.run c).flatMap s.run := rfl

@[simp] theorem run_alt : (alt r s).run c = r.run c ++ s.run c := rfl

@[simp] theorem run_group (name : String) :
    (group name r).run c = (r.run c).map fun d => d.capture c name := rfl

@[simp] theorem run_bol : bol.run c = if c.before = [] then [c] else [] := rfl

@[simp] theorem run_eol :
    eol.run c = if c.rest = [] ∨ c.rest = ['\n'] then [c] else [] := rfl

variable (p : Char → Bool) (before rest : List Char) (groups : List (String × List Char))

@[simp] theorem run_char_nil : (char p).run ⟨before, [], groups⟩ = [] := rfl

@[simp] theorem run_char_cons (x : Char) :
    (char p).run ⟨before, x :: rest, groups⟩ =
      if p x then [Cursor.advance ⟨before, x :: rest, groups⟩ 1] else [] := rfl

end Run

/-- A greedy repetition takes the largest number with which the rest matches. -/
theorem head?_greedy {p : Char → Bool} {min n : ℕ} {c d : Cursor} {next : Cursor → List Cursor}
    (hMin : min ≤ n) (hMax : n ≤ (c.rest.takeWhile p).length)
    (hSkip : ∀ k, n < k → k ≤ (c.rest.takeWhile p).length → next (c.advance k) = [])
    (hFirst : (next (c.advance n)).head? = some d) :
    (((rep true min p).run c).flatMap next).head? = some d := by
  rw [run_rep, List.flatMap_map, counts_greedy hMin hMax]
  refine head?_flatMap_skip (f := fun k => next (c.advance k)) ?_ hFirst
  intro k hk
  rw [List.mem_reverse, List.mem_range'_1] at hk
  exact hSkip k (by omega) (by omega)

/-- A lazy repetition takes the smallest one. -/
theorem head?_lazy {p : Char → Bool} {min n : ℕ} {c d : Cursor} {next : Cursor → List Cursor}
    (hMin : min ≤ n) (hMax : n ≤ (c.rest.takeWhile p).length)
    (hSkip : ∀ k, min ≤ k → k < n → next (c.advance k) = [])
    (hFirst : (next (c.advance n)).head? = some d) :
    (((rep false min p).run c).flatMap next).head? = some d := by
  rw [run_rep, List.flatMap_map, counts_lazy hMin hMax]
  refine head?_flatMap_skip (f := fun k => next (c.advance k)) ?_ hFirst
  intro k hk
  rw [List.mem_range'_1] at hk
  exact hSkip k (by omega) (by omega)

/-- A repetition nothing can follow fails. -/
theorem rep_eq_nil {greedy : Bool} {p : Char → Bool} {min : ℕ} {c : Cursor}
    {next : Cursor → List Cursor}
    (h : ∀ k, min ≤ k → k ≤ (c.rest.takeWhile p).length → next (c.advance k) = []) :
    ((rep greedy min p).run c).flatMap next = [] := by
  rw [run_rep, List.flatMap_map, List.flatMap_eq_nil_iff]
  intro k hk
  have hRange : min ≤ k ∧ k ≤ (c.rest.takeWhile p).length := by
    have hMem : k ∈ List.range' min ((c.rest.takeWhile p).length + 1 - min) := by
      cases greedy <;> simpa [counts] using hk
    rw [List.mem_range'_1] at hMem
    omega
  exact h k hRange.1 hRange.2

/-- Wherever it stands, the pattern first tries to take `taken` when that is
followed by `rest`, and captures `captured` on the way. -/
def Takes (r : Regex) (taken rest : List Char) (captured : List (String × List Char)) : Prop :=
  ∀ before groups, (r.run ⟨before, taken ++ rest, groups⟩).head? =
    some ⟨before ++ taken, rest, captured ++ groups⟩

/-- Wherever it stands, the pattern cannot match in front of `rest`. -/
def Fails (r : Regex) (rest : List Char) : Prop :=
  ∀ before groups, r.run ⟨before, rest, groups⟩ = []

theorem takes_empty (rest : List Char) : empty.Takes [] rest [] := by
  intro before groups
  simp

theorem takes_eol : eol.Takes [] [] [] := by
  intro before groups
  simp

theorem takes_literal (text rest : List Char) : (literal text).Takes text rest [] := by
  intro before groups
  simp [Cursor.advance]

theorem takes_char {p : Char → Bool} {x : Char} (h : p x = true) (rest : List Char) :
    (char p).Takes [x] rest [] := by
  intro before groups
  simp [h, Cursor.advance]

theorem takes_seq {r s : Regex} {first second rest : List Char}
    {captured later : List (String × List Char)} (hFirst : r.Takes first (second ++ rest) captured)
    (hSecond : s.Takes second rest later) :
    (seq r s).Takes (first ++ second) rest (later ++ captured) := by
  intro before groups
  rw [List.append_assoc]
  obtain ⟨others, hRun⟩ := List.head?_eq_some_iff.mp (hFirst before groups)
  rw [run_seq, hRun, List.flatMap_cons, List.head?_append, hSecond]
  simp

theorem takes_alt_left {r s : Regex} {taken rest : List Char}
    {captured : List (String × List Char)} (h : r.Takes taken rest captured) :
    (alt r s).Takes taken rest captured := by
  intro before groups
  rw [run_alt, List.head?_append, h]
  rfl

theorem takes_alt_right {r s : Regex} {taken rest : List Char}
    {captured : List (String × List Char)} (hFails : r.Fails (taken ++ rest))
    (h : s.Takes taken rest captured) : (alt r s).Takes taken rest captured := by
  intro before groups
  rw [run_alt, hFails, List.nil_append, h]

theorem takes_opt {r : Regex} {taken rest : List Char} {captured : List (String × List Char)}
    (h : r.Takes taken rest captured) : (opt r).Takes taken rest captured := takes_alt_left h

theorem takes_opt_skip {r : Regex} {rest : List Char} (h : r.Fails rest) :
    (opt r).Takes [] rest [] := takes_alt_right h (takes_empty rest)

theorem takes_group (name : String) {r : Regex} {taken rest : List Char}
    {captured : List (String × List Char)} (h : r.Takes taken rest captured) :
    (group name r).Takes taken rest ((name, taken) :: captured) := by
  intro before groups
  rw [run_group, List.head?_map, h]
  simp [Cursor.capture]

theorem fails_literal {text rest : List Char} (h : ¬text <+: rest) : (literal text).Fails rest := by
  intro before groups
  simp [h]

theorem fails_char {p : Char → Bool} {rest : List Char} (h : ∀ x ∈ rest.head?, p x = false) :
    (char p).Fails rest := by
  intro before groups
  cases rest with
  | nil => rfl
  | cons x others => simp [h x rfl]

theorem fails_eol {x : Char} {rest : List Char} (h : x ≠ '\n') : eol.Fails (x :: rest) := by
  intro before groups
  simp [h]

theorem fails_seq_left {r s : Regex} {rest : List Char} (h : r.Fails rest) :
    (seq r s).Fails rest := by
  intro before groups
  rw [run_seq, h]
  rfl

theorem fails_group {r : Regex} {name : String} {rest : List Char} (h : r.Fails rest) :
    (group name r).Fails rest := by
  intro before groups
  rw [run_group, h]
  rfl

/-- An optional part that cannot match leaves what follows it to fail. -/
theorem fails_opt_seq {r s : Regex} {rest : List Char} (hFirst : r.Fails rest)
    (hNext : s.Fails rest) : (seq (opt r) s).Fails rest := by
  intro before groups
  simp [opt, hFirst before groups, hNext before groups]

theorem takeWhile_append {p : Char → Bool} {taken rest : List Char}
    (hTaken : ∀ x ∈ taken, p x = true) :
    taken.length ≤ ((taken ++ rest).takeWhile p).length := by
  rw [List.takeWhile_append_of_pos hTaken, List.length_append]
  omega

/-- A greedy repetition takes all it can when the rest of the pattern allows it. -/
theorem takes_rep {p : Char → Bool} {min : ℕ} {taken rest : List Char}
    (hTaken : ∀ x ∈ taken, p x = true) (hStop : ∀ x ∈ rest.head?, p x = false)
    (hMin : min ≤ taken.length) : (rep true min p).Takes taken rest [] := by
  intro before groups
  have hWhile : (taken ++ rest).takeWhile p = taken := by
    rw [List.takeWhile_append_of_pos hTaken]
    cases rest with
    | nil => simp
    | cons x others => simp [hStop x rfl]
  let c : Cursor := ⟨before, taken ++ rest, groups⟩
  have hRun : (((rep true min p).run c).flatMap fun d => [d]).head? =
      some (c.advance taken.length) := by
    apply head?_greedy hMin
    · simp [c, hWhile]
    · intro k hMore hMax
      simp only [c, hWhile] at hMax
      omega
    · rfl
  simpa [c, Cursor.advance] using hRun

/-- A captured greedy repetition goes back to the last place where `text` stands. -/
theorem takes_group_until (name : String) {p : Char → Bool} {min : ℕ}
    {taken text rest : List Char} (hTaken : ∀ x ∈ taken, p x = true) (hMin : min ≤ taken.length)
    (hLast : ∀ k, taken.length < k → ¬text <+: (taken ++ (text ++ rest)).drop k) :
    (seq (group name (rep true min p)) (literal text)).Takes (taken ++ text) rest
      [(name, taken)] := by
  intro before groups
  rw [List.append_assoc, run_seq, run_group, List.flatMap_map]
  apply head?_greedy hMin (takeWhile_append hTaken)
  · intro k hMore _
    simp [Cursor.advance, Cursor.capture, hLast k hMore]
  · simp [Cursor.advance, Cursor.capture]

theorem fails_group_until (name : String) {p : Char → Bool} {min : ℕ} {text rest : List Char}
    (h : ∀ k, min ≤ k → ¬text <+: rest.drop k) :
    (seq (group name (rep true min p)) (literal text)).Fails rest := by
  intro before groups
  rw [run_seq, run_group, List.flatMap_map]
  apply rep_eq_nil
  intro k hMin _
  simp [Cursor.advance, Cursor.capture, h k hMin]

/-- A captured lazy repetition stops at the first place from which the rest of the
pattern matches. -/
theorem takes_group_lazy (name : String) {p : Char → Bool} {min : ℕ} {s : Regex}
    {taken second rest : List Char} {captured : List (String × List Char)}
    (hTaken : ∀ x ∈ taken, p x = true) (hMin : min ≤ taken.length)
    (hSkip : ∀ k, min ≤ k → k < taken.length → s.Fails ((taken ++ (second ++ rest)).drop k))
    (hNext : s.Takes second rest captured) :
    (seq (group name (rep false min p)) s).Takes (taken ++ second) rest
      (captured ++ [(name, taken)]) := by
  intro before groups
  rw [List.append_assoc, run_seq, run_group, List.flatMap_map]
  apply head?_lazy hMin (takeWhile_append hTaken)
  · intro k hFrom hLess
    exact hSkip k hFrom hLess _ _
  · have hAdvance : (Cursor.advance ⟨before, taken ++ (second ++ rest), groups⟩ taken.length).capture
        ⟨before, taken ++ (second ++ rest), groups⟩ name =
        ⟨before ++ taken, second ++ rest, (name, taken) :: groups⟩ := by
      simp [Cursor.advance, Cursor.capture]
    rw [hAdvance, hNext]
    simp

/-- An anchored pattern that first tries to take the whole text. -/
theorem head?_anchored {r : Regex} {text : List Char} {captured : List (String × List Char)}
    (h : r.Takes text [] captured) :
    ((seq bol r).run { rest := text }).head? = some ⟨text, [], captured⟩ := by
  have hRun := h [] []
  rw [List.append_nil] at hRun
  simpa using hRun

theorem reMatch_of_takes {r : Regex} {text : String} {captured : List (String × List Char)}
    (h : r.Takes text.toList [] captured) :
    (seq bol r).reMatch text = some ⟨text.toList, [], captured⟩ := head?_anchored h

theorem fullmatch_of_takes {r : Regex} {text : String} {captured : List (String × List Char)}
    (h : r.Takes text.toList [] captured) :
    (seq bol r).fullmatch text = some ⟨text.toList, [], captured⟩ := by
  obtain ⟨others, hRun⟩ := List.head?_eq_some_iff.mp (head?_anchored h)
  simp [fullmatch, hRun]

/-! ### Whether anything matches -/

section Matches

variable {r s : Regex} {c d : Cursor}

theorem mem_run_seq : d ∈ (seq r s).run c ↔ ∃ e ∈ r.run c, d ∈ s.run e := List.mem_flatMap

theorem mem_run_literal {text : List Char} :
    d ∈ (literal text).run c ↔
      ∃ rest, c.rest = text ++ rest ∧ d = { c with before := c.before ++ text, rest } := by
  rw [run_literal]
  constructor
  · intro h
    split at h
    · rename_i hPrefix
      obtain ⟨rest, hRest⟩ := hPrefix
      refine ⟨rest, hRest.symm, ?_⟩
      simpa [Cursor.advance, ← hRest] using h
    · cases h
  · rintro ⟨rest, hRest, rfl⟩
    simp [hRest, Cursor.advance]

theorem mem_run_char {p : Char → Bool} :
    d ∈ (char p).run c ↔
      ∃ x rest, c.rest = x :: rest ∧ p x = true ∧ d = { c with before := c.before ++ [x], rest } := by
  obtain ⟨before, rest, groups⟩ := c
  cases rest with
  | nil => simp
  | cons x rest =>
      by_cases hx : p x = true
      · simp [hx, Cursor.advance]
      · simp [hx]

theorem mem_run_rep {greedy : Bool} {min : ℕ} {p : Char → Bool} :
    d ∈ (rep greedy min p).run c ↔
      ∃ taken rest, c.rest = taken ++ rest ∧ (∀ x ∈ taken, p x = true) ∧ min ≤ taken.length ∧
        d = { c with before := c.before ++ taken, rest } := by
  have hCounts : ∀ k, k ∈ counts greedy min (c.rest.takeWhile p).length ↔
      min ≤ k ∧ k ≤ (c.rest.takeWhile p).length := by
    intro k
    have hMem : k ∈ counts greedy min (c.rest.takeWhile p).length ↔
        k ∈ List.range' min ((c.rest.takeWhile p).length + 1 - min) := by
      cases greedy <;> simp [counts]
    rw [hMem, List.mem_range'_1]
    omega
  rw [run_rep, List.mem_map]
  constructor
  · rintro ⟨k, hk, rfl⟩
    obtain ⟨hMin, hMax⟩ := (hCounts k).mp hk
    have hPrefix : c.rest.take k <+: c.rest.takeWhile p :=
      List.prefix_of_prefix_length_le (List.take_prefix _ _) (List.takeWhile_prefix _)
        (by rw [List.length_take]; omega)
    refine ⟨c.rest.take k, c.rest.drop k, (List.take_append_drop _ _).symm, ?_, ?_, rfl⟩
    · intro x hx
      exact List.all_eq_true.mp List.all_takeWhile x (hPrefix.subset hx)
    · have hLength := (List.takeWhile_prefix p (l := c.rest)).length_le
      rw [List.length_take]
      omega
  · rintro ⟨taken, rest, hRest, hTaken, hMin, rfl⟩
    refine ⟨taken.length, (hCounts _).mpr ⟨hMin, ?_⟩, ?_⟩
    · rw [hRest]
      exact takeWhile_append hTaken
    · simp [Cursor.advance, hRest]

/-- A search finds something just when the pattern can match somewhere. -/
theorem search_isSome {text : String} : (r.search text).isSome = true ↔
    ∃ before rest d, text.toList = before ++ rest ∧ d ∈ r.run { before, rest } := by
  rw [search, List.findSome?_isSome_iff]
  constructor
  · rintro ⟨i, -, hFound⟩
    obtain ⟨d, hd⟩ := Option.isSome_iff_exists.mp hFound
    exact ⟨_, _, d, (List.take_append_drop i _).symm, List.mem_of_head? hd⟩
  · rintro ⟨before, rest, d, hText, hd⟩
    refine ⟨before.length, ?_, ?_⟩
    · rw [List.mem_range, hText, List.length_append]
      omega
    · rw [hText, List.take_left, List.drop_left, List.isSome_head?]
      exact List.ne_nil_of_mem hd

end Matches

end Regex

end Python
