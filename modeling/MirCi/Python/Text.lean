import MirCi.Python.Exception

/-! The operations on texts that the modelled code uses: stripping, decoding,
reading lines of text files, splitting, and `int`. -/
namespace Python

/-- `str.isspace` of one character. -/
def isSpace (c : Char) : Bool :=
  let n := c.toNat
  (9 ≤ n && n ≤ 13) || (28 ≤ n && n ≤ 32) || n == 0x85 || n == 0xa0 || n == 0x1680 ||
    (0x2000 ≤ n && n ≤ 0x200a) || n == 0x2028 || n == 0x2029 || n == 0x202f || n == 0x205f ||
    n == 0x3000

/-- `str.strip()`. -/
def strip (s : String) : String :=
  String.ofList ((s.toList.dropWhile isSpace).reverse.dropWhile isSpace).reverse

/-- A text without blanks is left as it is. -/
theorem strip_eq_self {s : String} (h : ∀ c ∈ s.toList, isSpace c = false) : strip s = s := by
  have hKeep : ∀ chars : List Char, (∀ c ∈ chars, isSpace c = false) → chars.dropWhile isSpace = chars := by
    intro chars hChars
    cases chars with
    | nil => rfl
    | cons c chars => simp [hChars c (by simp)]
  rw [strip, hKeep _ h, hKeep _ (by simpa using h), List.reverse_reverse, String.ofList_toList]

/-- A blank at the end does not count. -/
theorem strip_append_blank (chars : List Char) {c : Char} (hBlank : isSpace c = true) :
    strip (String.ofList (chars ++ [c])) = strip (String.ofList chars) := by
  rw [strip, strip, String.toList_ofList, String.toList_ofList]
  by_cases hChars : chars.dropWhile isSpace = []
  · have hAll : (chars ++ [c]).dropWhile isSpace = [] := by
      rw [List.dropWhile_append, hChars]
      simp [hBlank]
    rw [hAll, hChars]
  · rw [List.dropWhile_append, if_neg (by simpa using hChars), List.reverse_append, List.reverse_singleton,
      List.singleton_append, List.dropWhile_cons_of_pos hBlank]

/-- `bytes.decode("utf-8")`; nothing where Python raises `UnicodeDecodeError`. -/
def decodeUtf8 (bytes : List UInt8) : Option String := String.fromUTF8? ⟨bytes.toArray⟩

/-- The first line of a file opened in text mode, which reads every line ending
as a newline. It is empty only at the end of the file. -/
def readline : List Char → List Char
  | [] => []
  | '\n' :: _ => ['\n']
  | '\r' :: _ => ['\n']
  | c :: rest => c :: readline rest

theorem readline_cons {c : Char} {rest : List Char} (hNewline : c ≠ '\n') (hReturn : c ≠ '\r') :
    readline (c :: rest) = c :: readline rest := by
  rw [readline]
  · exact fun h => hNewline h
  · exact fun h => hReturn h

theorem readline_append {chars : List Char} (h : ∀ c ∈ chars, c ≠ '\n' ∧ c ≠ '\r') (rest : List Char) :
    readline (chars ++ rest) = chars ++ readline rest := by
  induction chars with
  | nil => rfl
  | cons c chars ih =>
      have hFirst := h c (List.mem_cons_self ..)
      rw [List.cons_append, readline_cons hFirst.1 hFirst.2, ih fun c hc => h c (List.mem_cons_of_mem _ hc)]
      rfl

/-- A line that does not begin with its newline begins as the text does. -/
theorem readline_eq_cons {chars tail : List Char} {c : Char} (h : readline chars = c :: tail)
    (hNewline : c ≠ '\n') : ∃ rest, chars = c :: rest ∧ readline rest = tail := by
  cases chars with
  | nil => cases h
  | cons first rest =>
      by_cases hFirst : first = '\n' ∨ first = '\r'
      · have hLine : readline (first :: rest) = ['\n'] := by
          rcases hFirst with rfl | rfl <;> rfl
        rw [hLine] at h
        cases h
        exact absurd rfl hNewline
      · rw [not_or] at hFirst
        rw [readline_cons hFirst.1 hFirst.2] at h
        cases h
        exact ⟨rest, rfl, rfl⟩

theorem readline_eq_nil {chars : List Char} : readline chars = [] ↔ chars = [] := by
  constructor
  · intro h
    cases chars with
    | nil => rfl
    | cons first rest =>
        rw [readline.eq_def] at h
        split at h
        · rename_i hEmpty
          exact hEmpty
        all_goals cases h
  · rintro rfl
    rfl

/-- Where `str.splitlines` cuts. -/
def isLineBreak (c : Char) : Bool :=
  let n := c.toNat
  (10 ≤ n && n ≤ 13) || (28 ≤ n && n ≤ 30) || n == 0x85 || n == 0x2028 || n == 0x2029

def splitlinesFrom (line : List Char) : List Char → List (List Char)
  | [] => if line = [] then [] else [line]
  | '\r' :: '\n' :: rest => line :: splitlinesFrom [] rest
  | c :: rest => if isLineBreak c then line :: splitlinesFrom [] rest else splitlinesFrom (line ++ [c]) rest

/-- `str.splitlines()`. -/
def splitlines (text : String) : List String := (splitlinesFrom [] text.toList).map String.ofList

/-- `part in text`. -/
def contains (part text : String) : Bool := text.toList.tails.any (part.toList.isPrefixOf ·)

example : (splitlines "a\r\n\nb\n").filter (contains "b") = ["b"] := by decide +kernel

/-- `str.split` at one character. -/
def split (separator : Char) (text : String) : List String :=
  (text.toList.splitOn separator).map String.ofList

theorem notMem_of_mem_splitOn {c : Char} {chars part : List Char} (h : part ∈ chars.splitOn c) :
    c ∉ part := by
  induction chars generalizing part with
  | nil =>
      rw [List.splitOn_nil, List.mem_singleton] at h
      simp [h]
  | cons first rest ih =>
      rw [List.splitOn_cons_eq_if_modifyHead] at h
      obtain ⟨head, tail, hRest⟩ := List.exists_cons_of_ne_nil (List.splitOn_ne_nil c rest)
      rw [hRest] at h ih
      by_cases hFirst : first = c
      · rw [if_pos (beq_iff_eq.mpr hFirst), List.mem_cons] at h
        rcases h with rfl | h
        · exact List.not_mem_nil
        · exact ih h
      · rw [if_neg (by simpa using hFirst), List.modifyHead_cons, List.mem_cons] at h
        rcases h with rfl | h
        · rw [List.mem_cons, not_or]
          exact ⟨fun hc => hFirst hc.symm, ih (List.mem_cons_self ..)⟩
        · exact ih (List.mem_cons_of_mem _ h)

/-- Splitting undoes joining, and the parts are free of the separator. -/
theorem split_eq_iff {c : Char} {text : String} {parts : List String} :
    split c text = parts ↔
      parts ≠ [] ∧ (∀ part ∈ parts, c ∉ part.toList) ∧
        text = (String.singleton c).intercalate parts := by
  constructor
  · rintro rfl
    refine ⟨by simp [split], ?_, ?_⟩
    · intro part hPart
      obtain ⟨chars, hChars, rfl⟩ := List.mem_map.mp hPart
      simpa using notMem_of_mem_splitOn hChars
    · apply String.toList_injective
      rw [String.toList_intercalate, split, List.map_map]
      simp [Function.comp_def, List.intercalate_splitOn]
  · rintro ⟨hNonempty, hFree, rfl⟩
    rw [split, String.toList_intercalate, String.toList_singleton, List.splitOn_intercalate]
    · simp [Function.comp_def]
    · intro chars hChars
      obtain ⟨part, hPart, rfl⟩ := List.mem_map.mp hChars
      exact hFree part hPart
    · simpa using hNonempty

/-- The zeros of Unicode's blocks of decimal digits. -/
def decimalZeros : List ℕ :=
  [0x30, 0x660, 0x6f0, 0x7c0, 0x966, 0x9e6, 0xa66, 0xae6, 0xb66, 0xbe6, 0xc66, 0xce6, 0xd66,
    0xde6, 0xe50, 0xed0, 0xf20, 0x1040, 0x1090, 0x17e0, 0x1810, 0x1946, 0x19d0, 0x1a80, 0x1a90,
    0x1b50, 0x1bb0, 0x1c40, 0x1c50, 0xa620, 0xa8d0, 0xa900, 0xa9d0, 0xa9f0, 0xaa50, 0xabf0, 0xff10,
    0x104a0, 0x10d30, 0x11066, 0x110f0, 0x11136, 0x111d0, 0x112f0, 0x11450, 0x114d0, 0x11650,
    0x116c0, 0x11730, 0x118e0, 0x11950, 0x11c50, 0x11d50, 0x11da0, 0x11f50, 0x16a60, 0x16ac0,
    0x16b50, 0x1d7ce, 0x1d7d8, 0x1d7e2, 0x1d7ec, 0x1d7f6, 0x1e140, 0x1e2f0, 0x1e4f0, 0x1e950,
    0x1fbf0]

/-- The value of a decimal digit. -/
def digitValue (c : Char) : Option ℕ :=
  (decimalZeros.find? fun start => start ≤ c.toNat ∧ c.toNat < start + 10).map (c.toNat - ·)

/-- The digits of a numeral, single underscores between them dropped. -/
def digits : List Char → Option (List ℕ)
  | [] => none
  | [c] => (digitValue c).map fun d => [d]
  | c :: '_' :: rest => do return (← digitValue c) :: (← digits rest)
  | c :: rest => do return (← digitValue c) :: (← digits rest)

/-- `int(text)`. -/
def int (text : String) : Except Exc ℤ :=
  let chars := (strip text).toList
  let (sign, numeral) : ℤ × List Char :=
    match chars with
    | '-' :: rest => (-1, rest)
    | '+' :: rest => (1, rest)
    | _ => (1, chars)
  match digits numeral with
  | none => .error { cls := .valueError, text := "invalid literal for int() with base 10" }
  | some ds =>
      if ds.length ≤ 4300 then .ok (sign * (ds.foldl (fun n d => 10 * n + d) 0 : ℕ))
      else .error { cls := .valueError
                    text := "Exceeds the limit (4300 digits) for integer string conversion" }

/-- The line ending of a numeral does not count. -/
theorem int_append_blank (chars : List Char) {c : Char} (hBlank : isSpace c = true) :
    int (String.ofList (chars ++ [c])) = int (String.ofList chars) := by
  rw [int, int, strip_append_blank chars hBlank]

example : (int " -1_024\n").toOption = some (-1024) := by decide

end Python
