import MirCi.PytestPlugin.SnapInstall

/-! The list of changes that `snap changes` prints, and what polling it makes of a
change. -/
namespace MirCi.PytestPlugin.Deps

open Python Semantics Effect

/-- The id of a change is a number. -/
structure ChangeId where
  text : String
  nonempty : text ≠ ""
  digits : ∀ c ∈ text.toList, c.isDigit = true

/-- A text without blanks. -/
def Word (text : String) : Prop := text ≠ "" ∧ ∀ c ∈ text.toList, isSpace c = false

/-- A change in the list: its id, its status, and what the other columns hold. Columns are padded
with spaces, and a row has no end of a line in it: what reads the list in text mode has made every carriage
return one. -/
structure Row where
  id : ChangeId
  status : String
  others : String
  idPad : ℕ := 2
  statusPad : ℕ := 2
  word : Word status
  oneLine : '\n' ∉ others.toList ∧ '\r' ∉ others.toList

def Row.line (row : Row) : List Char :=
  row.id.text.toList ++ List.replicate (row.idPad + 1) ' ' ++ row.status.toList ++
    List.replicate (row.statusPad + 1) ' ' ++ row.others.toList

/-- What `snap changes` prints: a heading and the changes, or nothing if there are none. -/
structure Table where
  heading : String
  rows : List Row
  headed : ∀ c ∈ heading.toList.head?, c.isDigit = false
  oneLine : '\n' ∉ heading.toList ∧ '\r' ∉ heading.toList
  distinct : (rows.map fun row => row.id.text).Nodup

def Table.lines (table : Table) : List (List Char) :=
  if table.rows = [] then [] else table.heading.toList :: (table.rows.map Row.line ++ [[]])

def Table.text (table : Table) : String := String.ofList (table.lines.flatMap fun line => line ++ ['\n'])

/-- The status that the table shows of a change. -/
def Table.status (table : Table) (id : ChangeId) : Option String :=
  (table.rows.find? fun row => row.id.text = id.text).map Row.status

/-! ### Texts -/

section Texts

variable {p : Char → Bool} {a a' b b' before rest : List Char}

/-- A text is cut in one way where a predicate ends. -/
theorem append_inj_of_all (ha : ∀ c ∈ a, p c = true) (ha' : ∀ c ∈ a', p c = true)
    (hb : ∀ c ∈ b.head?, p c = false) (hb' : ∀ c ∈ b'.head?, p c = false) (h : a ++ b = a' ++ b') :
    a = a' ∧ b = b' := by
  have hWhile : ∀ x y : List Char, (∀ c ∈ x, p c = true) → (∀ c ∈ y.head?, p c = false) →
      (x ++ y).takeWhile p = x := by
    intro x y hx hy
    rw [List.takeWhile_append_of_pos hx]
    cases y with
    | nil => simp
    | cons c y => simp [hy c rfl]
  have hSame : a = a' := by rw [← hWhile a b ha hb, h, hWhile a' b' ha' hb']
  subst hSame
  exact ⟨rfl, List.append_cancel_left h⟩

theorem isDigit_of_isSpace {c : Char} (h : isSpace c = true) : c.isDigit = false := by
  rw [Bool.eq_false_iff]
  intro hDigit
  have hRange : 48 ≤ c.toNat ∧ c.toNat ≤ 57 := by
    simpa [Char.isDigit, UInt32.le_iff_toNat_le] using hDigit
  simp only [isSpace, Bool.or_eq_true, Bool.and_eq_true, decide_eq_true_eq, beq_iff_eq] at h
  omega

/-- The rest of a text from the start of a line is lines. -/
theorem rest_of_lines {lines : List (List Char)} (hLines : ∀ line ∈ lines, '\n' ∉ line)
    (h : lines.flatMap (fun line => line ++ ['\n']) = before ++ rest)
    (hStart : before = [] ∨ before.getLast? = some '\n') :
    ∃ later, later <:+ lines ∧ rest = later.flatMap fun line => line ++ ['\n'] := by
  induction lines generalizing before with
  | nil =>
      obtain ⟨-, rfl⟩ := List.append_eq_nil_iff.mp h.symm
      exact ⟨[], List.suffix_refl _, rfl⟩
  | cons line lines ih =>
      rcases hStart with rfl | hLast
      · exact ⟨line :: lines, List.suffix_refl _, h.symm⟩
      · rw [List.flatMap_cons, List.append_assoc] at h
        have hNotIn : ¬before <+: line := fun hPrefix =>
          hLines line (by simp) (hPrefix.subset (List.mem_of_getLast? hLast))
        rcases List.append_eq_append_iff.mp h with ⟨more, rfl, hMore⟩ | ⟨more, rfl, -⟩
        · cases more with
          | nil => exact absurd (by simp) hNotIn
          | cons c more =>
              obtain ⟨rfl, hRest⟩ := List.cons.inj hMore
              have hStart : more = [] ∨ more.getLast? = some '\n' := by
                cases more with
                | nil => exact .inl rfl
                | cons d more => exact .inr (by simpa [List.getLast?_append] using hLast)
              obtain ⟨later, hSuffix, hLater⟩ := ih (fun l hl => hLines l (by simp [hl])) hRest hStart
              exact ⟨later, hSuffix.trans (List.suffix_cons _ _), hLater⟩
        · exact absurd (List.prefix_append _ _) hNotIn

theorem getLast?_lines {lines : List (List Char)} (h : lines ≠ []) :
    (lines.flatMap fun line => line ++ ['\n']).getLast? = some '\n' := by
  induction lines using List.reverseRecOn with
  | nil => exact absurd rfl h
  | append_singleton lines line _ => simp

end Texts

/-! ### What the patterns find -/

/-- Where the pattern of a status matches. -/
theorem statusPattern_matches {change status : String} {before rest : List Char} :
    (∃ d, d ∈ (statusPattern change status).run { before, rest }) ↔
      (before = [] ∨ before.getLast? = some '\n') ∧ ∃ spaces x tail,
        rest = change.toList ++ (spaces ++ (status.toList ++ x :: tail)) ∧ spaces ≠ [] ∧
          (∀ c ∈ spaces, isSpace c = true) ∧ isSpace x = true := by
  have hStart : ∀ c e : Cursor, e ∈ Regex.lineStart.run c ↔
      (c.before = [] ∨ c.before.getLast? = some '\n') ∧ e = c := by
    intro c e
    change e ∈ (if c.before = [] ∨ c.before.getLast? = some '\n' then [c] else []) ↔ _
    split
    · rename_i hBefore
      simp [hBefore]
    · rename_i hBefore
      simp [hBefore]
  simp only [statusPattern, Regex.mem_run_seq, Regex.mem_run_literal, Regex.mem_run_rep,
    Regex.mem_run_char, hStart]
  constructor
  · rintro ⟨d, e, ⟨hBefore, rfl⟩, _, ⟨first, hFirst, rfl⟩, _, ⟨spaces, second, hSecond, hSpaces, hMin, rfl⟩,
      _, ⟨third, hThird, rfl⟩, x, tail, hLast, hx, -⟩
    refine ⟨hBefore, spaces, x, tail, ?_, List.ne_nil_of_length_pos hMin, hSpaces, hx⟩
    dsimp only at hFirst hSecond hThird hLast
    rw [hFirst, hSecond, hThird, hLast]
  · rintro ⟨hBefore, spaces, x, tail, rfl, hNonempty, hSpaces, hx⟩
    have hMin := List.length_pos_of_ne_nil hNonempty
    exact ⟨_, _, ⟨hBefore, rfl⟩, _, ⟨_, rfl, rfl⟩, _, ⟨spaces, _, rfl, hSpaces, hMin, rfl⟩,
      _, ⟨_, rfl, rfl⟩, x, tail, rfl, hx, rfl⟩

section Shows

variable {table : Table} {id : ChangeId} {status : String}

theorem Row.newline_notMem (row : Row) : '\n' ∉ row.line := by
  have hDigits : '\n' ∉ row.id.text.toList := by
    intro hMem
    have hDigit : '\n'.isDigit = true := row.id.digits _ hMem
    exact absurd hDigit (by decide)
  have hWord : '\n' ∉ row.status.toList := by
    intro hMem
    have hSpace : isSpace '\n' = false := row.word.2 _ hMem
    exact absurd hSpace (by decide)
  simp [Row.line, hDigits, hWord, row.oneLine.1, List.mem_replicate]

theorem Table.newline_notMem (table : Table) : ∀ line ∈ table.lines, '\n' ∉ line := by
  intro line hLine
  unfold Table.lines at hLine
  split at hLine
  · cases hLine
  · rw [List.mem_cons, List.mem_append, List.mem_map, List.mem_singleton] at hLine
    rcases hLine with rfl | ⟨row, -, rfl⟩ | rfl
    · exact table.oneLine.1
    · exact row.newline_notMem
    · exact List.not_mem_nil

/-- A row whose line begins as the pattern wants is the row of the change, with this status. -/
theorem Row.eq_of_line {row : Row} {spaces tail later : List Char} {x : Char} (hStatus : Word status)
    (h : row.line ++ later = id.text.toList ++ (spaces ++ (status.toList ++ x :: tail)))
    (hNonempty : spaces ≠ []) (hSpaces : ∀ c ∈ spaces, isSpace c = true) (hx : isSpace x = true) :
    row.id.text = id.text ∧ row.status = status := by
  have hPad : ∀ n, ∀ c ∈ List.replicate (n + 1) ' ', isSpace c = true := by
    intro n c hc
    rw [List.eq_of_mem_replicate hc]
    rfl
  have hHead : ∀ {word : String} (later : List Char), Word word →
      ∀ c ∈ (word.toList ++ later).head?, isSpace c = false := by
    intro word later hWord c hc
    obtain ⟨first, rest, hList⟩ := List.exists_cons_of_ne_nil (by simpa using hWord.1 : word.toList ≠ [])
    rw [hList] at hc
    obtain rfl : first = c := by simpa using hc
    exact hWord.2 first (by simp [hList])
  simp only [Row.line, List.append_assoc] at h
  obtain ⟨hId, h⟩ := append_inj_of_all row.id.digits id.digits (by simp [List.replicate_succ])
    (by
      obtain ⟨first, rest, rfl⟩ := List.exists_cons_of_ne_nil hNonempty
      intro c hc
      obtain rfl : first = c := by simpa using hc
      exact isDigit_of_isSpace (hSpaces first (by simp))) h
  obtain ⟨-, h⟩ := append_inj_of_all (hPad _) hSpaces (hHead _ row.word) (hHead _ hStatus) h
  obtain ⟨hSame, -⟩ := append_inj_of_all (p := fun c => !isSpace c) (fun c hc => by simp [row.word.2 c hc])
    (fun c hc => by simp [hStatus.2 c hc]) (by simp [List.replicate_succ, isSpace]) (by simp [hx]) h
  exact ⟨String.toList_injective hId, String.toList_injective hSame⟩

/-- A line that begins with a digit is a row. -/
theorem Table.exists_row {line : List Char} {c : Char} (hLine : c :: line ∈ table.lines)
    (hDigit : c.isDigit = true) : ∃ row ∈ table.rows, row.line = c :: line := by
  unfold Table.lines at hLine
  split at hLine
  · cases hLine
  · rw [List.mem_cons, List.mem_append, List.mem_map, List.mem_singleton] at hLine
    rcases hLine with hHeading | ⟨row, hRow, hSame⟩ | hNil
    · have hNot := table.headed c (by simp [← hHeading])
      rw [hDigit] at hNot
      cases hNot
    · exact ⟨row, hRow, hSame⟩
    · cases hNil

/-- A status is found just when the table shows it of the change. -/
theorem shows_iff (hStatus : Word status) : shows id.text status table.text = true ↔
    ∃ row ∈ table.rows, row.id.text = id.text ∧ row.status = status := by
  have hMatches : shows id.text status table.text = true ↔ ∃ before rest,
      table.lines.flatMap (fun line => line ++ ['\n']) = before ++ rest ∧
        ∃ d, d ∈ (statusPattern id.text status).run { before, rest } := by
    rw [shows, Regex.search_isSome]
    simp [Table.text]
  rw [hMatches]
  simp only [statusPattern_matches]
  constructor
  · rintro ⟨before, rest, hText, hStart, spaces, x, tail, hRest, hNonempty, hSpaces, hx⟩
    obtain ⟨later, hSuffix, hLater⟩ := rest_of_lines table.newline_notMem hText hStart
    have hFirst : ∃ c, rest.head? = some c ∧ c.isDigit = true := by
      obtain ⟨first, digits, hId⟩ :=
        List.exists_cons_of_ne_nil (by simpa using id.nonempty : id.text.toList ≠ [])
      exact ⟨first, by simp [hRest, hId], id.digits first (by simp [hId])⟩
    obtain ⟨first, hHead, hDigit⟩ := hFirst
    rw [hLater] at hHead
    cases later with
    | nil => cases hHead
    | cons line later =>
        have hLine : line ∈ table.lines := hSuffix.subset (by simp)
        cases line with
        | nil =>
            obtain rfl : '\n' = first := by simpa using hHead
            cases hDigit
        | cons c line =>
            obtain rfl : c = first := by simpa using hHead
            obtain ⟨row, hRow, hSame⟩ := Table.exists_row hLine hDigit
            rw [List.flatMap_cons, List.append_assoc, ← hSame] at hLater
            exact ⟨row, hRow, Row.eq_of_line hStatus (hLater.symm.trans hRest) hNonempty hSpaces hx⟩
  · rintro ⟨row, hRow, hId, rfl⟩
    obtain ⟨first, last, hRows⟩ := List.append_of_mem hRow
    let ended : List Char → List Char := fun line => line ++ ['\n']
    have hLines : table.lines =
        (table.heading.toList :: first.map Row.line) ++ row.line :: (last.map Row.line ++ [[]]) := by
      simp [Table.lines, hRows]
    refine ⟨(table.heading.toList :: first.map Row.line).flatMap ended,
      (row.line :: (last.map Row.line ++ [[]])).flatMap ended, ?_, .inr (getLast?_lines (by simp)),
      List.replicate (row.idPad + 1) ' ', ' ', List.replicate row.statusPad ' ' ++ row.others.toList ++
        ['\n'] ++ (last.map Row.line ++ [[]]).flatMap ended, ?_, by simp, ?_, rfl⟩
    · rw [hLines, List.flatMap_append]
    · rw [← hId, List.flatMap_cons, Row.line]
      simp [ended, List.replicate_succ]
    · intro c hc
      rw [List.eq_of_mem_replicate hc]
      rfl

theorem status_eq_some : table.status id = some status ↔
    ∃ row ∈ table.rows, row.id.text = id.text ∧ row.status = status := by
  rw [Table.status, Option.map_eq_some_iff]
  constructor
  · rintro ⟨row, hFind, rfl⟩
    exact ⟨row, List.mem_of_find?_eq_some hFind, by simpa using List.find?_some hFind, rfl⟩
  · rintro ⟨row, hRow, hId, rfl⟩
    have hFound : ∃ other, table.rows.find? (fun row => row.id.text = id.text) = some other := by
      rw [← Option.isSome_iff_exists, List.find?_isSome]
      exact ⟨row, hRow, by simpa using hId⟩
    obtain ⟨other, hFind⟩ := hFound
    have hOther : other.id.text = id.text := by simpa using List.find?_some hFind
    obtain rfl := List.inj_on_of_nodup_map table.distinct (List.mem_of_find?_eq_some hFind) hRow
      (hOther.trans hId.symm)
    exact ⟨other, hFind, rfl⟩

theorem text_eq_empty : table.text = "" ↔ table.rows = [] := by
  unfold Table.text Table.lines
  split
  · rename_i hRows
    simp [hRows]
  · rename_i hRows
    simp [hRows]

end Shows

/-! ### Polling -/

/-- How often the changes were listed. -/
def polls (history : History) : ℕ := history.countP fun e =>
  match e with
  | .ran .snapChanges _ => true
  | _ => false

/-- The installation gives a change this id, and the changes are listed as these tables from then on. -/
def changesHost (base : Host) (start : Session) (id : ChangeId) (tables : ℕ → Table) : Host :=
  { base with
    ends := fun history command =>
      match command with
      | .snapInstall _ _ _ => .exited 0 (id.text ++ "\n")
      | .snapChanges => .exited 0 (tables (polls history - polls start.history)).text
      | command => base.ends history command }

inductive Verdict where
  | returns
  | raises
  | goesOn
  deriving DecidableEq, Repr

/-- What a poll makes of a table. -/
def Table.verdict (table : Table) (id : ChangeId) : Verdict :=
  if table.rows = [] then .returns
  else if table.status id = some "Done" then .returns
  else if table.status id = some "Error" then .raises
  else .goesOn

/-- The id is what is printed, without the newline. -/
theorem strip_change (id : ChangeId) : strip (id.text ++ "\n") = id.text := by
  have hWord : ∀ c ∈ id.text.toList, isSpace c = false := by
    intro c hc
    by_contra hSpace
    have hDigit := id.digits c hc
    rw [isDigit_of_isSpace (by simpa using hSpace)] at hDigit
    cases hDigit
  have hLine : id.text ++ "\n" = String.ofList (id.text.toList ++ ['\n']) := by simp
  rw [hLine, strip_append_blank _ rfl, String.ofList_toList, strip_eq_self hWord]

section Polling

variable {base : Host} {start s : Session} {id : ChangeId} {tables : ℕ → Table} {k n : ℕ}

/-- The polls since the start. -/
def Polled (start : Session) (k : ℕ) (s : Session) : Prop := polls s.history = polls start.history + k

variable (base id tables) in
/-- One poll. -/
theorem waitForChange_run (h : Polled start k s) (left : ℕ) :
    match (tables k).verdict id with
    | .returns => ∃ t, (waitForChange (changesHost base start id tables) id.text (left + 1)).run s = .ok true t
    | .raises => ∃ e t, (waitForChange (changesHost base start id tables) id.text (left + 1)).run s = .error e t
    | .goesOn => ∃ t, Polled start (k + 1) t ∧
        (waitForChange (changesHost base start id tables) id.text (left + 1)).run s =
          (waitForChange (changesHost base start id tables) id.text left).run t := by
  have hWords : Word "Done" ∧ Word "Error" := by simp [Word, isSpace]
  have hEnds : (changesHost base start id tables).ends s.history .snapChanges =
      .exited 0 (tables k).text := by
    simp only [changesHost, Polled] at h ⊢
    rw [h, Nat.add_sub_cancel_left]
  have hDone : shows id.text "Done" (tables k).text = true ↔ (tables k).status id = some "Done" :=
    (shows_iff hWords.1).trans status_eq_some.symm
  have hError : shows id.text "Error" (tables k).text = true ↔ (tables k).status id = some "Error" :=
    (shows_iff hWords.2).trans status_eq_some.symm
  rw [waitForChange, EStateM.run_bind, checkOutput_run_of_exited hEnds, if_pos rfl]
  dsimp only
  unfold Table.verdict
  by_cases hRows : (tables k).rows = []
  · rw [if_pos hRows, if_pos (text_eq_empty.mpr hRows)]
    exact ⟨_, rfl⟩
  · rw [if_neg hRows, if_neg (mt text_eq_empty.mp hRows)]
    by_cases hStatus : (tables k).status id = some "Done"
    · rw [if_pos hStatus, if_pos (hDone.mpr hStatus)]
      exact ⟨_, rfl⟩
    · rw [if_neg hStatus, if_neg (mt hDone.mp hStatus)]
      by_cases hFailed : (tables k).status id = some "Error"
      · rw [if_pos hFailed, if_pos (hError.mpr hFailed)]
        dsimp only
        rw [EStateM.run_bind]
        split
        · exact ⟨_, _, rfl⟩
        · exact ⟨_, _, rfl⟩
      · rw [if_neg hFailed, if_neg (mt hError.mp hFailed)]
        refine ⟨_, ?_, rfl⟩
        simp only [Polled, polls] at h ⊢
        simp [Session.after, h]
        omega

end Polling

end MirCi.PytestPlugin.Deps
