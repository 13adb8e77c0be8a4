import MirCi.Python.Regex

/-! The two version patterns of `process_snaps.py`, on the versions that Debian
sources and snaps of Mir carry: both read the same Mir version out of them. -/
namespace MirCi.ProcessSnaps

open Python Regex

def isDigit (c : Char) : Bool := '0' ≤ c && c ≤ '9'

/-- `[0-9\.]`. -/
def isNumeric (c : Char) : Bool := isDigit c || c == '.'

/-- `[+~]`. -/
def isSign (c : Char) : Bool := c == '+' || c == '~'

/-- `[0-9a-f]`. -/
def isHex (c : Char) : Bool := isDigit c || ('a' ≤ c && c ≤ 'f')

def mirVersionRe : Regex :=
  .seq .bol <|
  .seq (.group "version" (.rep true 1 isNumeric)) <|
  .seq (.opt <|
    .seq (.group "build" <|
      .seq (.char isSign) <|
      .seq (.alt (.literal "rc".toList) (.literal "dev".toList)) (.rep true 1 isDigit)) <|
    .seq (.literal "-g".toList) (.group "commit" (.rep true 1 isHex))) <|
  .seq (.literal "-".toList) <|
  .seq (.group "distro" (.rep true 1 fun c => c != '-')) <|
  .seq (.group "extra" (.rep true 0 anyChar)) .eol

def snapVersionRe : Regex :=
  .seq .bol <|
  .seq (.opt <| .seq (.group "server" (.rep true 1 anyChar)) (.literal "-mir".toList)) <|
  .seq (.group "mir" (.rep false 1 anyChar)) <|
  .seq (.opt <| .seq (.literal "-snap".toList) (.group "snap" (.rep true 1 anyChar))) .eol

/-- `mir_version`, parsed from the version of a source; nothing if that does not
match. -/
def mirVersion (sourcePackageVersion : String) : Option String :=
  (mirVersionRe.fullmatch sourcePackageVersion).map fun m =>
    (m.group "version").getD "" ++ (m.group "build").getD ""

/-- `mir_version == SNAP_VERSION_RE.match(version).group("mir")`; nothing if the
store version does not match. -/
def sameMirVersion (mirVersion version : String) : Option Bool :=
  (snapVersionRe.reMatch version).map fun m => some mirVersion == m.group "mir"

/-- A `+dev` or `~rc` tag with its number. -/
structure BuildTag where
  sign : Char
  kind : List Char
  number : List Char
  sign_ok : isSign sign = true
  kind_ok : kind = "rc".toList ∨ kind = "dev".toList
  number_ne : number ≠ []
  number_ok : ∀ c ∈ number, isDigit c = true

/-- An upstream version of Mir. -/
structure MirVersion where
  numbers : List Char
  build : Option BuildTag
  numbers_ne : numbers ≠ []
  numbers_ok : ∀ c ∈ numbers, isNumeric c = true

def BuildTag.chars (b : BuildTag) : List Char := b.sign :: (b.kind ++ b.number)

def MirVersion.chars (v : MirVersion) : List Char :=
  v.numbers ++ (v.build.map BuildTag.chars).getD []

def MirVersion.text (v : MirVersion) : String := String.ofList v.chars

/-- The version of a Debian source of Mir. The commit is only part of it when the
Mir version has a build tag. -/
structure DebVersion where
  mir : MirVersion
  commit : List Char
  distro : List Char
  extra : List Char
  commit_ne : commit ≠ []
  commit_ok : ∀ c ∈ commit, isHex c = true
  distro_ne : distro ≠ []
  distro_ok : ∀ c ∈ distro, c ≠ '-' ∧ c ≠ '\n'
  extra_ok : extra = [] ∨ extra.head? = some '-'
  extra_line : ∀ c ∈ extra, c ≠ '\n'

def DebVersion.chars (v : DebVersion) : List Char :=
  v.mir.chars ++ (if v.mir.build.isSome then "-g".toList ++ v.commit else []) ++
    ("-".toList ++ v.distro ++ v.extra)

def DebVersion.text (v : DebVersion) : String := String.ofList v.chars

/-- The version of a snap in the store. -/
structure StoreVersion where
  server : Option (List Char)
  mir : MirVersion
  snap : Option (List Char)
  server_ok : ∀ s ∈ server, s ≠ [] ∧ ∀ c ∈ s, c ≠ '\n'
  snap_ok : ∀ s ∈ snap, s ≠ [] ∧ (∀ c ∈ s, c ≠ '\n') ∧ ¬"-mir".toList <:+: s

def StoreVersion.chars (v : StoreVersion) : List Char :=
  (v.server.map (· ++ "-mir".toList)).getD [] ++
    (v.mir.chars ++ (v.snap.map ("-snap".toList ++ ·)).getD [])

def StoreVersion.text (v : StoreVersion) : String := String.ofList v.chars

/-- The characters of a Mir version. -/
def isMirChar (c : Char) : Bool := isNumeric c || isSign c || c ∈ ['r', 'c', 'd', 'e', 'v']

theorem ne_of_class {p : Char → Bool} {c x : Char} (hc : p c = true) (hx : p x = false) :
    c ≠ x := by
  rintro rfl
  rw [hc] at hx
  cases hx

theorem MirVersion.chars_ok (v : MirVersion) : ∀ c ∈ v.chars, isMirChar c = true := by
  intro c hc
  rw [MirVersion.chars, List.mem_append] at hc
  rcases hc with hNumber | hBuild
  · simp [isMirChar, v.numbers_ok c hNumber]
  · cases hTag : v.build with
    | none => simp [hTag] at hBuild
    | some b =>
        simp only [hTag, Option.map_some, Option.getD_some, BuildTag.chars, List.mem_cons,
          List.mem_append] at hBuild
        rcases hBuild with rfl | hKind | hNumber
        · simp [isMirChar, b.sign_ok]
        · rcases b.kind_ok with hEq | hEq
          · rw [hEq] at hKind
            simp at hKind
            rcases hKind with rfl | rfl <;> rfl
          · rw [hEq] at hKind
            simp at hKind
            rcases hKind with rfl | rfl | rfl <;> rfl
        · simp [isMirChar, isNumeric, b.number_ok c hNumber]

/-- The end of a source's version. -/
def distroRe : Regex :=
  .seq (.literal "-".toList) <|
  .seq (.group "distro" (.rep true 1 fun c => c != '-')) <|
  .seq (.group "extra" (.rep true 0 anyChar)) .eol

theorem takes_distro (v : DebVersion) :
    distroRe.Takes ("-".toList ++ (v.distro ++ (v.extra ++ []))) []
      [("extra", v.extra), ("distro", v.distro)] := by
  have hExtra : (group "extra" (rep true 0 anyChar)).Takes v.extra [] [("extra", v.extra)] := by
    apply takes_group
    apply takes_rep
    · intro c hc
      simp [anyChar, v.extra_line c hc]
    · simp
    · exact Nat.zero_le _
  have hDistro : (group "distro" (rep true 1 fun c => c != '-')).Takes v.distro (v.extra ++ [])
      [("distro", v.distro)] := by
    apply takes_group
    apply takes_rep
    · intro c hc
      simp [(v.distro_ok c hc).1]
    · rw [List.append_nil]
      rcases v.extra_ok with hExtra | hExtra <;> simp [hExtra]
    · exact List.length_pos_of_ne_nil v.distro_ne
  exact takes_seq (takes_literal _ _) (takes_seq (by simpa using hDistro)
    (takes_seq (by simpa using hExtra) takes_eol))

/-- The build tag of a source's version and the commit behind it. -/
def tagRe : Regex :=
  .seq (.group "build" <|
    .seq (.char isSign) <|
    .seq (.alt (.literal "rc".toList) (.literal "dev".toList)) (.rep true 1 isDigit)) <|
  .seq (.literal "-g".toList) (.group "commit" (.rep true 1 isHex))

theorem takes_tag (b : BuildTag) {commit : List Char} (hCommit : ∀ c ∈ commit, isHex c = true)
    (hNe : commit ≠ []) (rest : List Char) :
    tagRe.Takes (b.chars ++ ("-g".toList ++ commit)) ('-' :: rest)
      [("commit", commit), ("build", b.chars)] := by
  have hKind : ∀ rest, (alt (literal "rc".toList) (literal "dev".toList)).Takes b.kind rest [] := by
    intro rest
    rcases b.kind_ok with hEq | hEq
    · rw [hEq]
      exact takes_alt_left (takes_literal _ _)
    · rw [hEq]
      exact takes_alt_right (fails_literal (by simp)) (takes_literal _ _)
  have hNumber : ∀ rest, (rep true 1 isDigit).Takes b.number ('-' :: rest) [] := by
    intro rest
    apply takes_rep b.number_ok
    · intro x hx
      cases hx
      decide
    · exact List.length_pos_of_ne_nil b.number_ne
  have hBuild : ∀ rest, (group "build" <| seq (char isSign) <|
      seq (alt (literal "rc".toList) (literal "dev".toList)) (rep true 1 isDigit)).Takes
        b.chars ('-' :: rest) [("build", b.chars)] := by
    intro rest
    exact takes_group _ (takes_seq (takes_char b.sign_ok _) (takes_seq (hKind _) (hNumber rest)))
  have hHex : (group "commit" (rep true 1 isHex)).Takes commit ('-' :: rest)
      [("commit", commit)] := by
    apply takes_group
    apply takes_rep hCommit
    · intro x hx
      cases hx
      decide
    · exact List.length_pos_of_ne_nil hNe
  exact takes_seq (hBuild _) (takes_seq (takes_literal _ _) hHex)

theorem fails_tag (rest : List Char) : tagRe.Fails ('-' :: rest) := by
  apply fails_seq_left
  apply fails_group
  apply fails_seq_left
  apply fails_char
  intro x hx
  cases hx
  decide

theorem takes_numbers (v : MirVersion) {rest : List Char}
    (hStop : ∀ x ∈ rest.head?, isNumeric x = false) :
    (group "version" (rep true 1 isNumeric)).Takes v.numbers rest [("version", v.numbers)] := by
  apply takes_group
  apply takes_rep v.numbers_ok hStop
  exact List.length_pos_of_ne_nil v.numbers_ne

/-- The pattern reads the Mir version out of a source's version. -/
theorem mirVersion_deb (v : DebVersion) : mirVersion v.text = some v.mir.text := by
  have hRe : mirVersionRe = seq bol
      (seq (group "version" (rep true 1 isNumeric)) (seq (opt tagRe) distroRe)) := rfl
  cases hTag : v.mir.build with
  | none =>
      have hText : v.text.toList =
          v.mir.numbers ++ ([] ++ ("-".toList ++ (v.distro ++ (v.extra ++ [])))) := by
        simp [DebVersion.text, DebVersion.chars, MirVersion.chars, hTag]
      have hTakes := takes_seq (takes_numbers v.mir (by simp [isNumeric, isDigit]))
        (takes_seq (takes_opt_skip (by simpa using fails_tag _)) (takes_distro v))
      rw [← hText] at hTakes
      rw [mirVersion, hRe, fullmatch_of_takes hTakes]
      simp [Cursor.group, MirVersion.text, MirVersion.chars, hTag, List.lookup_cons]
  | some b =>
      have hText : v.text.toList = v.mir.numbers ++ ((b.chars ++ ("-g".toList ++ v.commit)) ++
          ("-".toList ++ (v.distro ++ (v.extra ++ [])))) := by
        simp [DebVersion.text, DebVersion.chars, MirVersion.chars, hTag]
      have hSign : isNumeric b.sign = false := by
        have hCases := b.sign_ok
        simp only [isSign, Bool.or_eq_true, beq_iff_eq] at hCases
        rcases hCases with hEq | hEq <;> rw [hEq] <;> decide
      have hTakes := takes_seq (takes_numbers v.mir (by simp [BuildTag.chars, hSign]))
        (takes_seq (takes_opt (takes_tag b v.commit_ok v.commit_ne _)) (takes_distro v))
      rw [← hText] at hTakes
      rw [mirVersion, hRe, fullmatch_of_takes hTakes]
      simp [Cursor.group, MirVersion.text, MirVersion.chars, hTag, List.lookup_cons]

/-- No character of a Mir version begins `-mir` or `-snap`, or is a newline. -/
theorem isMirChar_ne {c : Char} (h : isMirChar c = true) : c ≠ '-' ∧ c ≠ '\n' :=
  ⟨ne_of_class h (by decide), ne_of_class h (by decide)⟩

/-- A text has no `-mir` in it if its beginning has no dash and its end no `-mir`. -/
theorem not_infix_append {before after : List Char} (hBefore : ∀ c ∈ before, c ≠ '-')
    (hAfter : ¬"-mir".toList <:+: after) : ¬"-mir".toList <:+: before ++ after := by
  induction before with
  | nil => exact hAfter
  | cons c rest ih =>
      rw [List.forall_mem_cons] at hBefore
      rw [List.cons_append, List.infix_cons_iff, not_or]
      refine ⟨?_, ih hBefore.2⟩
      intro hPrefix
      rw [show "-mir".toList = '-' :: "mir".toList from rfl, List.cons_prefix_cons] at hPrefix
      exact hBefore.1 hPrefix.1.symm

/-- What follows the server part of a store version. -/
def StoreVersion.upstream (v : StoreVersion) : List Char :=
  v.mir.chars ++ (v.snap.map ("-snap".toList ++ ·)).getD []

theorem StoreVersion.upstream_no_mir (v : StoreVersion) : ¬"-mir".toList <:+: v.upstream := by
  apply not_infix_append
  · intro c hc
    exact (isMirChar_ne (v.mir.chars_ok c hc)).1
  · cases hSnap : v.snap with
    | none => simp
    | some s =>
        have hSuffix := (v.snap_ok s hSnap).2.2
        have hSnapped : ¬"-mir".toList <:+: "snap".toList ++ s :=
          not_infix_append (by simp) hSuffix
        have hSplit : "-snap".toList ++ s = '-' :: ("snap".toList ++ s) := by simp
        rw [Option.map_some, Option.getD_some, hSplit, List.infix_cons_iff, not_or]
        refine ⟨?_, hSnapped⟩
        simp

/-- The optional snap part and the end. -/
def snapRe : Regex :=
  .seq (.opt <| .seq (.literal "-snap".toList) (.group "snap" (.rep true 1 anyChar))) .eol

theorem takes_snap (v : StoreVersion) : ∃ captured,
    snapRe.Takes ((v.snap.map ("-snap".toList ++ ·)).getD [] ++ []) [] captured ∧
      captured.lookup "mir" = none := by
  cases hSnap : v.snap with
  | none =>
      refine ⟨_, takes_seq (takes_opt_skip ?_) takes_eol, rfl⟩
      apply fails_seq_left
      exact fails_literal (by simp)
  | some s =>
      obtain ⟨hNe, hLine, -⟩ := v.snap_ok s hSnap
      have hAll : (group "snap" (rep true 1 anyChar)).Takes s [] [("snap", s)] := by
        apply takes_group
        apply takes_rep
        · intro c hc
          simp [anyChar, hLine c hc]
        · simp
        · exact List.length_pos_of_ne_nil hNe
      exact ⟨_, takes_seq (takes_opt (takes_seq (takes_literal _ _) (by simpa using hAll)))
        takes_eol, rfl⟩

theorem fails_snap {x : Char} (hx : isMirChar x = true) (rest : List Char) :
    snapRe.Fails (x :: rest) := by
  obtain ⟨hDash, hNewline⟩ := isMirChar_ne hx
  apply fails_opt_seq
  · apply fails_seq_left
    apply fails_literal
    intro hPrefix
    rw [show "-snap".toList = '-' :: "snap".toList from rfl, List.cons_prefix_cons] at hPrefix
    exact hDash hPrefix.1.symm
  · exact fails_eol hNewline

/-- The lazy group stops behind the Mir version: no place inside it begins the
snap part or is the end. -/
theorem takes_mir (v : StoreVersion) : ∃ captured,
    (seq (group "mir" (rep false 1 anyChar)) snapRe).Takes (v.upstream ++ []) [] captured ∧
      captured.lookup "mir" = some v.mir.chars := by
  obtain ⟨captured, hSnap, hNone⟩ := takes_snap v
  have hNe : v.mir.chars ≠ [] := by
    simp [MirVersion.chars, v.mir.numbers_ne]
  refine ⟨captured ++ [("mir", v.mir.chars)], ?_, ?_⟩
  · rw [StoreVersion.upstream, List.append_assoc]
    apply takes_group_lazy _ _ (List.length_pos_of_ne_nil hNe) _ hSnap
    · intro c hc
      simp [anyChar, (isMirChar_ne (v.mir.chars_ok c hc)).2]
    · intro k _ hLess
      rw [List.drop_append_of_le_length (by omega), List.drop_eq_getElem_cons hLess,
        List.cons_append]
      exact fails_snap (v.mir.chars_ok _ (List.getElem_mem hLess)) _
  · simp [List.lookup_append, hNone]

/-- `-mir` begins nowhere behind the one in front of the upstream part. -/
theorem no_later_mir (v : StoreVersion) (before : List Char) {k : ℕ} (hLater : before.length < k) :
    ¬"-mir".toList <+: (before ++ ("-mir".toList ++ v.upstream)).drop k := by
  have hRest : (before ++ ("-mir".toList ++ v.upstream)).drop k =
      ("mir".toList ++ v.upstream).drop (k - before.length - 1) := by
    have hDash : "-mir".toList ++ v.upstream = ['-'] ++ ("mir".toList ++ v.upstream) := rfl
    rw [hDash, ← List.append_assoc, List.drop_append, List.drop_eq_nil_of_le (by simp; omega)]
    simp [Nat.sub_sub]
  rw [hRest]
  intro hPrefix
  have hNone : ¬"-mir".toList <:+: "mir".toList ++ v.upstream :=
    not_infix_append (by simp) v.upstream_no_mir
  exact hNone (hPrefix.isInfix.trans (List.drop_suffix _ _).isInfix)

/-- The pattern reads the Mir version out of a store version: the server part ends
at the last `-mir`. -/
theorem reMatch_store (v : StoreVersion) :
    ∃ m, snapVersionRe.reMatch v.text = some m ∧ m.group "mir" = some v.mir.text := by
  have hRe : snapVersionRe = seq bol
      (seq (opt <| seq (group "server" (rep true 1 anyChar)) (literal "-mir".toList))
        (seq (group "mir" (rep false 1 anyChar)) snapRe)) := rfl
  obtain ⟨captured, hMir, hLookup⟩ := takes_mir v
  cases hServer : v.server with
  | none =>
      have hText : v.text.toList = [] ++ (v.upstream ++ []) := by
        simp [StoreVersion.text, StoreVersion.chars, StoreVersion.upstream, hServer]
      have hFails : (seq (group "server" (rep true 1 anyChar)) (literal "-mir".toList)).Fails
          (v.upstream ++ [] ++ []) := by
        apply fails_group_until
        intro k _ hPrefix
        simp only [List.append_nil] at hPrefix
        exact v.upstream_no_mir (hPrefix.isInfix.trans (List.drop_suffix _ _).isInfix)
      have hTakes := takes_seq (takes_opt_skip hFails) hMir
      rw [← hText] at hTakes
      refine ⟨_, by rw [hRe, reMatch_of_takes hTakes], ?_⟩
      simp [Cursor.group, hLookup, MirVersion.text]
  | some server =>
      obtain ⟨hNe, hLine⟩ := v.server_ok server hServer
      have hText : v.text.toList = (server ++ "-mir".toList) ++ (v.upstream ++ []) := by
        simp [StoreVersion.text, StoreVersion.chars, StoreVersion.upstream, hServer]
      have hUntil : (seq (group "server" (rep true 1 anyChar)) (literal "-mir".toList)).Takes
          (server ++ "-mir".toList) (v.upstream ++ [] ++ []) [("server", server)] := by
        apply takes_group_until
        · intro c hc
          simp [anyChar, hLine c hc]
        · exact List.length_pos_of_ne_nil hNe
        · intro k hLater
          simpa using no_later_mir v server hLater
      have hTakes := takes_seq (takes_opt hUntil) hMir
      rw [← hText] at hTakes
      refine ⟨_, by rw [hRe, reMatch_of_takes hTakes], ?_⟩
      simp [Cursor.group, List.lookup_append, hLookup, MirVersion.text]

/-- Both patterns recover the Mir version they were given, so comparing what they
recover compares the Mir versions. -/
theorem versions_agree (deb : DebVersion) (store : StoreVersion) :
    (∃ m, mirVersionRe.fullmatch deb.text = some m ∧
      (m.group "version").getD "" ++ (m.group "build").getD "" = deb.mir.text) ∧
    (∃ m, snapVersionRe.reMatch store.text = some m ∧ m.group "mir" = some store.mir.text) ∧
    (∃ version, mirVersion deb.text = some version ∧
      sameMirVersion version store.text = some (decide (deb.mir.text = store.mir.text))) := by
  have hDeb := mirVersion_deb deb
  obtain ⟨m, hMatch, hMir⟩ := reMatch_store store
  refine ⟨?_, ⟨m, hMatch, hMir⟩, deb.mir.text, hDeb, ?_⟩
  · rw [mirVersion, Option.map_eq_some_iff] at hDeb
    exact hDeb
  · rw [sameMirVersion, hMatch, Option.map_some, hMir]
    simp [beq_eq_decide]

/-- `2.20.1+dev5`. -/
def devVersion : MirVersion where
  numbers := "2.20.1".toList
  build := some
    { sign := '+', kind := "dev".toList, number := "5".toList
      sign_ok := by decide, kind_ok := .inr rfl, number_ne := by decide, number_ok := List.all_eq_true.mp (by decide) }
  numbers_ne := by decide
  numbers_ok := List.all_eq_true.mp (by decide)

/-- A source built from a commit, with an Ubuntu part and more behind it. -/
def devSource : DebVersion where
  mir := devVersion
  commit := "0a1b2c3".toList
  distro := "0ubuntu1~24.04".toList
  extra := "-ppa1".toList
  commit_ne := by decide
  commit_ok := List.all_eq_true.mp (by decide)
  distro_ne := by decide
  distro_ok := by simp
  extra_ok := .inr rfl
  extra_line := by simp

/-- A snap of that Mir version, behind the version of its server. -/
def devSnap : StoreVersion where
  server := some "157".toList
  mir := devVersion
  snap := some "42".toList
  server_ok := by simp
  snap_ok := by simp [List.infix_cons_iff]

/-- The two patterns find the same version in both. -/
theorem versions_agree_dev : devSource.text = "2.20.1+dev5-g0a1b2c3-0ubuntu1~24.04-ppa1" ∧
    devSnap.text = "157-mir2.20.1+dev5-snap42" ∧
    ∃ version, mirVersion devSource.text = some version ∧ sameMirVersion version devSnap.text = some true := by
  obtain ⟨version, hVersion, hSame⟩ := (versions_agree devSource devSnap).2.2
  exact ⟨by decide, by decide, version, hVersion, by simpa [devSource, devSnap] using hSame⟩

end MirCi.ProcessSnaps
