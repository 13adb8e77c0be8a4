import MirCi.Python.Dict
import MirCi.Python.Rounding

/-! `OSKMap`: where the keys of the on-screen keyboard are, by proportions of its region,
and that rounding to whole pixels keeps every key in its cell. Computed exactly. -/
namespace MirCi.Robot

open Python

/-- A row of characters, with its margins and its height by proportion. -/
structure OskRow where
  chars : List Char
  leftMargin : ℚ
  yOffset : ℚ
  rightMargin : ℚ
  nonempty : chars ≠ [] := by simp
  margins : 0 ≤ leftMargin ∧ 0 ≤ rightMargin ∧ leftMargin + rightMargin ≤ 1 := by norm_num
  height : 0 ≤ yOffset ∧ yOffset ≤ 1 := by norm_num

/-- A named key, by proportion. -/
structure OskKey where
  name : String
  xOffset : ℚ
  yOffset : ℚ
  width : 0 ≤ xOffset ∧ xOffset ≤ 1 := by norm_num
  height : 0 ≤ yOffset ∧ yOffset ≤ 1 := by norm_num

def OskRow.upper (row : OskRow) : OskRow :=
  { row with
    chars := row.chars.map Char.toUpper
    nonempty := by simpa using row.nonempty }

/-- `LETTER_ROWS`. -/
def letterRows : List OskRow :=
  [{ chars := "qwertyuiop".toList, leftMargin := 0, yOffset := 1 / 8, rightMargin := 0 },
   { chars := "asdfghjkl".toList, leftMargin := 1 / 20, yOffset := 3 / 8, rightMargin := 1 / 20 },
   { chars := "zxcvbnm".toList, leftMargin := 3 / 20, yOffset := 5 / 8, rightMargin := 3 / 20 }]

def defaultRows : List OskRow :=
  letterRows ++ letterRows.map OskRow.upper ++
    [{ chars := "1234567890".toList, leftMargin := 0, yOffset := 1 / 8, rightMargin := 0 },
     { chars := "@#$%&-_+()".toList, leftMargin := 0, yOffset := 3 / 8, rightMargin := 0 },
     { chars := ",\"':;!?".toList, leftMargin := 3 / 20, yOffset := 5 / 8, rightMargin := 3 / 20 }]

def emojiRows : List OskRow :=
  [{ chars := "😀😁😅😂😊😇🙃".toList, leftMargin := 0, yOffset := 1 / 8, rightMargin := 0 },
   { chars := "😍😘😋😜😎🥳😔".toList, leftMargin := 0, yOffset := 3 / 8, rightMargin := 0 },
   { chars := "😢😭😡😱🤔😬🙄".toList, leftMargin := 0, yOffset := 5 / 8, rightMargin := 0 }]

/-- `ROWS`. -/
def oskRows : List (String × List OskRow) := [("default", defaultRows), ("emoji", emojiRows)]

def defaultKeys : List OskKey :=
  [{ name := "shift", xOffset := 3 / 40, yOffset := 5 / 8 },
   { name := "backspace", xOffset := 37 / 40, yOffset := 5 / 8 },
   { name := "123", xOffset := 1 / 10, yOffset := 7 / 8 },
   { name := "ABC", xOffset := 1 / 10, yOffset := 7 / 8 },
   { name := "layouts", xOffset := 1 / 4, yOffset := 7 / 8 },
   { name := "space", xOffset := 1 / 2, yOffset := 7 / 8 },
   { name := "dot", xOffset := 3 / 4, yOffset := 7 / 8 },
   { name := "enter", xOffset := 9 / 10, yOffset := 7 / 8 }]

def emojiKeys : List OskKey :=
  [{ name := "layouts", xOffset := 1 / 20, yOffset := 7 / 8 },
   { name := "backspace", xOffset := 19 / 20, yOffset := 7 / 8 }]

/-- `KEYS`. -/
def oskKeys : List (String × List OskKey) := [("default", defaultKeys), ("emoji", emojiKeys)]

/-- A region of the screen. -/
structure OskRegion where
  left : ℤ
  top : ℤ
  right : ℤ
  bottom : ℤ
  wide : left ≤ right
  tall : top ≤ bottom

namespace OskRegion

def width (region : OskRegion) : ℤ := region.right - region.left

def height (region : OskRegion) : ℤ := region.bottom - region.top

end OskRegion

def OskRow.keyWidth (row : OskRow) (region : OskRegion) : ℚ :=
  (region.width - region.width * (row.leftMargin + row.rightMargin)) / row.chars.length

/-- Where the cells of a row begin. -/
def OskRow.xOffset (row : OskRow) (region : OskRegion) : ℚ := region.left + row.leftMargin * region.width

/-- The point for the key at an index of its row. -/
def OskRow.point (row : OskRow) (region : OskRegion) (index : ℕ) : ℤ × ℤ :=
  (roundHalfEven (row.xOffset region + index * row.keyWidth region + row.keyWidth region / 2),
    roundHalfEven (region.top + row.yOffset * region.height))

def OskKey.point (key : OskKey) (region : OskRegion) : ℤ × ℤ :=
  (roundHalfEven (region.left + key.xOffset * region.width),
    roundHalfEven (region.top + key.yOffset * region.height))

/-- `get_point_for_key`. -/
def getPointForKey (layout : String) (region : OskRegion) (key : String) : Except Exc (ℤ × ℤ) :=
  let keyError : Exc := { cls := .keyError, text := s!"Failed to find {key} in layout '{layout}'" }
  match oskRows.lookup layout with
  | none => .error keyError
  | some rows =>
      match rows.find? fun row => key ∈ row.chars.map String.singleton with
      | some row => .ok (row.point region ((row.chars.map String.singleton).idxOf key))
      | none =>
          match (oskKeys.lookup layout).bind fun keys => keys.find? fun named => named.name = key with
          | some named => .ok (named.point region)
          | none => .error keyError

/-! ### Inside the region -/

def OskRegion.Contains (region : OskRegion) (point : ℤ × ℤ) : Prop :=
  (region.left ≤ point.1 ∧ point.1 ≤ region.right) ∧ region.top ≤ point.2 ∧ point.2 ≤ region.bottom

theorem round_between {low high : ℤ} {q : ℚ} (hLow : low ≤ q) (hHigh : q ≤ high) :
    low ≤ roundHalfEven q ∧ roundHalfEven q ≤ high := by
  have hUp := roundHalfEven_mono hLow
  have hDown := roundHalfEven_mono hHigh
  rw [roundHalfEven_intCast] at hUp hDown
  exact ⟨hUp, hDown⟩

/-- A proportion of a segment is on it. -/
theorem proportion_between {low high : ℤ} (hOrder : low ≤ high) {part : ℚ} (hPart : 0 ≤ part ∧ part ≤ 1) :
    (low : ℚ) ≤ low + part * (high - low : ℤ) ∧ (low : ℚ) + part * (high - low : ℤ) ≤ high := by
  have hWidth : (0 : ℚ) ≤ (high - low : ℤ) := by exact_mod_cast Int.sub_nonneg_of_le hOrder
  have hLess : part * (high - low : ℤ) ≤ (high - low : ℤ) := mul_le_of_le_one_left hWidth hPart.2
  have hNonneg : 0 ≤ part * (high - low : ℤ) := mul_nonneg hPart.1 hWidth
  have hCast : ((high - low : ℤ) : ℚ) = high - low := Int.cast_sub high low
  exact ⟨by linarith, by linarith⟩

theorem OskKey.point_inside (key : OskKey) (region : OskRegion) : region.Contains (key.point region) := by
  obtain ⟨hLeft, hRight⟩ := proportion_between region.wide key.width
  obtain ⟨hTop, hBottom⟩ := proportion_between region.tall key.height
  exact ⟨round_between hLeft hRight, round_between hTop hBottom⟩

namespace OskRow

variable (row : OskRow) (region : OskRegion)

theorem length_pos : 0 < row.chars.length := List.length_pos_iff.mpr row.nonempty

theorem width_nonneg : (0 : ℚ) ≤ region.width := by exact_mod_cast Int.sub_nonneg_of_le region.wide

/-- The cells fill what the margins leave. -/
theorem length_mul_keyWidth :
    row.chars.length * row.keyWidth region = region.width * (1 - row.leftMargin - row.rightMargin) := by
  have hLength : (row.chars.length : ℚ) ≠ 0 := by exact_mod_cast row.length_pos.ne'
  rw [keyWidth, mul_div_cancel₀ _ hLength]
  ring

/-- The cells follow one another from the left margin to the right one. -/
theorem cells_end : row.xOffset region + row.chars.length * row.keyWidth region =
    region.right - row.rightMargin * region.width := by
  have hWidth : (region.width : ℚ) = region.right - region.left := Int.cast_sub _ _
  rw [length_mul_keyWidth, xOffset]
  linear_combination hWidth

theorem keyWidth_nonneg : 0 ≤ row.keyWidth region := by
  have hLength : (0 : ℚ) < row.chars.length := by exact_mod_cast row.length_pos
  have hSpan : 0 ≤ region.width * (1 - row.leftMargin - row.rightMargin) :=
    mul_nonneg (width_nonneg region) (by linarith [row.margins.2.2])
  rw [← length_mul_keyWidth] at hSpan
  exact nonneg_of_mul_nonneg_right hSpan hLength

/-- The middle of a cell lies between the edges of the region. -/
theorem middle_between {index : ℕ} (hIndex : index < row.chars.length) :
    (region.left : ℚ) ≤ row.xOffset region + index * row.keyWidth region + row.keyWidth region / 2 ∧
      row.xOffset region + index * row.keyWidth region + row.keyWidth region / 2 ≤ region.right := by
  have hKey := row.keyWidth_nonneg region
  have hCells : ((index : ℚ) + 1) * row.keyWidth region ≤ row.chars.length * row.keyWidth region :=
    mul_le_mul_of_nonneg_right (by exact_mod_cast hIndex) hKey
  have hMargin := mul_nonneg row.margins.1 (width_nonneg region)
  have hEnd := mul_nonneg row.margins.2.1 (width_nonneg region)
  have hIndexed : 0 ≤ (index : ℚ) * row.keyWidth region := mul_nonneg (Nat.cast_nonneg index) hKey
  have hWidth : (region.width : ℚ) = region.right - region.left := Int.cast_sub _ _
  rw [length_mul_keyWidth] at hCells
  rw [xOffset]
  exact ⟨by linarith, by linarith⟩

theorem point_inside {index : ℕ} (hIndex : index < row.chars.length) :
    region.Contains (row.point region index) := by
  obtain ⟨hLeft, hRight⟩ := row.middle_between region hIndex
  obtain ⟨hTop, hBottom⟩ := proportion_between region.tall row.height
  exact ⟨round_between hLeft hRight, round_between hTop hBottom⟩

/-! ### Inside the cells -/

/-- Strictly within the cell at this index. -/
def InCell (index : ℕ) (x : ℤ) : Prop :=
  row.xOffset region + index * row.keyWidth region < x ∧
    x < row.xOffset region + (index + 1) * row.keyWidth region

variable {row region}

/-- Rounding does not leave a cell that is wider than a pixel. -/
theorem inCell_point (hWide : 1 < row.keyWidth region) (index : ℕ) :
    row.InCell region index (row.point region index).1 := by
  have hNear := (roundHalfEven_spec
    (row.xOffset region + index * row.keyWidth region + row.keyWidth region / 2)).1
  rw [abs_le] at hNear
  refine ⟨?_, ?_⟩ <;> rw [point] <;> linarith

theorem InCell.lt {i j : ℕ} {x y : ℤ} (hi : row.InCell region i x) (hj : row.InCell region j y)
    (hLess : i < j) : x < y := by
  have hCells : ((i : ℚ) + 1) * row.keyWidth region ≤ j * row.keyWidth region :=
    mul_le_mul_of_nonneg_right (by exact_mod_cast hLess) (row.keyWidth_nonneg region)
  have hOrder : (x : ℚ) < y := by linarith [hi.2, hj.1]
  exact_mod_cast hOrder

end OskRow

/-- The key is half a cell or more outside the row. -/
def OskKey.Beside (key : OskKey) (row : OskRow) : Prop :=
  key.xOffset + (1 - row.leftMargin - row.rightMargin) / (2 * row.chars.length) ≤ row.leftMargin ∨
    1 - row.rightMargin + (1 - row.leftMargin - row.rightMargin) / (2 * row.chars.length) ≤ key.xOffset

instance (key : OskKey) (row : OskRow) : Decidable (key.Beside row) :=
  inferInstanceAs (Decidable (_ ∨ _))

/-- Rounding does not bring such a key into a cell that is wider than a pixel. -/
theorem OskKey.Beside.not_inCell {key : OskKey} {row : OskRow} {region : OskRegion} (h : key.Beside row)
    (hWide : 1 < row.keyWidth region) {index : ℕ} (hIndex : index < row.chars.length) :
    ¬row.InCell region index (key.point region).1 := by
  rintro ⟨hAfter, hBefore⟩
  have hLength : (row.chars.length : ℚ) ≠ 0 := by exact_mod_cast row.length_pos.ne'
  have hNear := (roundHalfEven_spec (region.left + key.xOffset * region.width)).1
  rw [abs_le] at hNear
  rw [OskKey.point, OskRow.xOffset] at hAfter hBefore
  have hHalf : (1 - row.leftMargin - row.rightMargin) / (2 * row.chars.length) * region.width =
      row.keyWidth region / 2 := by
    rw [OskRow.keyWidth]
    field_simp
    ring
  have hIndexed : 0 ≤ (index : ℚ) * row.keyWidth region :=
    mul_nonneg (Nat.cast_nonneg index) (row.keyWidth_nonneg region)
  have hCells : ((index : ℚ) + 1) * row.keyWidth region ≤ row.chars.length * row.keyWidth region :=
    mul_le_mul_of_nonneg_right (by exact_mod_cast hIndex) (row.keyWidth_nonneg region)
  rw [row.length_mul_keyWidth] at hCells
  rcases h with h | h
  · have hScaled := mul_le_mul_of_nonneg_right h (OskRow.width_nonneg region)
    rw [add_mul, hHalf] at hScaled
    linarith
  · have hScaled := mul_le_mul_of_nonneg_right h (OskRow.width_nonneg region)
    rw [add_mul, hHalf] at hScaled
    linarith

/-! ### The layouts -/

/-- No character stands twice in a layout. -/
theorem oskRows_distinct : ∀ layout ∈ oskRows, (layout.2.flatMap OskRow.chars).Nodup := by decide +kernel

/-- No name of a layout stands twice, or is a single character. -/
theorem oskKeys_distinct : ∀ layout ∈ oskKeys,
    (layout.2.map OskKey.name).Nodup ∧ ∀ key ∈ layout.2, key.name.toList.length ≠ 1 := by decide +kernel

/-- A key at the height of a row stands beside it. -/
theorem oskKeys_beside : ∀ keys ∈ oskKeys, ∀ rows ∈ oskRows, keys.1 = rows.1 → ∀ key ∈ keys.2, ∀ row ∈ rows.2,
    key.yOffset = row.yOffset → key.Beside row := by decide +kernel

section Layout

variable {layout : String} {rows : List OskRow} {keys : List OskKey} {row : OskRow}

theorem singleton_injective : Function.Injective String.singleton := by
  intro c d h
  have hList := congrArg String.toList h
  simpa using hList

theorem mem_oskRows (h : oskRows.lookup layout = some rows) : (layout, rows) ∈ oskRows :=
  (Dict.lookup_eq_some (by decide)).mp h

theorem mem_oskKeys (h : oskKeys.lookup layout = some keys) : (layout, keys) ∈ oskKeys :=
  (Dict.lookup_eq_some (by decide)).mp h

/-- A character is found in its own row. -/
theorem find_row (hRows : oskRows.lookup layout = some rows) (hRow : row ∈ rows) {c : Char}
    (hChar : c ∈ row.chars) :
    (rows.find? fun row => String.singleton c ∈ row.chars.map String.singleton) = some row := by
  have hApart := (List.nodup_flatMap.mp (oskRows_distinct _ (mem_oskRows hRows))).2
  have hMem : String.singleton c ∈ row.chars.map String.singleton := List.mem_map_of_mem hChar
  obtain ⟨found, hFound⟩ : ∃ found,
      (rows.find? fun row => String.singleton c ∈ row.chars.map String.singleton) = some found := by
    rw [← Option.isSome_iff_exists, List.find?_isSome]
    exact ⟨row, hRow, by simpa using hMem⟩
  have hIn : c ∈ found.chars := by
    have hHas := List.find?_some hFound
    simpa [singleton_injective.eq_iff] using hHas
  by_contra hOther
  have hNe : found ≠ row := by
    rintro rfl
    exact hOther hFound
  have hSymm : Std.Symm (Function.onFun List.Disjoint OskRow.chars) := ⟨fun _ _ h => h.symm⟩
  exact hApart.forall (List.mem_of_find?_eq_some hFound) hRow hNe hIn hChar

/-- The point for a character is that of its place in its row. -/
theorem getPointForKey_char (hRows : oskRows.lookup layout = some rows) (region : OskRegion) (hRow : row ∈ rows)
    {index : ℕ} (hIndex : index < row.chars.length) :
    getPointForKey layout region (String.singleton (row.chars.get ⟨index, hIndex⟩)) =
      .ok (row.point region index) := by
  have hNodup := (List.nodup_flatMap.mp (oskRows_distinct _ (mem_oskRows hRows))).1 row hRow
  have hIdx :
      (row.chars.map String.singleton).idxOf (String.singleton (row.chars.get ⟨index, hIndex⟩)) = index := by
    have hMapped : String.singleton (row.chars.get ⟨index, hIndex⟩) =
        (row.chars.map String.singleton).get ⟨index, by simpa using hIndex⟩ := by simp
    rw [hMapped]
    exact List.get_idxOf (hNodup.map singleton_injective) _
  rw [getPointForKey, hRows]
  dsimp only
  rw [find_row hRows hRow (List.get_mem ..)]
  dsimp only
  rw [hIdx]

/-- The point for a named key is its own. -/
theorem getPointForKey_named (hRows : oskRows.lookup layout = some rows)
    (hKeys : oskKeys.lookup layout = some keys) (region : OskRegion) {key : OskKey} (hKey : key ∈ keys) :
    getPointForKey layout region key.name = .ok (key.point region) := by
  obtain ⟨hNames, hLong⟩ := oskKeys_distinct _ (mem_oskKeys hKeys)
  have hNoRow : (rows.find? fun row => key.name ∈ row.chars.map String.singleton) = none := by
    rw [List.find?_eq_none]
    intro row _ hIn
    obtain ⟨c, -, hName⟩ := List.mem_map.mp (of_decide_eq_true hIn)
    exact hLong key hKey (by simp [← hName])
  have hFind : (keys.find? fun named => named.name = key.name) = some key := by
    obtain ⟨found, hFound⟩ : ∃ found, (keys.find? fun named => named.name = key.name) = some found := by
      rw [← Option.isSome_iff_exists, List.find?_isSome]
      exact ⟨key, hKey, by simp⟩
    have hName : found.name = key.name := by simpa using List.find?_some hFound
    rw [hFound, List.inj_on_of_nodup_map hNames (List.mem_of_find?_eq_some hFound) hKey hName]
  rw [getPointForKey, hRows]
  dsimp only
  rw [hNoRow]
  dsimp only
  rw [hKeys, Option.bind_some, hFind]

/-- What a layout has a key for: the characters of its rows, and its names. -/
def HasKey (layout key : String) : Prop :=
  (∃ rows, oskRows.lookup layout = some rows ∧ ∃ row ∈ rows, ∃ c ∈ row.chars, key = String.singleton c) ∨
    ∃ keys, oskKeys.lookup layout = some keys ∧ ∃ named ∈ keys, key = named.name

/-- A layout with named keys has rows. -/
theorem rows_of_keys (hKeys : oskKeys.lookup layout = some keys) : ∃ rows, oskRows.lookup layout = some rows := by
  have hLayouts : ∀ entry ∈ oskKeys, (oskRows.lookup entry.1).isSome = true := by decide
  exact Option.isSome_iff_exists.mp (hLayouts _ (mem_oskKeys hKeys))

/-- Every key of a layout has its point, inside the region. -/
theorem key_inside {key : String} (h : HasKey layout key) (region : OskRegion) :
    ∃ point, getPointForKey layout region key = .ok point ∧ region.Contains point := by
  rcases h with ⟨rows, hRows, row, hRow, c, hChar, rfl⟩ | ⟨keys, hKeys, named, hNamed, rfl⟩
  · obtain ⟨index, rfl⟩ := List.mem_iff_get.mp hChar
    exact ⟨_, getPointForKey_char hRows region hRow index.2, row.point_inside region index.2⟩
  · obtain ⟨rows, hRows⟩ := rows_of_keys hKeys
    exact ⟨_, getPointForKey_named hRows hKeys region hNamed, named.point_inside region⟩

/-- In a layout every key has its point, inside the region. The cells of a row tile it from margin to margin,
and when they are wider than a pixel each key is hit within its own cell, one after the other, and by no
named key at their height. -/
theorem osk_keys_hit (hRows : oskRows.lookup layout = some rows) (hKeys : oskKeys.lookup layout = some keys)
    (region : OskRegion) :
    (∀ key, HasKey layout key → ∃ point, getPointForKey layout region key = .ok point ∧ region.Contains point) ∧
      ∀ row ∈ rows,
        row.xOffset region + row.chars.length * row.keyWidth region =
            region.right - row.rightMargin * region.width ∧
          (1 < row.keyWidth region →
            (∀ index : Fin row.chars.length, ∃ point,
              getPointForKey layout region (String.singleton (row.chars.get index)) = .ok point ∧
                row.InCell region index point.1) ∧
            (∀ i j : Fin row.chars.length, ∀ p q,
              getPointForKey layout region (String.singleton (row.chars.get i)) = .ok p →
              getPointForKey layout region (String.singleton (row.chars.get j)) = .ok q →
                (i < j → p.1 < q.1) ∧ (i ≠ j → p ≠ q)) ∧
            ∀ key ∈ keys, key.yOffset = row.yOffset → ∀ point,
              getPointForKey layout region key.name = .ok point →
                ∀ index : Fin row.chars.length, ¬row.InCell region index point.1) := by
  refine ⟨fun key hKey => key_inside hKey region, fun row hRow => ⟨row.cells_end region, fun hWide => ⟨?_, ?_, ?_⟩⟩⟩
  · intro index
    exact ⟨_, getPointForKey_char hRows region hRow index.2, OskRow.inCell_point hWide index⟩
  · intro i j p q hp hq
    rw [getPointForKey_char hRows region hRow i.2] at hp
    rw [getPointForKey_char hRows region hRow j.2] at hq
    cases hp
    cases hq
    have hCell := OskRow.inCell_point hWide
    refine ⟨fun hLess => (hCell i).lt (hCell j) hLess, fun hNe hSame => ?_⟩
    rcases Nat.lt_or_gt_of_ne (Fin.val_ne_of_ne hNe) with hLess | hLess
    · exact ((hCell i).lt (hCell j) hLess).ne (congrArg Prod.fst hSame)
    · exact ((hCell j).lt (hCell i) hLess).ne (congrArg Prod.fst hSame.symm)
  · intro key hKey hHeight point hPoint index
    rw [getPointForKey_named hRows hKeys region hKey] at hPoint
    cases hPoint
    have hBeside := oskKeys_beside _ (mem_oskKeys hKeys) _ (mem_oskRows hRows) rfl key hKey row hRow hHeight
    exact hBeside.not_inCell hWide index.2

/-- The lower half of a screen, 800 pixels high. -/
def lowerHalf : OskRegion := ⟨0, 400, 1000, 800, by decide, by decide⟩

/-- The first row of letters. -/
def topLetters : OskRow := { chars := "qwertyuiop".toList, leftMargin := 0, yOffset := 1 / 8, rightMargin := 0 }

/-- `w` is hit within the second of ten cells of 100 pixels. -/
theorem osk_keys_hit_default : topLetters.keyWidth lowerHalf = 100 ∧ ∃ point,
    getPointForKey "default" lowerHalf "w" = .ok point ∧ topLetters.InCell lowerHalf 1 point.1 := by
  have hWidth : topLetters.keyWidth lowerHalf = 100 := by decide +kernel
  have hWide : 1 < topLetters.keyWidth lowerHalf := by
    rw [hWidth]
    norm_num
  have hRows : oskRows.lookup "default" = some defaultRows := by rfl
  have hKeys : oskKeys.lookup "default" = some defaultKeys := by rfl
  have hRow : topLetters ∈ defaultRows := List.mem_append_left _ (List.mem_append_left _ (.head _))
  have hHit := ((osk_keys_hit hRows hKeys lowerHalf).2 topLetters hRow).2 hWide
  exact ⟨hWidth, hHit.1 ⟨1, by decide⟩⟩

end Layout

end MirCi.Robot
