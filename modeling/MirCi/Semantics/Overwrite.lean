import Mathlib.Tactic

/-! Writing into a file at a position. Whoever writes pieces of one text where they belong does no harm
to what is already right. -/
namespace Semantics

variable {α : Type*}

/-- A write at a position. What is skipped is filled up. -/
def writeAt (blank : α) (content : List α) (position : ℕ) (bytes : List α) : List α :=
  content.take position ++ List.replicate (position - content.length) blank ++ bytes ++
    content.drop (position + bytes.length)

/-- So many elements from a position on. -/
def piece (text : List α) (position count : ℕ) : List α := (text.drop position).take count

/-- So much of the text is written, and nothing is left behind its end. -/
structure Partly (text content : List α) (n : ℕ) : Prop where
  written : n ≤ content.length
  right : ∀ i < n, content[i]? = text[i]?
  short : content.length ≤ text.length

theorem partly_nil (text : List α) : Partly text [] 0 := ⟨le_refl 0, fun i h => by omega, Nat.zero_le _⟩

theorem Partly.eq_of_all {text content : List α} (h : Partly text content text.length) : content = text := by
  have hLength : content.length = text.length := le_antisymm h.short h.written
  apply List.ext_getElem?
  intro i
  by_cases hIn : i < text.length
  · exact h.right i hIn
  · rw [List.getElem?_eq_none (by omega), List.getElem?_eq_none (by omega)]

section Write

variable {text content : List α} {n position count : ℕ}

theorem length_piece (h : position + count ≤ text.length) : (piece text position count).length = count := by
  rw [piece, List.length_take, List.length_drop]
  omega

theorem length_writeAt (blank : α) (bytes : List α) :
    (writeAt blank content position bytes).length = max content.length (position + bytes.length) := by
  simp only [writeAt, List.length_append, List.length_take, List.length_replicate, List.length_drop]
  omega

/-- What was there before a written piece, and the piece. -/
theorem getElem?_writeAt_of_lt (blank : α) (bytes : List α) {i : ℕ} (hIn : i < content.length) (h : i < position) :
    (writeAt blank content position bytes)[i]? = content[i]? := by
  have hTake : i < (content.take position).length := by
    rw [List.length_take]
    omega
  rw [writeAt, List.append_assoc, List.append_assoc, List.getElem?_append_left hTake, List.getElem?_take_of_lt h]

theorem getElem?_writeAt_of_ge (blank : α) (bytes : List α) {i : ℕ} (h : position ≤ i) :
    (writeAt blank content position bytes)[i]? =
      if i < position + bytes.length then bytes[i - position]? else content[i]? := by
  have hFront : (content.take position ++ List.replicate (position - content.length) blank).length = position := by
    rw [List.length_append, List.length_take, List.length_replicate]
    omega
  rw [writeAt, List.append_assoc, List.getElem?_append_right (by omega), hFront]
  split
  · exact List.getElem?_append_left (by omega)
  · rw [List.getElem?_append_right (by omega), List.getElem?_drop]
    congr 1
    omega

theorem getElem?_piece {i : ℕ} (hFrom : position ≤ i) (hTo : i < position + count) :
    (piece text position count)[i - position]? = text[i]? := by
  rw [piece, List.getElem?_take_of_lt (by omega), List.getElem?_drop]
  congr 1
  omega

/-- Whatever is written of the text where it belongs is right, and so stays what was right. -/
theorem right_writeAt (h : Partly text content n) (blank : α) (hPiece : position + count ≤ text.length) {i : ℕ}
    (hi : i < n ∨ position ≤ i ∧ i < position + count) :
    (writeAt blank content position (piece text position count))[i]? = text[i]? := by
  by_cases hBefore : i < position
  · have hOld : i < n := by omega
    rw [getElem?_writeAt_of_lt blank _ (by have := h.written; omega) hBefore]
    exact h.right i hOld
  · rw [getElem?_writeAt_of_ge blank _ (by omega), length_piece hPiece]
    split
    · exact getElem?_piece (by omega) ‹_›
    · exact h.right i (by omega)

theorem short_writeAt (h : Partly text content n) (blank : α) (hPiece : position + count ≤ text.length) :
    (writeAt blank content position (piece text position count)).length ≤ text.length := by
  rw [length_writeAt, length_piece hPiece]
  exact max_le h.short hPiece

/-- Another writer of the same text does no harm. -/
theorem Partly.write (h : Partly text content n) (blank : α) (hPiece : position + count ≤ text.length) :
    Partly text (writeAt blank content position (piece text position count)) n where
  written := by
    rw [length_writeAt]
    exact le_max_of_le_left h.written
  right i hi := right_writeAt h blank hPiece (.inl hi)
  short := short_writeAt h blank hPiece

/-- Who goes on where the text is right so far has written more of it. -/
theorem Partly.write_next (h : Partly text content n) (blank : α) (hPiece : n + count ≤ text.length) :
    Partly text (writeAt blank content n (piece text n count)) (n + count) where
  written := by
    rw [length_writeAt, length_piece hPiece]
    exact le_max_right _ _
  right i hi := right_writeAt h blank hPiece (by omega)
  short := short_writeAt h blank hPiece

end Write

end Semantics
