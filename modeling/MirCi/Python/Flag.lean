import Mathlib.Data.BitVec
import Mathlib.Data.Fintype.Basic
import Mathlib.Tactic

/-! `enum.Flag`: a value is a set of single flags, one bit each. -/
namespace Python

/-- A flag of an enumeration with `n` single flags. -/
abbrev Flag (n : ℕ) := BitVec n

namespace Flag

variable {n : ℕ}

/-- `a in b`: all flags of the first are flags of the second. The empty value is in every value. -/
def mem (a b : Flag n) : Bool := b &&& a == a

/-- The single flags of a value. -/
def singles (a : Flag n) : Finset (Fin n) := Finset.univ.filter fun i => a.getLsb i

@[simp] theorem mem_singles {a : Flag n} {i : Fin n} : i ∈ singles a ↔ a.getLsb i = true := by
  simp [singles]

/-- A value is known by its single flags, so that flags can be reasoned about as sets. -/
theorem singles_injective : Function.Injective (singles : Flag n → Finset (Fin n)) := by
  intro a b h
  apply BitVec.eq_of_getLsbD_eq
  intro i hi
  have hBit : a.getLsb ⟨i, hi⟩ = true ↔ b.getLsb ⟨i, hi⟩ = true := by
    rw [← mem_singles, ← mem_singles, h]
  exact Bool.eq_iff_iff.mpr hBit

@[simp] theorem singles_zero : singles (0 : Flag n) = ∅ := by
  ext i
  simp [BitVec.getLsb]

@[simp] theorem singles_or (a b : Flag n) : singles (a ||| b) = singles a ∪ singles b := by
  ext i
  simp [BitVec.getLsb]

@[simp] theorem singles_and (a b : Flag n) : singles (a &&& b) = singles a ∩ singles b := by
  ext i
  simp [BitVec.getLsb]

/-- Membership is inclusion of the single flags. -/
theorem mem_iff {a b : Flag n} : mem a b = true ↔ singles a ⊆ singles b := by
  rw [mem, beq_iff_eq, ← singles_injective.eq_iff, singles_and, Finset.inter_eq_right]

end Flag

end Python
