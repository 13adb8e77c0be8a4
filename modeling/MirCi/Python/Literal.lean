import Mathlib.Tactic

/-! Python source that begins with a string literal in single quotes, as far as the literal
is read character by character. -/
namespace Python

/-- A character that stands for itself in a literal, unless it closes it. -/
def Plain (c : Char) : Prop := c ≠ '\\' ∧ c ≠ '\n' ∧ c ≠ '\r' ∧ c ≠ Char.ofNat 0

instance (c : Char) : Decidable (Plain c) := inferInstanceAs (Decidable (_ ∧ _))

/-- What a source begins with. -/
inductive Literal where
  | string (value rest : List Char)
  /-- A literal that is not closed: a `SyntaxError`. -/
  | unterminated
  /-- Another expression, or a literal with an escape or the end of a line in it. -/
  | beyond
  deriving DecidableEq, Repr

namespace Literal

def cons (c : Char) : Literal → Literal
  | string value rest => string (c :: value) rest
  | unterminated => unterminated
  | beyond => beyond

/-- After one quote. -/
def readShort : List Char → Literal
  | [] => unterminated
  | c :: rest =>
      if c = '\'' then string [] rest
      else if Plain c then (readShort rest).cons c
      else beyond

/-- After three quotes. -/
def readLong : List Char → Literal
  | '\'' :: '\'' :: '\'' :: rest => string [] rest
  | [] => unterminated
  | c :: rest => if Plain c then (readLong rest).cons c else beyond

def read : List Char → Literal
  | '\'' :: '\'' :: '\'' :: rest => readLong rest
  | '\'' :: rest => readShort rest
  | _ => beyond

variable {cs rest : List Char}

theorem readShort_append (hPlain : ∀ c ∈ cs, Plain c) (hOpen : '\'' ∉ cs) :
    readShort (cs ++ '\'' :: rest) = string cs rest := by
  induction cs with
  | nil => simp [readShort]
  | cons c cs ih =>
      have hOther : c ≠ '\'' := fun h => hOpen (by simp [h])
      have hLater : readShort (cs ++ '\'' :: rest) = string cs rest :=
        ih (fun d hd => hPlain d (by simp [hd])) fun h => hOpen (by simp [h])
      rw [List.cons_append, readShort, if_neg hOther, if_pos (hPlain c (by simp)), hLater, cons]

/-- A literal without quotes reads as what is between its quotes, unless the source goes on with one. -/
theorem read_quoted (hPlain : ∀ c ∈ cs, Plain c) (hOpen : '\'' ∉ cs) (hRest : rest.head? ≠ some '\'') :
    read ('\'' :: (cs ++ '\'' :: rest)) = string cs rest := by
  have hShort : read ('\'' :: (cs ++ '\'' :: rest)) = readShort (cs ++ '\'' :: rest) := by
    rw [read]
    rintro tail hTail
    cases cs with
    | nil =>
        obtain rfl : rest = '\'' :: tail := by simpa using hTail
        exact hRest rfl
    | cons c cs =>
        obtain rfl : c = '\'' := (List.cons.inj hTail).1
        exact hOpen (by simp)
  rw [hShort, readShort_append hPlain hOpen]

end Literal

end Python
