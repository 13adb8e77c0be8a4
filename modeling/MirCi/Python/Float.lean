import Mathlib.Data.Int.Log
import MirCi.Python.Exception

/-! Division of Python integers. `a / b` is the exact quotient rounded to the
nearest double, ties to the even significand; `int` cuts off the fraction. A
double is represented by the rational it denotes. -/
namespace Python

/-- The nearest integer, the even one on a tie. -/
def roundHalfEven (q : ℚ) : ℤ :=
  let low := ⌊q⌋
  if q - low < 1 / 2 then low
  else if 1 / 2 < q - low then low + 1
  else if low % 2 = 0 then low else low + 1

/-- The distance between neighbouring doubles at `q`: 53 bits of significand,
no exponent below that of the smallest subnormal. -/
def ulp (q : ℚ) : ℚ := 2 ^ max (Int.log 2 |q| - 52) (-1074)

/-- The double nearest to `q`, or nothing when it is out of range. -/
def toDouble (q : ℚ) : Option ℚ :=
  let rounded := roundHalfEven (q / ulp q) * ulp q
  if |rounded| < 2 ^ 1024 then some rounded else none

/-- `a / b` on integers. -/
def trueDiv (a b : ℤ) : Except Exc ℚ :=
  if b = 0 then .error { cls := .zeroDivisionError, text := "division by zero" }
  else match toDouble (a / b) with
    | some quotient => .ok quotient
    | none =>
        .error { cls := .overflowError, text := "integer division result too large for a float" }

/-- `int(x)` of a double. -/
def truncate (q : ℚ) : ℤ := if 0 ≤ q then ⌊q⌋ else ⌈q⌉

example : (trueDiv 7 2).toOption.map truncate = some 3 := by decide +kernel

end Python
