import MirCi.Python.Rounding

/-! Python's floats, and what code that computes with them relies on. A finite
double is the rational it denotes, so the two zeros are one. -/
namespace Python

inductive Double where
  | finite (value : ℚ) (exact : toDouble value = some value)
  | infinity (negative : Bool)
  | nan
  deriving DecidableEq

namespace Double

/-- The double nearest to an exact result, an infinity when that is out of range. -/
def round (q : ℚ) : Double :=
  match h : toDouble q with
  | some r => .finite r (toDouble_of_toDouble h)
  | none => .infinity (decide (q < 0))

theorem round_of_some {q r : ℚ} (h : toDouble q = some r) :
    round q = .finite r (toDouble_of_toDouble h) := by
  unfold round
  split
  · rename_i r' h'
    obtain rfl : r' = r := Option.some.inj (h'.symm.trans h)
    rfl
  · rename_i h'
    cases h'.symm.trans h

theorem round_of_none {q : ℚ} (h : toDouble q = none) : round q = .infinity (decide (q < 0)) := by
  unfold round
  split
  · rename_i r' h'
    cases h'.symm.trans h
  · rfl

/-- `float(n)`. -/
def ofInt (n : ℤ) : Except Exc Double :=
  if (toDouble n).isSome then .ok (round n)
  else .error { cls := .overflowError, text := "int too large to convert to float" }

def neg : Double → Double
  | .finite a _ => round (-a)
  | .infinity negative => .infinity !negative
  | .nan => .nan

def add : Double → Double → Double
  | .finite a _, .finite b _ => round (a + b)
  | .infinity s, .infinity t => if s = t then .infinity s else .nan
  | .infinity s, .finite _ _ | .finite _ _, .infinity s => .infinity s
  | .nan, _ | _, .nan => .nan

def sub (x y : Double) : Double := x.add y.neg

def mul : Double → Double → Double
  | .finite a _, .finite b _ => round (a * b)
  | .infinity s, .infinity t => .infinity (s != t)
  | .infinity s, .finite a _ | .finite a _, .infinity s =>
      if a = 0 then .nan else .infinity (s != decide (a < 0))
  | .nan, _ | _, .nan => .nan

/-- `x / y`. -/
def div : Double → Double → Except Exc Double
  | x, .finite b _ =>
      if b = 0 then .error { cls := .zeroDivisionError, text := "float division by zero" }
      else .ok (match x with
        | .finite a _ => round (a / b)
        | .infinity s => .infinity (s != decide (b < 0))
        | .nan => .nan)
  | .finite _ _, .infinity _ => .ok (round 0)
  | _, _ => .ok .nan

/-- `x <= q` for a number that is known exactly. -/
def le : Double → ℚ → Bool
  | .finite a _, q => decide (a ≤ q)
  | .infinity negative, _ => negative
  | .nan, _ => false

/-- `x >= q` for a number that is known exactly. -/
def ge : Double → ℚ → Bool
  | .finite a _, q => decide (q ≤ a)
  | .infinity negative, _ => !negative
  | .nan, _ => false

/-- `x <= y`. -/
def atMost : Double → Double → Bool
  | x, .finite b _ => x.le b
  | .finite _ _, .infinity t => !t
  | .infinity s, .infinity t => s || !t
  | .nan, .infinity _ | _, .nan => false

/-- An integer taken from a finite double. -/
def toInteger (f : ℚ → ℤ) : Double → Except Exc ℤ
  | .finite a _ => .ok (f a)
  | .infinity _ =>
      .error { cls := .overflowError, text := "cannot convert float infinity to integer" }
  | .nan => .error { cls := .valueError, text := "cannot convert float NaN to integer" }

end Double

/-- What arithmetic on floats offers to the code that computes with them. -/
structure Arithmetic (F : Type) where
  ofInt : ℤ → Except Exc F
  /-- `m / n` on integers. -/
  divInt : ℤ → ℤ → Except Exc F
  add : F → F → F
  sub : F → F → F
  mul : F → F → F
  div : F → F → Except Exc F
  /-- `x ** 0.5`. -/
  sqrt : F → F
  /-- `x <= n`. -/
  leInt : F → ℤ → Bool
  /-- `x >= n`. -/
  geInt : F → ℤ → Bool
  /-- `int(x)`. -/
  toInt : F → Except Exc ℤ
  ceil : F → Except Exc ℤ

/-- `x * n`. -/
def Arithmetic.mulInt {F : Type} (A : Arithmetic F) (x : F) (n : ℤ) : Except Exc F := do
  return A.mul x (← A.ofInt n)

/-- Doubles. The power function is the platform's. -/
def doubles (sqrt : Double → Double) : Arithmetic Double where
  ofInt := Double.ofInt
  divInt m n := match trueDiv m n with
    | .ok q => .ok (Double.round q)
    | .error e => .error e
  add := Double.add
  sub := Double.sub
  mul := Double.mul
  div := Double.div
  sqrt
  leInt x n := x.le n
  geInt x n := x.ge n
  toInt := Double.toInteger truncate
  ceil := Double.toInteger fun q => ⌈q⌉

/-- A Python number where an `int` or a `float` may stand. -/
inductive Number (F : Type) where
  | int (n : ℤ)
  | float (x : F)
  deriving DecidableEq

namespace Number

variable {F : Type} (A : Arithmetic F)

/-- `lo <= x and x <= hi`, compared with integers. -/
def within (lo hi : ℤ) : Number F → Bool
  | .int n => decide (lo ≤ n) && decide (n ≤ hi)
  | .float x => A.geInt x lo && A.leInt x hi

/-- `int(x)`. -/
def toInt : Number F → Except Exc ℤ
  | .int n => .ok n
  | .float x => A.toInt x

end Number

end Python
