import MirCi.Python.WholeDouble

/-! `await_call`: a mock is looked at once a second until it was called as expected, as often
as the product of the timeout with the slowdown factor says. -/
namespace MirCi.Lib

open Python

variable {κ : Type} (equal : κ → κ → Bool) (expected : κ)

/-- `mock.assert_any_call`, which agrees with the comparison of calls. -/
def assertAnyCall (callArgsList : List κ) : Except Exc Unit :=
  if callArgsList.any (equal · expected) then .ok ()
  else .error { cls := .assertionError, text := "call not found" }

/-- The body of the `try`: the first call that is as expected, or what `assert_any_call` says. -/
def lookUp (callArgsList : List κ) : Except Exc (Option κ) :=
  match callArgsList.find? (equal · expected) with
  | some callArgs => .ok (some callArgs)
  | none => do
      assertAnyCall equal expected callArgsList
      return none

/-- So many turns of the loop, from turn `i` on. The calls that a turn finds are an input. -/
def awaitFrom (timeout : ℤ) (calls : ℕ → List κ) : ℕ → ℕ → Except Exc (Option κ)
  | 0, _ => .ok none
  | turns + 1, i =>
      match lookUp equal expected (calls i) with
      | .ok (some callArgs) => .ok (some callArgs)
      | .ok none => awaitFrom timeout calls turns (i + 1)
      | .error e =>
          if e.isa .assertionError then
            if (i : ℤ) = timeout - 1 then .error e else awaitFrom timeout calls turns (i + 1)
          else .error e

/-- `timeout * SLOWDOWN`. -/
def slowed (slowdown : Double) : Number Double → Except Exc Double
  | .int n => do return (← Double.ofInt n).mul slowdown
  | .float x => .ok (x.mul slowdown)

/-- `await_call`. The call it returns, or nothing when the loop ends by itself. -/
def awaitCall (timeout : Number Double) (slowdown : Double) (calls : ℕ → List κ) : Except Exc (Option κ) := do
  let timeout ← Double.toInteger truncate (← slowed slowdown timeout)
  awaitFrom equal expected timeout calls timeout.toNat 0

/-- `int(timeout * SLOWDOWN)`: the number of looks that the loop is to have. -/
def looksOf (timeout : Number Double) (slowdown : Double) : Except Exc ℤ := do
  Double.toInteger truncate (← slowed slowdown timeout)

/-- In so many looks at the mock a call that is as expected is found and returned, or the last of them
ends in an `AssertionError`. -/
inductive Awaited (calls : ℕ → List κ) (looks : ℕ) : Except Exc (Option κ) → Prop where
  | returned (i : ℕ) (c : κ) (hLook : i < looks) (hCall : c ∈ calls i) (hEqual : equal c expected = true)
      (hBefore : ∀ j < i, ∀ c ∈ calls j, equal c expected = false) : Awaited calls looks (.ok (some c))
  | raised (e : Exc) (hClass : e.isa .assertionError = true) (hLooked : 0 < looks)
      (hNone : ∀ i < looks, ∀ c ∈ calls i, equal c expected = false) : Awaited calls looks (.error e)

section Loop

variable {equal expected} {calls : ℕ → List κ} {callArgsList : List κ}

theorem lookUp_found {c : κ} (h : callArgsList.find? (equal · expected) = some c) :
    lookUp equal expected callArgsList = .ok (some c) := by
  rw [lookUp, h]

theorem lookUp_missing (h : ∀ c ∈ callArgsList, equal c expected = false) :
    ∃ e, lookUp equal expected callArgsList = .error e ∧ e.isa .assertionError = true := by
  have hFind : callArgsList.find? (equal · expected) = none := by simpa using h
  have hAny : callArgsList.any (equal · expected) = false := by simpa using h
  refine ⟨{ cls := .assertionError, text := "call not found" }, ?_, rfl⟩
  rw [lookUp, hFind, assertAnyCall, hAny]
  rfl

/-- Either a look finds a call that is as expected, or there is none. -/
theorem find_cases (equal : κ → κ → Bool) (expected : κ) (callArgsList : List κ) :
    (∃ c ∈ callArgsList, equal c expected = true ∧ callArgsList.find? (equal · expected) = some c) ∨
      ∀ c ∈ callArgsList, equal c expected = false := by
  cases hFind : callArgsList.find? (equal · expected) with
  | none => exact .inr (by simpa using hFind)
  | some c =>
      have hEqual := List.find?_some (p := (equal · expected)) hFind
      exact .inl ⟨c, List.mem_of_find?_eq_some hFind, hEqual, rfl⟩

/-- With a turn left and all earlier looks in vain, the loop ends as it should. -/
theorem awaited_from (turns i : ℕ) (hBefore : ∀ j < i, ∀ c ∈ calls j, equal c expected = false) :
    Awaited equal expected calls (i + turns + 1)
      (awaitFrom equal expected (i + turns + 1 : ℕ) calls (turns + 1) i) := by
  induction turns generalizing i with
  | zero =>
      rcases find_cases equal expected (calls i) with ⟨c, hCall, hEqual, hFind⟩ | hNone
      · rw [awaitFrom, lookUp_found hFind]
        exact .returned i c (by omega) hCall hEqual hBefore
      · obtain ⟨e, hLookUp, hClass⟩ := lookUp_missing hNone
        rw [awaitFrom, hLookUp]
        dsimp only
        rw [if_pos hClass, if_pos (by push_cast; ring)]
        exact .raised e hClass (by omega) (Nat.forall_lt_succ_right.mpr ⟨hBefore, hNone⟩)
  | succ turns ih =>
      rcases find_cases equal expected (calls i) with ⟨c, hCall, hEqual, hFind⟩ | hNone
      · rw [awaitFrom, lookUp_found hFind]
        exact .returned i c (by omega) hCall hEqual hBefore
      · obtain ⟨e, hLookUp, hClass⟩ := lookUp_missing hNone
        rw [awaitFrom, hLookUp]
        dsimp only
        rw [if_pos hClass, if_neg (by push_cast; omega)]
        have hNow : ∀ j < i + 1, ∀ c ∈ calls j, equal c expected = false :=
          Nat.forall_lt_succ_right.mpr ⟨hBefore, hNone⟩
        have hRest := ih (i + 1) hNow
        rwa [show i + 1 + turns = i + (turns + 1) by omega] at hRest

/-- Falling off the loop is no verdict. -/
theorem not_awaited_none {looks : ℕ} : ¬Awaited equal expected calls looks (.ok none) := by
  intro h
  cases h

end Loop

/-- The product of the timeout and the factor, as floats are multiplied, is finite and at least one. -/
def LooksOnce (timeout : Number Double) (slowdown : Double) : Prop :=
  ∃ product exact, slowed slowdown timeout = .ok (.finite product exact) ∧ 1 ≤ product

theorem one_le_truncate {q : ℚ} : 1 ≤ truncate q ↔ 1 ≤ q := by
  unfold truncate
  split
  · rw [Int.le_floor, Int.cast_one]
  · rename_i hNegative
    have hCeil : ⌈q⌉ ≤ 0 := Int.ceil_le.mpr (by push_cast; linarith)
    exact ⟨fun h => absurd h (by omega), fun h => absurd h (by linarith)⟩

theorem looksOf_ok {timeout : Number Double} {slowdown : Double} {looks : ℤ}
    (h : looksOf timeout slowdown = .ok looks) (calls : ℕ → List κ) :
    awaitCall equal expected timeout slowdown calls = awaitFrom equal expected looks calls looks.toNat 0 := by
  obtain ⟨product, hProduct, hInteger⟩ := except_bind_ok.mp h
  rw [awaitCall, hProduct]
  change (Double.toInteger truncate product >>= _) = _
  rw [hInteger]
  rfl

/-- The loop has a look just when the product is finite and at least one. -/
theorem looksOnce_iff {timeout : Number Double} {slowdown : Double} :
    LooksOnce timeout slowdown ↔ ∃ looks, looksOf timeout slowdown = .ok looks ∧ 1 ≤ looks := by
  constructor
  · rintro ⟨product, exact, hProduct, hOne⟩
    exact ⟨truncate product, by rw [looksOf, hProduct]; rfl, one_le_truncate.mpr hOne⟩
  · rintro ⟨looks, hLooks, hOne⟩
    obtain ⟨product, hProduct, hInteger⟩ := except_bind_ok.mp hLooks
    cases product with
    | finite value exact =>
        cases hInteger
        exact ⟨value, exact, hProduct, one_le_truncate.mp hOne⟩
    | infinity negative => cases hInteger
    | nan => cases hInteger

/-- `await_call` ends as it should in the looks that it is to have, for any calls that the mock gets while it
waits, just when the timeout leaves it a look. -/
theorem await_call_verdict_iff (timeout : Number Double) (slowdown : Double) (calls : ℕ → List κ) :
    (∃ looks, looksOf timeout slowdown = .ok looks ∧
        Awaited equal expected calls looks.toNat (awaitCall equal expected timeout slowdown calls)) ↔
      LooksOnce timeout slowdown := by
  rw [looksOnce_iff]
  refine exists_congr fun looks => and_congr_right fun hLooks => ?_
  rw [looksOf_ok equal expected hLooks calls]
  constructor
  · intro hAwaited
    by_contra hNone
    rw [Int.toNat_of_nonpos (by omega)] at hAwaited
    exact not_awaited_none hAwaited
  · intro hOne
    obtain ⟨turns, rfl⟩ : ∃ turns : ℕ, looks = (turns + 1 : ℕ) := ⟨(looks - 1).toNat, by omega⟩
    have hAwaited : Awaited equal expected calls (0 + turns + 1)
        (awaitFrom equal expected (0 + turns + 1 : ℕ) calls (turns + 1) 0) := awaited_from turns 0 (by simp)
    rwa [Nat.zero_add] at hAwaited

/-- With a slowdown factor of a tenth and the default timeout the mock is not looked at, and `await_call`
passes although it was never called. -/
theorem await_call_without_look : ∃ slowdown : Double, slowdown.le 0 = false ∧
    awaitCall (fun a b : ℕ => a == b) 1 (.int 5) slowdown (fun _ => []) = .ok none ∧
    ∀ looks, ¬Awaited (fun a b : ℕ => a == b) 1 (fun _ => []) looks (.ok none) := by
  refine ⟨Double.round (1 / 10), by decide +kernel, by decide +kernel, fun looks => not_awaited_none⟩

end MirCi.Lib
