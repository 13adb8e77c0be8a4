import Mathlib.Tactic

/-! The exception classes the modelled code raises or catches, with Python's
subclass relation between them. An `except` clause is a test with `Exc.isa`. -/
namespace Python

inductive ExcClass where
  | baseException
  | cancelledError
  | exception
  | runtimeError
  | programError
  | assertionError
  | valueError
  | unicodeDecodeError
  | jsonDecodeError
  | typeError
  | attributeError
  | lookupError
  | keyError
  | indexError
  | nameError
  | unboundLocalError
  | arithmeticError
  | overflowError
  | zeroDivisionError
  | osError
  | timeoutError
  | fileNotFoundError
  | processLookupError
  | requestException
  | calledProcessError
  | notFound
  | imageNotFoundError
  | dataError
  deriving DecidableEq, Repr

/-- The method resolution order, the class itself first. `programError` is
`ProgramError`, `requestException` is `requests.exceptions.RequestException`
(an `IOError`), `notFound` is `lp_errors.NotFound`, `imageNotFoundError` is
`RPA.recognition.templates.ImageNotFoundError`, `dataError` is Robot Framework's. -/
def ExcClass.mro : ExcClass → List ExcClass
  | .baseException => [.baseException]
  | .cancelledError => [.cancelledError, .baseException]
  | .exception => [.exception, .baseException]
  | .programError => [.programError, .runtimeError, .exception, .baseException]
  | .unicodeDecodeError => [.unicodeDecodeError, .valueError, .exception, .baseException]
  | .jsonDecodeError => [.jsonDecodeError, .valueError, .exception, .baseException]
  | .keyError => [.keyError, .lookupError, .exception, .baseException]
  | .indexError => [.indexError, .lookupError, .exception, .baseException]
  | .unboundLocalError => [.unboundLocalError, .nameError, .exception, .baseException]
  | .overflowError => [.overflowError, .arithmeticError, .exception, .baseException]
  | .zeroDivisionError => [.zeroDivisionError, .arithmeticError, .exception, .baseException]
  | .timeoutError => [.timeoutError, .osError, .exception, .baseException]
  | .fileNotFoundError => [.fileNotFoundError, .osError, .exception, .baseException]
  | .processLookupError => [.processLookupError, .osError, .exception, .baseException]
  | .requestException => [.requestException, .osError, .exception, .baseException]
  | c => [c, .exception, .baseException]

/-- A raised exception: its class and its text. -/
structure Exc where
  cls : ExcClass
  text : String := ""
  deriving DecidableEq, Repr

/-- `isinstance(e, c)`. -/
def Exc.isa (e : Exc) (c : ExcClass) : Bool := e.cls.mro.contains c

/-- What reading a file raises is an `Exception` and no `RuntimeError`. -/
theorem Exc.isa_of_fileError {e : Exc} (h : e.isa .osError = true ∨ e.isa .valueError = true) :
    e.isa .exception = true ∧ e.isa .runtimeError = false := by
  have hClass : ∀ c : ExcClass, c.mro.contains .osError = true ∨ c.mro.contains .valueError = true →
      c.mro.contains .exception = true ∧ c.mro.contains .runtimeError = false := by
    intro c
    cases c <;> decide
  exact hClass e.cls h

theorem bind_ok {ε α β : Type} {x : Except ε α} {f : α → Except ε β} {b : β} :
    x >>= f = .ok b ↔ ∃ a, x = .ok a ∧ f a = .ok b := by
  cases x with
  | ok a =>
      change f a = .ok b ↔ _
      simp
  | error e =>
      change Except.error e = .ok b ↔ _
      simp

end Python
