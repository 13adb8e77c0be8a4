import MirCi.Python.Exception

/-! The values `json.loads` returns, with the operations the modelled code uses on
them: Python's equality, truth, hashing and subscripts, with their errors. -/
namespace Python

inductive Scalar where
  | null
  | bool (value : Bool)
  | int (value : ℤ)
  | float (value : ℚ)
  | infinity (negative : Bool)
  | nan
  | str (value : String)
  deriving DecidableEq

inductive Json where
  | scalar (value : Scalar)
  | arr (values : List Json)
  | obj (members : List (String × Json))

namespace Json

/-- `None` is what `json.loads` reads `null` as. -/
@[match_pattern] abbrev null : Json := .scalar .null

@[match_pattern] abbrev str (value : String) : Json := .scalar (.str value)

mutual

def decEq : (a b : Json) → Decidable (a = b)
  | .scalar a, .scalar b => decidable_of_iff (a = b) (by simp)
  | .arr a, .arr b =>
      match decEqValues a b with
      | isTrue h => isTrue (by rw [h])
      | isFalse h => isFalse (by simpa using h)
  | .obj a, .obj b =>
      match decEqMembers a b with
      | isTrue h => isTrue (by rw [h])
      | isFalse h => isFalse (by simpa using h)
  | .scalar _, .arr _ | .scalar _, .obj _ | .arr _, .scalar _ => isFalse (by simp)
  | .arr _, .obj _ | .obj _, .scalar _ | .obj _, .arr _ => isFalse (by simp)

def decEqValues : (a b : List Json) → Decidable (a = b)
  | [], [] => isTrue rfl
  | [], _ :: _ | _ :: _, [] => isFalse (by simp)
  | a :: as, b :: bs =>
      match decEq a b, decEqValues as bs with
      | isTrue h, isTrue hs => isTrue (by rw [h, hs])
      | isFalse h, _ => isFalse (by simp [h])
      | _, isFalse hs => isFalse (by simp [hs])

def decEqMembers : (a b : List (String × Json)) → Decidable (a = b)
  | [], [] => isTrue rfl
  | [], _ :: _ | _ :: _, [] => isFalse (by simp)
  | (k, a) :: as, (l, b) :: bs =>
      match String.decEq k l, decEq a b, decEqMembers as bs with
      | isTrue hKey, isTrue h, isTrue hs => isTrue (by rw [hKey, h, hs])
      | isFalse hKey, _, _ => isFalse (by simp [hKey])
      | _, isFalse h, _ => isFalse (by simp [h])
      | _, _, isFalse hs => isFalse (by simp [hs])

end

instance : DecidableEq Json := decEq

def typeName : Json → String
  | .scalar .null => "NoneType"
  | .scalar (.bool _) => "bool"
  | .scalar (.int _) => "int"
  | .scalar (.float _) | .scalar (.infinity _) | .scalar .nan => "float"
  | .scalar (.str _) => "str"
  | .arr _ => "list"
  | .obj _ => "dict"

/-- `bool(value)`. -/
def truthy : Json → Bool
  | .scalar .null => false
  | .scalar (.bool b) => b
  | .scalar (.int n) => n ≠ 0
  | .scalar (.float q) => q ≠ 0
  | .scalar (.infinity _) | .scalar .nan => true
  | .scalar (.str s) => s ≠ ""
  | .arr values => !values.isEmpty
  | .obj members => !members.isEmpty

/-- Whether `hash(value)` returns. -/
def hashable : Json → Bool
  | .scalar _ => true
  | .arr _ | .obj _ => false

end Json

/-- Numbers of all types are compared by value. -/
def Scalar.norm : Scalar → Scalar
  | .bool b => .float (if b then 1 else 0)
  | .int n => .float n
  | s => s

namespace Json

mutual

/-- One representative of all the values that count as the same member of a
container: numbers by value, objects without the order of their members. -/
def norm : Json → Json
  | .scalar s => .scalar s.norm
  | .arr values => .arr (normValues values)
  | .obj members => .obj ((normMembers members).insertionSort fun a b => a.1 ≤ b.1)

def normValues : List Json → List Json
  | [] => []
  | value :: rest => norm value :: normValues rest

def normMembers : List (String × Json) → List (String × Json)
  | [] => []
  | (key, value) :: rest => (key, norm value) :: normMembers rest

end

/-- `a == b`. Inside a container the one `NaN` that `json` uses is itself, but it
is not equal to itself. -/
def eq (a b : Json) : Bool := a.norm = b.norm && a ≠ .scalar .nan

/-- `a.get(key)`. -/
def get (a : Json) (key : String) : Except Exc Json :=
  match a with
  | .obj members => .ok ((members.lookup key).getD .null)
  | a => .error { cls := .attributeError
                  text := "'" ++ a.typeName ++ "' object has no attribute 'get'" }

/-- `a[key]`. -/
def getItem (a : Json) (key : String) : Except Exc Json :=
  match a with
  | .obj members =>
      match members.lookup key with
      | some value => .ok value
      | none => .error { cls := .keyError, text := key }
  | .arr _ => .error { cls := .typeError, text := "list indices must be integers or slices, not str" }
  | .str _ => .error { cls := .typeError, text := "string indices must be integers, not 'str'" }
  | a => .error { cls := .typeError, text := "'" ++ a.typeName ++ "' object is not subscriptable" }

/-- `a[n]`. -/
def index (a : Json) (n : ℕ) : Except Exc Json :=
  match a with
  | .arr values =>
      match values[n]? with
      | some value => .ok value
      | none => .error { cls := .indexError, text := "list index out of range" }
  | .str s =>
      match s.toList[n]? with
      | some c => .ok (.str (String.ofList [c]))
      | none => .error { cls := .indexError, text := "string index out of range" }
  | .obj _ => .error { cls := .keyError, text := toString n }
  | a => .error { cls := .typeError, text := "'" ++ a.typeName ++ "' object is not subscriptable" }

/-- `a.values()`. -/
def values (a : Json) : Except Exc (List Json) :=
  match a with
  | .obj members => .ok (members.map Prod.snd)
  | a => .error { cls := .attributeError
                  text := "'" ++ a.typeName ++ "' object has no attribute 'values'" }

/-- Making `a` a member of a set or a key of a dictionary. -/
def hash (a : Json) : Except Exc Unit :=
  if a.hashable then .ok ()
  else .error { cls := .typeError, text := "unhashable type: '" ++ a.typeName ++ "'" }

theorem get_ok {a : Json} {key : String} {value : Json} :
    a.get key = .ok value ↔
      ∃ members, a = .obj members ∧ value = (members.lookup key).getD .null := by
  cases a with
  | obj members => simp [get, eq_comm]
  | scalar _ => simp [get]
  | arr _ => simp [get]

theorem hash_ok {a : Json} {u : Unit} : a.hash = .ok u ↔ a.hashable = true := by
  rw [hash]
  split
  · rename_i hHash
    simp [hHash]
  · rename_i hHash
    simp [hHash]

/-- Equal values have the same representative and are not the `NaN`. -/
theorem eq_iff {a b : Json} :
    a.eq b = true ↔ a.norm = b.norm ∧ a ≠ .scalar .nan := by
  simp [eq]

theorem norm_eq_nan {a : Json} : a.norm = .scalar .nan ↔ a = .scalar .nan := by
  cases a with
  | scalar s => cases s <;> simp [norm, Scalar.norm]
  | arr _ => simp [norm]
  | obj _ => simp [norm]

/-- Comparing all the later values with the first one compares any two. -/
theorem pairwise_eq {first : Json} {rest : List Json} :
    (∀ value ∈ rest, value.eq first = true) ↔
      (first :: rest).Pairwise fun a b => a.eq b = true := by
  constructor
  · intro h
    have hNorm : ∀ value ∈ rest, value.norm = first.norm ∧ value ≠ .scalar .nan :=
      fun value hValue => eq_iff.mp (h value hValue)
    rw [List.pairwise_cons]
    constructor
    · intro value hValue
      obtain ⟨hSame, hNan⟩ := hNorm value hValue
      refine eq_iff.mpr ⟨hSame.symm, ?_⟩
      intro hFirst
      rw [hFirst] at hSame
      exact hNan (norm_eq_nan.mp hSame)
    · apply List.pairwise_of_forall_mem_list
      intro a ha b hb
      exact eq_iff.mpr ⟨(hNorm a ha).1.trans (hNorm b hb).1.symm, (hNorm a ha).2⟩
  · intro h value hValue
    obtain ⟨hSame, hNan⟩ := eq_iff.mp (List.rel_of_pairwise_cons h hValue)
    refine eq_iff.mpr ⟨hSame.symm, ?_⟩
    rintro rfl
    exact hNan (norm_eq_nan.mp hSame)

example : eq (.obj [("a", .scalar (.int 1)), ("b", .arr [.scalar .nan])])
    (.obj [("b", .arr [.scalar .nan]), ("a", .scalar (.bool true))]) = true := by decide

end Json

end Python
