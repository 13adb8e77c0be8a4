import MirCi.Python.Dict
import MirCi.Semantics.Run

/-! The `xdg` fixture: the files that the marks of a test declare, merged and written.
The merge starts from an empty dictionary and works in place, so the dictionaries of
files it merges into are those of the marks, which live as long as the session. -/
namespace MirCi.PytestPlugin.Xdg

open Python Semantics

/-- The identity of a dictionary of files. -/
abbrev Ref := ℕ

/-- The contents of files by their names. -/
abbrev Files := Dict String String

/-- The dictionaries of files as they stand. -/
abbrev Heap := Ref → Files

/-- The keyword arguments of an `xdg` mark. -/
abbrev Mark := Dict String Ref

/-- The variables declared so far, with the dictionary of each. -/
abbrev Vars := Dict String Ref

/-- What the merger does with one item of the dictionary that it merges. -/
def mergeItem (s : Heap × Vars) (item : String × Ref) : Heap × Vars :=
  match s.2.get? item.1 with
  | none => (s.1, s.2.set item.1 item.2)
  | some r => (Function.update s.1 r ((s.1 r).merge (s.1 item.2)), s.2)

/-- `conservative_merger.merge(base, nxt)`. -/
def merge (s : Heap × Vars) (nxt : Mark) : Heap × Vars := nxt.items.foldl mergeItem s

/-- The marks reduced, closest first. -/
def reduceMarks (heap : Heap) (marks : List Mark) : Heap × Vars := marks.foldl merge (heap, .empty)

/-- What the fixture does in the temporary directory and in the environment. -/
inductive XdgAction where
  | mkdir (var : String)
  | copyFontconfig (var : String)
  | write (var file contents : String)
  | setenv (var : String)
  deriving DecidableEq, Repr

/-- A session: whether it only installs dependencies, and whether there is a font
configuration to copy. -/
structure Config where
  deps : Bool
  fontconfig : Bool

def actionsOf (config : Config) (var : String) (files : Files) : List XdgAction :=
  [.mkdir var] ++
    (if var = "XDG_CONFIG_HOME" ∧ config.fontconfig then [.copyFontconfig var] else []) ++
    (files.items.map fun item => .write var item.1 item.2) ++ [.setenv var]

def xdg (config : Config) (heap : Heap) (marks : List Mark) : Heap × List XdgAction :=
  if config.deps then (heap, [])
  else
    let (heap, vars) := reduceMarks heap marks
    (heap, vars.items.flatMap fun item => actionsOf config item.1 (heap item.2))

/-- A session: the dictionaries, and the tests that ran with what the fixture did for each. -/
structure Session where
  heap : Heap
  ran : List (List Mark × List XdgAction) := []

/-- A test runs. -/
def step (config : Config) (s : Session) (marks : List Mark) : Option Session :=
  let (heap, actions) := xdg config s.heap marks
  some { heap, ran := s.ran ++ [(marks, actions)] }

/-! ### What the marks declare -/

/-- The variables of the marks with their dictionaries, closest mark first. -/
def uses (marks : List Mark) : List (String × Ref) := marks.flatMap Dict.items

/-- The content of a file under a variable in the first dictionary that has it. -/
def declared (heap : Heap) (items : List (String × Ref)) (var file : String) : Option String :=
  items.findSome? fun item => if item.1 = var then (heap item.2).get? file else none

section Declared

variable {heap : Heap} {items : List (String × Ref)} {var file : String} {r : Ref}

theorem declared_append (heap : Heap) (items later : List (String × Ref)) (var file : String) :
    declared heap (items ++ later) var file =
      (declared heap items var file).or (declared heap later var file) := List.findSome?_append

theorem declared_singleton (heap : Heap) (item : String × Ref) (var file : String) :
    declared heap [item] var file = if item.1 = var then (heap item.2).get? file else none := by
  rw [declared, List.findSome?_cons]
  cases (if item.1 = var then (heap item.2).get? file else none) <;> rfl

theorem declared_of_lookup_none (h : items.lookup var = none) : declared heap items var file = none := by
  rw [declared, List.findSome?_eq_none_iff]
  intro item hItem
  rw [List.lookup_eq_none_iff] at h
  have hNe : item.1 ≠ var := by
    intro hEq
    simpa [hEq] using h item hItem
  rw [if_neg hNe]

/-- The file of the closest dictionary comes first. -/
theorem declared_of_lookup {contents : String} (h : items.lookup var = some r)
    (hFile : (heap r).get? file = some contents) : declared heap items var file = some contents := by
  induction items with
  | nil => cases h
  | cons item rest ih =>
      rw [List.lookup_cons] at h
      rw [declared, List.findSome?_cons]
      by_cases hVar : var = item.1
      · rw [beq_iff_eq.mpr hVar] at h
        cases h
        rw [if_pos hVar.symm, hFile]
      · rw [beq_eq_false_iff_ne.mpr hVar] at h
        rw [if_neg (Ne.symm hVar)]
        exact ih h

end Declared

/-! ### What a merge makes of the dictionaries -/

theorem reduceMarks_eq (heap : Heap) (marks : List Mark) :
    reduceMarks heap marks = (uses marks).foldl mergeItem (heap, .empty) := by
  rw [reduceMarks, uses, List.foldl_flatMap]
  rfl

/-- Dictionaries only grow. -/
def Extends (original heap : Heap) : Prop :=
  ∀ r file contents, (original r).get? file = some contents → (heap r).get? file = some contents

theorem Extends.refl (heap : Heap) : Extends heap heap := fun _ _ _ h => h

theorem extends_mergeItem {original : Heap} {s : Heap × Vars} (h : Extends original s.1)
    (item : String × Ref) : Extends original (mergeItem s item).1 := by
  intro x file contents hFile
  have hOld := h x file contents hFile
  unfold mergeItem
  split
  · exact hOld
  · rename_i r hGet
    by_cases hx : x = r
    · subst hx
      simp [Dict.get?_merge, hOld]
    · simpa [Function.update_of_ne hx] using hOld

theorem extends_foldl {original : Heap} {s : Heap × Vars} (h : Extends original s.1)
    (items : List (String × Ref)) : Extends original (items.foldl mergeItem s).1 := by
  induction items generalizing s with
  | nil => exact h
  | cons item rest ih => exact ih (extends_mergeItem h item)

theorem extends_xdg {original heap : Heap} (h : Extends original heap) (config : Config)
    (marks : List Mark) : Extends original (xdg config heap marks).1 := by
  unfold xdg
  split
  · exact h
  · change Extends original (reduceMarks heap marks).1
    rw [reduceMarks_eq]
    exact extends_foldl (s := (heap, .empty)) h _

end MirCi.PytestPlugin.Xdg
