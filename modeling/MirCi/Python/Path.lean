import MirCi.Python.Text

/-! `pathlib` paths, compared as `pathlib` compares them: repeated slashes and single
dots do not count. -/
namespace Python

/-- An absolute `PosixPath`. -/
structure Path where
  parts : List String
  deriving DecidableEq, Repr

/-- `Path(text)` of a text with one leading slash. -/
def Path.parse (text : String) : Path :=
  ⟨(split '/' text).filter fun part => part ≠ "" ∧ part ≠ "."⟩

/-- `str(path)`. -/
def Path.str (path : Path) : String := "/" ++ "/".intercalate path.parts

example : (Path.parse "/sys/fs/cgroup//user.slice/").str = "/sys/fs/cgroup/user.slice" := by decide

/-- A `PurePosixPath`, which may be relative. -/
structure PurePath where
  absolute : Bool
  parts : List String
  deriving DecidableEq, Repr

namespace PurePath

/-- `PurePath(text)`. -/
def parse (text : String) : PurePath :=
  ⟨text.toList.head? = some '/', (split '/' text).filter fun part => part ≠ "" ∧ part ≠ "."⟩

/-- `p / q`. -/
def join (p q : PurePath) : PurePath :=
  if q.absolute then q else ⟨p.absolute, p.parts ++ q.parts⟩

/-- The entry of a directory. -/
def child (p : PurePath) (name : String) : PurePath := ⟨p.absolute, p.parts ++ [name]⟩

/-- `p.name`. -/
def name (p : PurePath) : String := p.parts.getLast?.getD ""

/-- `p.parents`, the closest first. -/
def parents (p : PurePath) : List PurePath :=
  (List.range p.parts.length).map fun i => ⟨p.absolute, p.parts.take (p.parts.length - 1 - i)⟩

@[simp] theorem name_child (p : PurePath) (name : String) : (p.child name).name = name := by
  simp [PurePath.name, child]

@[simp] theorem child_inj {p : PurePath} {a b : String} : p.child a = p.child b ↔ a = b := by
  simp [child]

example : (parse "noble/yaru").parents = [parse "noble", parse "."] := by decide +kernel

end PurePath

end Python
