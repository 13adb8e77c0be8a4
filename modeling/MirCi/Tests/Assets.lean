import MirCi.Python.Dict
import MirCi.Python.Path

/-! `collect_assets`, which the suites share: the files of a platform, of resources
and of a suite by their names, those made for a variant last. -/
namespace MirCi.Tests

open Python

/-- A directory tree. A directory is read in some order, and what is no directory holds
nothing. -/
structure Tree where
  entries : PurePath → List String
  isFile : PurePath → Bool
  listed : ∀ dir name, isFile (dir.child name) = true → name ∈ entries dir

/-- `dir.glob("*")`. -/
def Tree.glob (tree : Tree) (dir : PurePath) : List PurePath := (tree.entries dir).map dir.child

def relative (part : String) : PurePath := ⟨false, [part]⟩

/-- The variant and its parents without the last one, reversed. -/
def variantsOf (variant : PurePath) : List PurePath := (variant :: variant.parents.dropLast).reverse

def collectAsset (tree : Tree) (asset variant : PurePath) : List PurePath :=
  tree.glob asset ++
    (variantsOf variant).flatMap fun v => tree.glob ((asset.join (relative "variants")).join v)

def collectAssets (tree : Tree) (robotPath : PurePath) (platform : String) (resources : List String)
    (suite : String) (variant : PurePath) : Dict String PurePath :=
  let found :=
    collectAsset tree ((robotPath.join (relative "platforms")).join (.parse platform)) variant ++
    (resources.flatMap fun resource =>
      collectAsset tree ((robotPath.join (relative "resources")).join (.parse resource)) variant) ++
    collectAsset tree ((robotPath.join (relative "suites")).join (.parse suite)) variant
  Dict.ofItems ((found.filter tree.isFile).map fun p => (p.name, p))

/-! ### The layers -/

/-- A directory, and its directories for `v1`, `v1/v2` and so on. -/
def layersOf (asset : PurePath) (variant : List String) : List PurePath :=
  asset :: (List.range variant.length).map fun i =>
    ⟨asset.absolute, asset.parts ++ "variants" :: variant.take (i + 1)⟩

def assetsOf (robotPath : PurePath) (platform : String) (resources : List String) (suite : String) :
    List PurePath :=
  (robotPath.join ⟨false, ["platforms"]⟩).join (.parse platform) ::
    (resources.map fun resource => (robotPath.join ⟨false, ["resources"]⟩).join (.parse resource)) ++
    [(robotPath.join ⟨false, ["suites"]⟩).join (.parse suite)]

def layers (robotPath : PurePath) (platform : String) (resources : List String) (suite : String)
    (variant : List String) : List PurePath :=
  (assetsOf robotPath platform resources suite).flatMap fun asset => layersOf asset variant

/-- The prefixes of the variant, shortest first. -/
theorem variantsOf_eq {variant : PurePath} (h : variant.parts ≠ []) : variantsOf variant =
    (List.range variant.parts.length).map fun i =>
      ⟨variant.absolute, variant.parts.take (i + 1)⟩ := by
  obtain ⟨absolute, parts⟩ := variant
  obtain ⟨m, hLength⟩ : ∃ m, parts.length = m + 1 :=
    Nat.exists_eq_succ_of_ne_zero (by simpa using h)
  have hParents : (PurePath.parents ⟨absolute, parts⟩).dropLast =
      (List.range m).map fun i => ⟨absolute, parts.take (m - i)⟩ := by
    simp [PurePath.parents, hLength, List.range_succ]
  have hAll : variantsOf ⟨absolute, parts⟩ =
      ((List.range (m + 1)).map fun i => ⟨absolute, parts.take (m + 1 - i)⟩).reverse := by
    rw [variantsOf, hParents, List.range_succ_eq_map]
    simp [Function.comp_def, List.take_of_length_le hLength.le]
  rw [hAll]
  apply List.ext_getElem
  · simp [hLength]
  · intro i hi hi'
    have hIndex : i < m + 1 := by simpa using hi
    have hTake : m + 1 - (m - i) = i + 1 := by omega
    simp [hTake]

theorem collectAsset_eq (tree : Tree) (asset : PurePath) {variant : List String} (h : variant ≠ []) :
    collectAsset tree asset ⟨false, variant⟩ = (layersOf asset variant).flatMap tree.glob := by
  rw [collectAsset, variantsOf_eq h, layersOf, List.flatMap_cons, List.flatMap_map, List.flatMap_map]
  simp [PurePath.join, relative]

variable {tree : Tree} {robotPath : PurePath} {platform suite : String} {resources variant : List String}

theorem collectAssets_eq (h : variant ≠ []) :
    collectAssets tree robotPath platform resources suite ⟨false, variant⟩ =
      Dict.ofItems (((layers robotPath platform resources suite variant).flatMap fun dir =>
        (tree.glob dir).filter tree.isFile).map fun p => (p.name, p)) := by
  simp only [collectAssets, collectAsset_eq tree _ h, layers, assetsOf, List.flatMap_append,
    List.flatMap_cons, List.flatMap_nil, List.flatMap_map, List.filter_append, List.filter_flatMap,
    List.flatMap_assoc, List.append_nil, relative]

/-- Of one directory, its files. -/
theorem get?_files (tree : Tree) (dir : PurePath) (name : String) :
    (Dict.ofItems (((tree.glob dir).filter tree.isFile).map fun p => (p.name, p))).get? name =
      if tree.isFile (dir.child name) then some (dir.child name) else none := by
  have hItems : ((tree.glob dir).filter tree.isFile).map (fun p => (p.name, p)) =
      ((tree.entries dir).filter fun n => tree.isFile (dir.child n)).map fun n => (n, dir.child n) := by
    simp [Tree.glob, List.filter_map, Function.comp_def]
  rw [hItems, Dict.get?_ofItems_map]
  by_cases hFile : tree.isFile (dir.child name) = true
  · simp [hFile, tree.listed dir name hFile]
  · simp [hFile]

/-- Of several directories, the last one that has the file. -/
theorem get?_layers (tree : Tree) (dirs : List PurePath) (name : String) :
    (Dict.ofItems ((dirs.flatMap fun dir =>
      (tree.glob dir).filter tree.isFile).map fun p => (p.name, p))).get? name =
        (dirs.reverse.find? fun dir => tree.isFile (dir.child name)).map (·.child name) := by
  induction dirs using List.reverseRecOn with
  | nil => rfl
  | append_singleton dirs dir ih =>
      rw [List.flatMap_append, List.flatMap_singleton, List.map_append, Dict.get?_ofItems_append, ih,
        get?_files, List.reverse_append, List.reverse_singleton, List.singleton_append, List.find?_cons]
      by_cases hFile : tree.isFile (dir.child name) = true
      · simp [hFile]
      · simp [hFile]

/-- A name stands for the file of the last layer in which it is one. -/
theorem most_specific_asset (tree : Tree) (robotPath : PurePath) (platform : String)
    (resources : List String) (suite v : String) (vs : List String) (name : String) (p : PurePath) :
    (collectAssets tree robotPath platform resources suite ⟨false, v :: vs⟩).get? name = some p ↔
      ∃ before dir after, layers robotPath platform resources suite (v :: vs) = before ++ dir :: after ∧
        tree.isFile (dir.child name) = true ∧ (∀ later ∈ after, tree.isFile (later.child name) = false) ∧
        p = dir.child name := by
  rw [collectAssets_eq (by simp), get?_layers, Option.map_eq_some_iff]
  constructor
  · rintro ⟨dir, hFind, rfl⟩
    obtain ⟨hFile, after, before, hReverse, hAfter⟩ := List.find?_eq_some_iff_append.mp hFind
    refine ⟨before.reverse, dir, after.reverse, ?_, hFile, ?_, rfl⟩
    · rw [← List.reverse_inj, hReverse]
      simp
    · intro later hLater
      simpa using hAfter later (List.mem_reverse.mp hLater)
  · rintro ⟨before, dir, after, hLayers, hFile, hAfter, rfl⟩
    refine ⟨dir, ?_, rfl⟩
    rw [List.find?_eq_some_iff_append]
    refine ⟨hFile, after.reverse, before.reverse, by simp [hLayers], ?_⟩
    intro later hLater
    simpa using hAfter later (List.mem_reverse.mp hLater)

/-- The tree that has just these files. -/
def Tree.ofFiles (files : List PurePath) : Tree where
  entries dir := (files.filter fun p => dir.child p.name = p).map PurePath.name
  isFile p := p ∈ files
  listed dir name h := List.mem_map.mpr ⟨dir.child name, by simpa using h, PurePath.name_child dir name⟩

/-- The template for a theme is found before that of the suite. -/
example : (collectAssets (.ofFiles [.parse "robot/suites/apps/ok.png", .parse "robot/suites/apps/variants/yaru/ok.png"])
    (.parse "robot") "wayland" ["kvm"] "apps" (.parse "yaru")).get? "ok.png" =
      some (.parse "robot/suites/apps/variants/yaru/ok.png") := by
  decide +kernel

end MirCi.Tests
