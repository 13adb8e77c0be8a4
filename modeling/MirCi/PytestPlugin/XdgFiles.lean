import MirCi.PytestPlugin.Xdg

/-! Which files the `xdg` fixture writes for the tests of a session, and when they are
those that the marks of each test declare. -/
namespace MirCi.PytestPlugin.Xdg

open Python Semantics

/-- The files written under each variable are those that the marks declare as originally written. -/
def OwnFiles (original : Heap) (marks : List Mark) (actions : List XdgAction) : Prop :=
  ∀ var file contents,
    .write var file contents ∈ actions ↔ declared original (uses marks) var file = some contents

/-- A dictionary that is the closest for a variable and is used for another one too has every file
of the first one. This is enough and not exact: a file that the merge adds to such a dictionary may do no
harm under the second variable either, where a closer mark of that variable has it. -/
def Apart (heap : Heap) (items : List (String × Ref)) : Prop :=
  ∀ var var' r, var ≠ var' → items.lookup var = some r → (var', r) ∈ items →
    ∀ file, declared heap items var file = (heap r).get? file

/-- A file that a dictionary has gained is in a closer dictionary of the variable, or is declared with
this content by the dictionaries after it. -/
def GainsHarmless (original heap : Heap) (items : List (String × Ref)) : Prop :=
  ∀ before after var r file contents, items = before ++ (var, r) :: after →
    (heap r).get? file = some contents → (original r).get? file = none →
    declared heap before var file = none → declared original after var file = some contents

/-! ### One test -/

section Merge

variable {h₀ : Heap} {items done : List (String × Ref)} {s : Heap × Vars} {var : String} {r : Ref}

/-- Where the merge stands after some of the items: the closest dictionary of each variable has what
these declare, and the others are untouched. -/
structure Merged (h₀ : Heap) (done : List (String × Ref)) (s : Heap × Vars) : Prop where
  vars : ∀ var, s.2.get? var = done.lookup var
  closest : ∀ var r, done.lookup var = some r → ∀ file, (s.1 r).get? file = declared h₀ done var file
  others : ∀ r, (∀ var, done.lookup var ≠ some r) → s.1 r = h₀ r

theorem lookup_concat (items : List (String × Ref)) (var key : String) (r : Ref) :
    (items ++ [(var, r)]).lookup key = (items.lookup key).or (if key = var then some r else none) := by
  rw [List.lookup_append, List.lookup_cons]
  by_cases hKey : key = var
  · rw [if_pos hKey, beq_iff_eq.mpr hKey]
  · rw [if_neg hKey, beq_eq_false_iff_ne.mpr hKey]
    rfl

theorem mem_of_lookup (h : items.lookup var = some r) : (var, r) ∈ items := by
  obtain ⟨before, after, rfl, -⟩ := List.lookup_eq_some_iff.mp h
  simp

/-- The first items of a variable that lends nothing give no more than its dictionary. -/
theorem declared_of_apart (hApart : Apart h₀ items) (hPrefix : done <+: items) {var' : String}
    (hNe : var ≠ var') (hLookup : done.lookup var = some r) (hOther : (var', r) ∈ items) (file : String) :
    declared h₀ done var file = (h₀ r).get? file := by
  cases hFile : (h₀ r).get? file with
  | some contents => exact declared_of_lookup hLookup hFile
  | none =>
      have hAll := hApart var var' r hNe (hPrefix.lookup_eq_some hLookup) hOther file
      obtain ⟨rest, rfl⟩ := hPrefix
      rw [hFile, declared_append, Option.or_eq_none_iff] at hAll
      exact hAll.1

/-- A dictionary used for another variable than those it is the closest for is as it was. -/
theorem Merged.get?_of_apart (h : Merged h₀ done s) (hApart : Apart h₀ items) (hPrefix : done <+: items)
    (hUsed : (var, r) ∈ items) (hNot : done.lookup var ≠ some r) (file : String) :
    (s.1 r).get? file = (h₀ r).get? file := by
  by_cases hClosest : ∃ var', done.lookup var' = some r
  · obtain ⟨var', hLookup⟩ := hClosest
    have hNe : var' ≠ var := by
      rintro rfl
      exact hNot hLookup
    rw [h.closest var' r hLookup file]
    exact declared_of_apart hApart hPrefix hNe hLookup hUsed file
  · rw [h.others r fun var' hLookup => hClosest ⟨var', hLookup⟩]

/-- A variable that no closer mark declares takes the dictionary as it stands. -/
theorem merged_fresh (h : Merged h₀ done s) (hApart : Apart h₀ items) (hDone : done <+: items)
    (hUsed : (var, r) ∈ items) (hFresh : done.lookup var = none) :
    Merged h₀ (done ++ [(var, r)]) (s.1, s.2.set var r) where
  vars key := by
    rw [Dict.get?_set, h.vars, lookup_concat]
    by_cases hKey : key = var
    · rw [if_pos hKey, if_pos hKey, hKey, hFresh]
      rfl
    · rw [if_neg hKey, if_neg hKey, Option.or_none]
  closest key x hLookup file := by
    rw [declared_append, declared_singleton]
    rw [lookup_concat] at hLookup
    by_cases hKey : key = var
    · subst hKey
      obtain rfl : r = x := by simpa [hFresh] using hLookup
      rw [if_pos rfl, declared_of_lookup_none hFresh, Option.none_or]
      exact h.get?_of_apart hApart hDone hUsed (by simp [hFresh]) file
    · rw [if_neg hKey, Option.or_none] at hLookup
      rw [if_neg (Ne.symm hKey), Option.or_none]
      exact h.closest key x hLookup file
  others x hNone := h.others x fun key hLookup => hNone key (by rw [lookup_concat, hLookup]; rfl)

/-- A dictionary is merged into the closest one of its variable. -/
theorem merged_known (h : Merged h₀ done s) (hApart : Apart h₀ items)
    (hPrefix : done ++ [(var, r)] <+: items) {x : Ref} (hKnown : done.lookup var = some x) :
    Merged h₀ (done ++ [(var, r)]) (Function.update s.1 x ((s.1 x).merge (s.1 r)), s.2) := by
  have hDone : done <+: items := (List.prefix_append _ _).trans hPrefix
  have hUsed : (var, r) ∈ items := hPrefix.subset (by simp)
  have hLookups : ∀ key, (done ++ [(var, r)]).lookup key = done.lookup key := by
    intro key
    rw [lookup_concat]
    by_cases hKey : key = var
    · rw [hKey, hKnown]
      rfl
    · rw [if_neg hKey, Option.or_none]
  have hMerged : ∀ file, ((s.1 x).merge (s.1 r)).get? file = declared h₀ (done ++ [(var, r)]) var file := by
    intro file
    rw [Dict.get?_merge, h.closest var x hKnown, declared_append, declared_singleton, if_pos rfl]
    by_cases hSame : r = x
    · subst hSame
      rw [h.closest var r hKnown]
      cases hFile : (h₀ r).get? file with
      | none => simp
      | some contents => simp [declared_of_lookup hKnown hFile]
    · rw [h.get?_of_apart hApart hDone hUsed (by simpa [hKnown] using Ne.symm hSame)]
  refine ⟨fun key => (h.vars key).trans (hLookups key).symm, ?_, ?_⟩
  · intro key y hLookup file
    rw [hLookups] at hLookup
    dsimp only
    by_cases hKey : key = var
    · subst hKey
      obtain rfl : x = y := Option.some.inj (hKnown.symm.trans hLookup)
      rw [Function.update_self, hMerged]
    · by_cases hy : y = x
      · subst hy
        -- The dictionary is the closest one of both variables, so it has all files of either.
        rw [Function.update_self, hMerged]
        rw [declared_of_apart hApart hPrefix (Ne.symm hKey) ((hLookups var).trans hKnown)
          (hDone.subset (mem_of_lookup hLookup))]
        rw [declared_of_apart hApart hPrefix hKey ((hLookups key).trans hLookup)
          (hDone.subset (mem_of_lookup hKnown))]
      · rw [Function.update_of_ne hy, h.closest key y hLookup, declared_append, declared_singleton,
          if_neg (Ne.symm hKey), Option.or_none]
  · intro y hNone
    have hy : y ≠ x := by
      rintro rfl
      exact hNone var ((hLookups var).trans hKnown)
    dsimp only
    rw [Function.update_of_ne hy]
    exact h.others y fun key hLookup => hNone key ((hLookups key).trans hLookup)

theorem merged_mergeItem (h : Merged h₀ done s) (hApart : Apart h₀ items)
    (hPrefix : done ++ [(var, r)] <+: items) : Merged h₀ (done ++ [(var, r)]) (mergeItem s (var, r)) := by
  cases hLookup : done.lookup var with
  | none =>
      have hItem : mergeItem s (var, r) = (s.1, s.2.set var r) := by
        simp [mergeItem, h.vars, hLookup]
      rw [hItem]
      exact merged_fresh h hApart ((List.prefix_append _ _).trans hPrefix) (hPrefix.subset (by simp)) hLookup
  | some x =>
      have hItem : mergeItem s (var, r) = (Function.update s.1 x ((s.1 x).merge (s.1 r)), s.2) := by
        simp [mergeItem, h.vars, hLookup]
      rw [hItem]
      exact merged_known h hApart hPrefix hLookup

/-- What a merge makes of the dictionaries of the marks. -/
theorem merged_foldl (hApart : Apart h₀ items) : Merged h₀ items (items.foldl mergeItem (h₀, .empty)) := by
  have hAll : ∀ done, done <+: items → Merged h₀ done (done.foldl mergeItem (h₀, .empty)) := by
    intro done hPrefix
    induction done using List.reverseRecOn with
    | nil => exact ⟨fun var => rfl, by simp, fun r _ => rfl⟩
    | append_singleton done item ih =>
        rw [List.foldl_append]
        exact merged_mergeItem (ih ((List.prefix_append _ _).trans hPrefix)) hApart hPrefix
  exact hAll items (List.prefix_refl items)

/-- The fixture writes what the dictionaries declare as they stand before the test. -/
theorem write_mem_iff {fontconfig : Bool} {marks : List Mark} (hApart : Apart h₀ (uses marks))
    {file contents : String} :
    .write var file contents ∈ (xdg ⟨false, fontconfig⟩ h₀ marks).2 ↔
      declared h₀ (uses marks) var file = some contents := by
  have hMerged := merged_foldl hApart
  rw [← reduceMarks_eq] at hMerged
  have hWrite : ∀ key files, .write var file contents ∈ actionsOf ⟨false, fontconfig⟩ key files ↔
      key = var ∧ (file, contents) ∈ files.items := by
    intro key files
    unfold actionsOf
    split <;> simp [and_comm]
  change .write var file contents ∈ (reduceMarks h₀ marks).2.items.flatMap
    (fun item => actionsOf ⟨false, fontconfig⟩ item.1 ((reduceMarks h₀ marks).1 item.2)) ↔ _
  rw [List.mem_flatMap]
  constructor
  · rintro ⟨⟨key, x⟩, hItem, hMember⟩
    obtain ⟨rfl, hFile⟩ := (hWrite key _).mp hMember
    have hLookup := (hMerged.vars key).symm.trans (Dict.get?_eq_some.mpr hItem)
    rw [← hMerged.closest key x hLookup]
    exact Dict.get?_eq_some.mpr hFile
  · intro hDeclared
    cases hLookup : (uses marks).lookup var with
    | none =>
        rw [declared_of_lookup_none hLookup] at hDeclared
        cases hDeclared
    | some x =>
        refine ⟨(var, x), Dict.get?_eq_some.mp ((hMerged.vars var).trans hLookup), (hWrite var _).mpr ⟨rfl, ?_⟩⟩
        rw [← hMerged.closest var x hLookup] at hDeclared
        exact Dict.get?_eq_some.mp hDeclared

end Merge

/-! ### What the dictionaries have gained -/

section Gains

variable {original heap : Heap} {items : List (String × Ref)} {var file contents : String}

@[simp] theorem declared_nil (heap : Heap) (var file : String) : declared heap [] var file = none := rfl

theorem declared_cons (heap : Heap) (item : String × Ref) (rest : List (String × Ref)) (var file : String) :
    declared heap (item :: rest) var file =
      (if item.1 = var then (heap item.2).get? file else none).or (declared heap rest var file) := by
  rw [← declared_singleton, ← declared_append, List.singleton_append]

/-- What is not there now never was. -/
theorem declared_none_of_extends (h : Extends original heap) (hNone : declared heap items var file = none) :
    declared original items var file = none := by
  induction items with
  | nil => rfl
  | cons item rest ih =>
      rw [declared_cons, Option.or_eq_none_iff] at hNone ⊢
      refine ⟨?_, ih hNone.2⟩
      by_cases hVar : item.1 = var
      · rw [if_pos hVar] at hNone ⊢
        cases hFile : (original item.2).get? file with
        | none => rfl
        | some contents => cases (h _ _ _ hFile).symm.trans hNone.1
      · rw [if_neg hVar]

/-- The first dictionary with the file. -/
theorem declared_eq_some (h : declared heap items var file = some contents) :
    ∃ before after r, items = before ++ (var, r) :: after ∧ declared heap before var file = none ∧
      (heap r).get? file = some contents := by
  obtain ⟨before, ⟨key, r⟩, after, rfl, hFile, hBefore⟩ := List.findSome?_eq_some_iff.mp h
  by_cases hVar : key = var
  · subst hVar
    rw [if_pos rfl] at hFile
    exact ⟨before, after, r, rfl, List.findSome?_eq_none_iff.mpr hBefore, hFile⟩
  · rw [if_neg hVar] at hFile
    cases hFile

/-- The dictionaries declare what they declared when they were written just when no gain does harm. -/
theorem declared_eq_iff (h : Extends original heap) :
    (∀ var file, declared heap items var file = declared original items var file) ↔
      GainsHarmless original heap items := by
  constructor
  · rintro hSame before after var r file contents rfl hNow hOriginal hBefore
    have hDeclared := hSame var file
    rw [declared_append, declared_append, declared_cons, declared_cons, if_pos rfl, if_pos rfl, hBefore,
      declared_none_of_extends h hBefore, hNow, hOriginal] at hDeclared
    exact hDeclared.symm
  · intro hHarmless var file
    cases hDeclared : declared heap items var file with
    | none => exact (declared_none_of_extends h hDeclared).symm
    | some contents =>
        obtain ⟨before, after, r, rfl, hBefore, hNow⟩ := declared_eq_some hDeclared
        rw [declared_append, declared_cons, if_pos rfl, declared_none_of_extends h hBefore, Option.none_or]
        cases hOriginal : (original r).get? file with
        | none =>
            rw [hHarmless before after var r file contents rfl hNow hOriginal hBefore]
            rfl
        | some first =>
            cases (h _ _ _ hOriginal).symm.trans hNow
            rfl

/-- A test whose dictionaries are apart gets its own files just when no gain does harm. -/
theorem ownFiles_iff (fontconfig : Bool) {marks : List Mark} (h : Extends original heap)
    (hApart : Apart heap (uses marks)) :
    OwnFiles original marks (xdg ⟨false, fontconfig⟩ heap marks).2 ↔
      GainsHarmless original heap (uses marks) := by
  rw [← declared_eq_iff h]
  simp only [OwnFiles, write_mem_iff hApart]
  constructor
  · intro hFiles var file
    exact Option.ext fun contents => hFiles var file contents
  · intro hSame var file contents
    rw [hSame]

end Gains

/-! ### A session -/

section Session

variable {original : Heap} {config : Config} {s t : Session} {tests : List (List Mark)}

/-- What is to hold of a session: every test that ran got its own files. -/
def AllOwn (original : Heap) (s : Session) : Prop := ∀ test ∈ s.ran, OwnFiles original test.1 test.2

/-- The condition on a test, by the dictionaries before it. -/
def Undisturbed (original : Heap) (s : Session) (marks : List Mark) : Prop :=
  Apart s.heap (uses marks) ∧ GainsHarmless original s.heap (uses marks)

/-- A session remembers its tests, and its dictionaries only grow. -/
theorem session_of_runs {ok : Session → List Mark → Prop}
    (run : Runs (step config) ok ⟨original, []⟩ tests s) :
    s.ran.map Prod.fst = tests ∧ Extends original s.heap := by
  induction run with
  | nil => exact ⟨rfl, .refl original⟩
  | snoc prior admitted last ih =>
      obtain ⟨hRan, hExtends⟩ := ih
      cases last
      exact ⟨by simp [hRan], extends_xdg hExtends config _⟩

theorem allOwn_step {fontconfig : Bool} {marks : List Mark} (h : step ⟨false, fontconfig⟩ s marks = some t)
    (hExtends : Extends original s.heap) (hApart : Apart s.heap (uses marks)) :
    AllOwn original t ↔ AllOwn original s ∧ GainsHarmless original s.heap (uses marks) := by
  rw [← ownFiles_iff fontconfig hExtends hApart]
  cases h
  simp only [AllOwn, List.forall_mem_append, List.forall_mem_singleton]
  exact Iff.rfl

/-- In a session whose tests all meet the condition, every test gets its own files. Where every test keeps
its variables apart, what is left of the condition is also necessary. -/
theorem own_files (fontconfig : Bool) (original : Heap) (tests : List (List Mark)) (s : Session) :
    (Runs (step ⟨false, fontconfig⟩) (Undisturbed original) ⟨original, []⟩ tests s →
      s.ran.map Prod.fst = tests ∧ AllOwn original s) ∧
    (Runs (step ⟨false, fontconfig⟩) (fun s marks => Apart s.heap (uses marks)) ⟨original, []⟩ tests s →
      AllOwn original s → Runs (step ⟨false, fontconfig⟩) (Undisturbed original) ⟨original, []⟩ tests s) := by
  constructor
  · intro run
    refine ⟨(session_of_runs run).1, ?_⟩
    induction run with
    | nil =>
        intro test hTest
        cases hTest
    | snoc prior admitted last ih =>
        exact (allOwn_step last (session_of_runs prior).2 admitted.1).mpr ⟨ih, admitted.2⟩
  · intro run
    induction run with
    | nil =>
        intro _
        exact .nil _
    | snoc prior admitted last ih =>
        intro hOwn
        obtain ⟨hPrior, hHarmless⟩ := (allOwn_step last (session_of_runs prior).2 admitted).mp hOwn
        exact .snoc (ih hPrior) ⟨admitted, hHarmless⟩ last

end Session

section Shared

/-- Marks that declare one variable use no dictionary for two. -/
theorem apart_of_oneVar {heap : Heap} {items : List (String × Ref)} {v : String}
    (h : ∀ item ∈ items, item.1 = v) : Apart heap items := by
  intro var var' r hNe hLookup hUsed
  have hVar : var = v := h (var, r) (mem_of_lookup hLookup)
  have hVar' : var' = v := h (var', r) hUsed
  exact absurd (hVar.trans hVar'.symm) hNe

theorem gainsHarmless_self (heap : Heap) (items : List (String × Ref)) : GainsHarmless heap heap items := by
  intro before after var r file contents _ hNow hOriginal
  cases hNow.symm.trans hOriginal

/-- The mark of `qterminal`, and one for the settings of GTK. -/
def qterminalMark : Mark := Dict.empty.set "XDG_CONFIG_HOME" 0

def keyfileMark : Mark := Dict.empty.set "XDG_CONFIG_HOME" 1

def markFiles : Heap := fun r =>
  if r = 0 then Dict.empty.set "qterminal.org/qterminal.ini" "[General]\nAskOnExit=false"
  else if r = 1 then Dict.empty.set "glib-2.0/settings/keyfile" "[org/gnome/desktop/interface]"
  else Dict.empty

/-- The session in which a test with the first marks and one with the second marks ran. -/
def sessionOf (first second : List Mark) : Session :=
  let config : Config := ⟨false, false⟩
  let one := xdg config markFiles first
  let two := xdg config one.1 second
  ⟨two.1, [(first, one.2), (second, two.2)]⟩

/-- The same marks on both tests do no harm. -/
theorem own_files_shared : AllOwn markFiles
    (sessionOf [qterminalMark, keyfileMark] [qterminalMark, keyfileMark]) := by
  have hUses : uses [qterminalMark, keyfileMark] = [("XDG_CONFIG_HOME", 0), ("XDG_CONFIG_HOME", 1)] := rfl
  have hApart : ∀ heap, Apart heap (uses [qterminalMark, keyfileMark]) := by
    intro heap
    exact apart_of_oneVar (v := "XDG_CONFIG_HOME") (by simp [hUses])
  have hGains : ∀ heap, Extends markFiles heap → heap 0 = (markFiles 0).merge (markFiles 1) →
      heap 1 = markFiles 1 → GainsHarmless markFiles heap (uses [qterminalMark, keyfileMark]) := by
    intro heap hExtends hGrown hKept
    rw [hUses, ← declared_eq_iff hExtends]
    intro var file
    by_cases hVar : "XDG_CONFIG_HOME" = var
    · simp [declared_cons, hVar, hGrown, hKept, Dict.get?_merge, Option.or_assoc]
    · simp [declared_cons, hVar]
  let one := xdg ⟨false, false⟩ markFiles [qterminalMark, keyfileMark]
  have hFirst : Runs (step ⟨false, false⟩) (Undisturbed markFiles) ⟨markFiles, []⟩
      [[qterminalMark, keyfileMark]] ⟨one.1, [([qterminalMark, keyfileMark], one.2)]⟩ :=
    .single ⟨hApart markFiles, gainsHarmless_self _ _⟩ rfl
  have hRun : Runs (step ⟨false, false⟩) (Undisturbed markFiles) ⟨markFiles, []⟩
      ([[qterminalMark, keyfileMark]] ++ [[qterminalMark, keyfileMark]])
      (sessionOf [qterminalMark, keyfileMark] [qterminalMark, keyfileMark]) :=
    hFirst.snoc ⟨hApart one.1, hGains one.1 (session_of_runs hFirst).2 rfl rfl⟩ rfl
  exact ((own_files false markFiles _ _).1 hRun).2

/-- Both marks on one test leave the keyfile to a later test that has only the first. -/
theorem files_from_earlier_test : ∃ tests s,
    Runs (step ⟨false, false⟩) Any ⟨markFiles, []⟩ tests s ∧ ¬AllOwn markFiles s := by
  refine ⟨[[qterminalMark, keyfileMark], [qterminalMark]],
    sessionOf [qterminalMark, keyfileMark] [qterminalMark], runs_of_execute rfl fun _ _ _ => trivial, ?_⟩
  intro hOwn
  have hSecond := hOwn _ (List.mem_cons_of_mem _ (List.mem_singleton_self _))
  have hWritten : .write "XDG_CONFIG_HOME" "glib-2.0/settings/keyfile" "[org/gnome/desktop/interface]" ∈
      (xdg ⟨false, false⟩ (xdg ⟨false, false⟩ markFiles [qterminalMark, keyfileMark]).1
        [qterminalMark]).2 := by decide +kernel
  have hDeclared := (hSecond _ _ _).mp hWritten
  have hNone : declared markFiles (uses [qterminalMark]) "XDG_CONFIG_HOME" "glib-2.0/settings/keyfile" =
      none := by decide +kernel
  cases hNone.symm.trans hDeclared

end Shared

end MirCi.PytestPlugin.Xdg
