import Mathlib.Data.List.Destutter
import MirCi.Python.Literal
import MirCi.Robot.OskMap
import MirCi.Robot.Pointer

/-! The keywords of `osk.resource` that press the keys of the on-screen keyboard, and what
typing a text does. Robot Framework puts the text of a variable for its name, then
evaluates what this gives as Python. -/
namespace MirCi.Robot

open Python Semantics Effect

/-- What a loop goes over: strings, and objects of other types, which `Get Point For Key` fails on. -/
inductive Item where
  | str (text : String)
  | object (text : String) (raises : Exc)

/-- `'${name}'`, for the text of the variable. -/
def quote (text : String) : String := "'" ++ text ++ "'"

def Item.text : Item → String
  | str text => text
  | object text _ => text

/-- Python on source that is more than literals in single quotes. -/
structure Evaluation where
  items : String → Except Exc (List Item)
  truth : String → Except Exc Bool
  text : String → Except Exc String

namespace Evaluation

variable (python : Evaluation)

/-- An expression with a `SyntaxError` fails. -/
def invalid : Exc := { cls := .dataError }

/-- `Evaluate`, of what a loop goes over. -/
def evaluateItems (source : String) : Except Exc (List Item) :=
  match source.toList with
  | 'l' :: 'i' :: 's' :: 't' :: '(' :: argument =>
      match Literal.read argument with
      | .string value [')'] => .ok (value.map fun c => .str (String.singleton c))
      | .unterminated => .error invalid
      | _ => python.items source
  | _ => python.items source

/-- The condition of an `IF`. -/
def evaluateTruth (source : String) : Except Exc Bool :=
  match Literal.read source.toList with
  | .string left (' ' :: '=' :: '=' :: ' ' :: right) =>
      match Literal.read right with
      | .string right [] => .ok (left = right)
      | .unterminated => .error invalid
      | _ => python.truth source
  | .unterminated => .error invalid
  | _ => python.truth source

/-- `Evaluate`, of what is put into further source. -/
def evaluateText (source : String) : Except Exc String :=
  match Literal.read source.toList with
  | .string value [] => .ok (String.ofList value)
  | .unterminated => .error invalid
  | _ => python.text source

end Evaluation

/-- A left click: where it was, and the key that the pointer had been walked to. -/
structure OskClick where
  key : Option String
  point : Position
  deriving DecidableEq, Repr

/-- The variables of the suite, the pointer, and what was done with it so far. -/
structure Osk where
  layout : String
  region : Option OskRegion
  pointer : Position
  key : Option String := none
  walks : List Position := []
  clicks : List OskClick := []

namespace Osk

variable (s : Osk)

/-- `Move Pointer To`, when it returns. -/
def movePointerTo (p : Position) : Osk := { s with pointer := p, key := none }

/-- `Walk Pointer To`, when it returns. -/
def walkPointerTo (key : String) (p : Position) : Osk :=
  { s with pointer := p, key := some key, walks := s.walks ++ [p] }

/-- `Click LEFT Button`, when it returns. -/
def clickLeftButton : Osk := { s with clicks := s.clicks ++ [⟨s.key, s.pointer⟩] }

end Osk

/-- `Initialize OSK`, and the region that it leaves. -/
def initializeOsk (found : Except Exc OskRegion) : Method Osk OskRegion := do
  match (← get).region with
  | some region => return region
  | none =>
      modify (Osk.movePointerTo · (0, 0))
      let region ← compute found
      modify fun s => { s with region := some region }
      modify (Osk.movePointerTo · (region.left, region.top))
      return region

/-- `Get Point For Key`. -/
def Item.point (layout : String) (region : OskRegion) : Item → Except Exc Position
  | str key => getPointForKey layout region key
  | object _ raises => .error raises

def pressOsk (found : Except Exc OskRegion) (key : Item) : Method Osk Unit := do
  let region ← initializeOsk found
  let pos ← compute (key.point (← get).layout region)
  modify (Osk.walkPointerTo · key.text pos)
  modify Osk.clickLeftButton

section Keywords

variable (python : Evaluation) (found : Except Exc OskRegion)

/-- The branches of the loop. -/
def typeChar (char : Item) (lastChar : String) : Method Osk Unit := do
  if ← compute (python.evaluateTruth (quote char.text ++ " == " ++ quote lastChar)) then
    modify Osk.clickLeftButton
  else if ← compute (python.evaluateTruth (quote char.text ++ " == " ++ quote " ")) then
    pressOsk found (.str "space")
  else
    pressOsk found char

/-- The body of the loop, with the last character. -/
def typeNext (lastChar : String) (char : Item) : Method Osk String := do
  typeChar python found char lastChar
  compute (python.evaluateText (quote char.text))

/-- `Type`. -/
def typeText (text : String) : Method Osk Unit := do
  let items ← compute (python.evaluateItems ("list(" ++ quote text ++ ")"))
  let lastChar ← compute (python.evaluateText (quote ""))
  let _ ← items.foldlM (typeNext python found) lastChar
  return

end Keywords

/-! ### Literals -/

/-- A text that reads as itself between single quotes. -/
def Quotable (text : String) : Prop := (∀ c ∈ text.toList, Plain c) ∧ '\'' ∉ text.toList

namespace Evaluation

variable {python : Evaluation} {left right : String}

theorem evaluateItems_list (h : Quotable left) :
    python.evaluateItems ("list(" ++ quote left ++ ")") =
      .ok (left.toList.map fun c => .str (String.singleton c)) := by
  have hRead : Literal.read ('\'' :: (left.toList ++ '\'' :: [')'])) = .string left.toList [')'] :=
    Literal.read_quoted h.1 h.2 (by simp)
  simp [evaluateItems, quote, hRead]

theorem evaluateTruth_eq (hLeft : Quotable left) (hRight : Quotable right) :
    python.evaluateTruth (quote left ++ " == " ++ quote right) = .ok (left = right) := by
  have hFirst : Literal.read ('\'' :: (left.toList ++ '\'' :: (" == ".toList ++ (quote right).toList))) =
      .string left.toList (" == ".toList ++ (quote right).toList) :=
    Literal.read_quoted hLeft.1 hLeft.2 (by simp)
  have hSecond : Literal.read ('\'' :: (right.toList ++ '\'' :: [])) = .string right.toList [] :=
    Literal.read_quoted hRight.1 hRight.2 (by simp)
  simp [quote] at hFirst
  simp [evaluateTruth, quote, hFirst, hSecond, String.toList_inj]

theorem evaluateText_quote (h : Quotable left) : python.evaluateText (quote left) = .ok left := by
  have hRead : Literal.read ('\'' :: (left.toList ++ '\'' :: [])) = .string left.toList [] :=
    Literal.read_quoted h.1 h.2 (by simp)
  simp [evaluateText, quote, hRead]

/-- An apostrophe makes three quotes of the first one, and no three close them. -/
theorem evaluateTruth_apostrophe : python.evaluateTruth (quote "'" ++ " == " ++ quote " ") = .error invalid := by
  rfl

end Evaluation

/-! ### Typing key by key -/

/-- The key for a character. -/
def oskKey (c : Char) : String := if c = ' ' then "space" else String.singleton c

/-- A character of the rows of the layout, or a blank where there is a space key. -/
def Typable (layout : String) (c : Char) : Prop :=
  (∃ rows, oskRows.lookup layout = some rows ∧ ∃ row ∈ rows, c ∈ row.chars) ∨ c = ' ' ∧ HasKey layout "space"

/-- `Press OSK`, for every character separately. -/
def pressEach (found : Except Exc OskRegion) (text : String) : Method Osk Unit :=
  text.toList.forM fun c => pressOsk found (.str (oskKey c))

section Clicks

variable (layout : String) (region : OskRegion)

def KeyAt (c : Char) (p : Position) : Prop := getPointForKey layout region (oskKey c) = .ok p

/-- A click on the key for the character. -/
def ClickOn (c : Char) (click : OskClick) : Prop :=
  click.key = some (oskKey c) ∧ KeyAt layout region c click.point

end Clicks

/-- The keyword returns, having clicked once for each character, in order, on its key, as pressing every
character separately does, and having walked once to each run of equal characters. -/
def TypesKeyByKey (python : Evaluation) (found : Except Exc OskRegion) (layout : String) (region : OskRegion)
    (pointer : Position) (text : String) : Prop :=
  ∃ t u, (typeText python found text).run { layout, region := some region, pointer } = .ok () t ∧
    (pressEach found text).run { layout, region := some region, pointer } = .ok () u ∧
    t.clicks = u.clicks ∧ List.Forall₂ (ClickOn layout region) text.toList t.clicks ∧
    List.Forall₂ (KeyAt layout region) (text.toList.destutter (· ≠ ·)) t.walks

section Layout

variable {layout : String} {c : Char}

/-- The characters of the rows stand for themselves in a literal, and none is a blank. -/
theorem oskRows_plain : ∀ layout ∈ oskRows, ∀ row ∈ layout.2, ∀ c ∈ row.chars, Plain c ∧ c ≠ ' ' := by
  have hAll : (oskRows.all fun layout => layout.2.all fun row =>
      row.chars.all fun c => decide (Plain c ∧ c ≠ ' ')) = true := by
    decide +kernel
  simpa only [List.all_eq_true, decide_eq_true_eq] using hAll

theorem Typable.plain (h : Typable layout c) : Plain c := by
  rcases h with ⟨rows, hRows, row, hRow, hChar⟩ | ⟨rfl, -⟩
  · exact (oskRows_plain _ (mem_oskRows hRows) row hRow c hChar).1
  · decide

theorem Typable.hasKey (h : Typable layout c) : HasKey layout (oskKey c) := by
  rcases h with ⟨rows, hRows, row, hRow, hChar⟩ | ⟨rfl, hSpace⟩
  · rw [oskKey, if_neg (oskRows_plain _ (mem_oskRows hRows) row hRow c hChar).2]
    exact .inl ⟨rows, hRows, row, hRow, c, hChar, rfl⟩
  · exact hSpace

end Layout

/-! ### One character -/

section Runs

variable (python : Evaluation) (found : Except Exc OskRegion) {region : OskRegion} {s : Osk} {c : Char}
  {chars : List Char} {p : Position}

theorem pressOsk_run {key : String} (hRegion : s.region = some region)
    (hPoint : getPointForKey s.layout region key = .ok p) :
    (pressOsk found (.str key)).run s = .ok () (s.walkPointerTo key p).clickLeftButton := by
  have hKnown : (initializeOsk found).run s = .ok region s := by
    simp [initializeOsk, hRegion]
  have hFound : (compute (getPointForKey s.layout region key) : Method Osk Position).run s = .ok p s :=
    compute_run_ok.mpr ⟨hPoint, rfl⟩
  refine run_bind_ok.mpr ⟨region, s, hKnown, ?_⟩
  exact run_bind_ok.mpr ⟨s, s, rfl, run_bind_ok.mpr ⟨p, s, hFound, rfl⟩⟩

theorem quotable_singleton (h : Typable s.layout c) (hOther : c ≠ '\'') : Quotable (String.singleton c) := by
  simp [Quotable, h.plain, hOther.symm]

theorem quotable_empty : Quotable "" := by simp [Quotable]

theorem quotable_blank : Quotable " " := by
  have hPlain : Plain ' ' := by decide
  simp [Quotable, hPlain]

/-- Another character than the last one is pressed. -/
theorem typeNext_run_press {lastChar : String} (hRegion : s.region = some region) (hLast : Quotable lastChar)
    (hTypable : Typable s.layout c) (hOther : c ≠ '\'') (hNew : String.singleton c ≠ lastChar)
    (hPoint : KeyAt s.layout region c p) :
    (typeNext python found lastChar (.str (String.singleton c))).run s =
      .ok (String.singleton c) (s.walkPointerTo (oskKey c) p).clickLeftButton := by
  have hQuotable := quotable_singleton hTypable hOther
  have hPress : (typeChar python found (.str (String.singleton c)) lastChar).run s =
      .ok () (s.walkPointerTo (oskKey c) p).clickLeftButton := by
    rw [← pressOsk_run found hRegion hPoint]
    simp only [typeChar, Item.text, Evaluation.evaluateTruth_eq hQuotable hLast,
      Evaluation.evaluateTruth_eq hQuotable quotable_blank, hNew]
    by_cases hBlank : c = ' '
    · subst hBlank
      rfl
    · have hText : String.singleton c ≠ " " := fun h => hBlank (singleton_injective h)
      simp only [hText, oskKey, if_neg hBlank]
      rfl
  refine run_bind_ok.mpr ⟨(), _, hPress, ?_⟩
  rw [Item.text, Evaluation.evaluateText_quote hQuotable]
  rfl

/-- The last character again is clicked where the pointer is. -/
theorem typeNext_run_click (hTypable : Typable s.layout c) (hOther : c ≠ '\'') :
    (typeNext python found (String.singleton c) (.str (String.singleton c))).run s =
      .ok (String.singleton c) s.clickLeftButton := by
  have hQuotable := quotable_singleton hTypable hOther
  have hClick : (typeChar python found (.str (String.singleton c)) (String.singleton c)).run s =
      .ok () s.clickLeftButton := by
    simp only [typeChar, Item.text, Evaluation.evaluateTruth_eq hQuotable hQuotable]
    rfl
  refine run_bind_ok.mpr ⟨(), _, hClick, ?_⟩
  rw [Item.text, Evaluation.evaluateText_quote hQuotable]
  rfl

/-! ### A whole text -/

/-- Between these states the keys for these characters were clicked. -/
def Clicks (region : OskRegion) (chars : List Char) (s t : Osk) : Prop :=
  ∃ clicks, t.clicks = s.clicks ++ clicks ∧ List.Forall₂ (ClickOn s.layout region) chars clicks

/-- Between these states the pointer walked to the keys for these characters. -/
def Walks (region : OskRegion) (chars : List Char) (layout : String) (before : List Position) (t : Osk) : Prop :=
  ∃ walks, t.walks = before ++ walks ∧ List.Forall₂ (KeyAt layout region) chars walks

theorem Clicks.click {u : Osk} (hOn : ClickOn s.layout region c ⟨s.key, s.pointer⟩)
    (h : Clicks region chars s.clickLeftButton u) : Clicks region (c :: chars) s u := by
  obtain ⟨clicks, hClicks, hLater⟩ := h
  exact ⟨⟨s.key, s.pointer⟩ :: clicks, by simp [hClicks, Osk.clickLeftButton], .cons hOn hLater⟩

theorem Clicks.press {u : Osk} (hPoint : KeyAt s.layout region c p)
    (h : Clicks region chars (s.walkPointerTo (oskKey c) p).clickLeftButton u) :
    Clicks region (c :: chars) s u :=
  Clicks.click (s := s.walkPointerTo (oskKey c) p) ⟨rfl, hPoint⟩ h

theorem pressEach_run (hRegion : s.region = some region) (hTypable : ∀ c ∈ chars, Typable s.layout c) :
    ∃ u, (chars.forM fun c => pressOsk found (.str (oskKey c))).run s = .ok () u ∧ Clicks region chars s u := by
  induction chars generalizing s with
  | nil => exact ⟨s, rfl, [], by simp, .nil⟩
  | cons c chars ih =>
      obtain ⟨p, hPoint, -⟩ := key_inside (hTypable c (by simp)).hasKey region
      obtain ⟨u, hRun, hClicks⟩ := ih (s := (s.walkPointerTo (oskKey c) p).clickLeftButton) hRegion
        fun d hd => hTypable d (by simp [hd])
      exact ⟨u, run_bind_ok.mpr ⟨(), _, pressOsk_run found hRegion hPoint, hRun⟩, hClicks.press hPoint⟩

/-- From where the pointer is on the key of the last character. -/
theorem typeRest_run (hRegion : s.region = some region)
    (hTypable : ∀ d ∈ chars, Typable s.layout d ∧ d ≠ '\'') (hLast : Typable s.layout c ∧ c ≠ '\'')
    (hOn : ClickOn s.layout region c ⟨s.key, s.pointer⟩) {before : List Position}
    (hBefore : s.walks = before ++ [s.pointer]) :
    ∃ lastChar t, ((chars.map fun d => Item.str (String.singleton d)).foldlM (typeNext python found)
        (String.singleton c)).run s = .ok lastChar t ∧
      Clicks region chars s t ∧ Walks region (chars.destutter' (· ≠ ·) c) s.layout before t := by
  induction chars generalizing s c before with
  | nil => exact ⟨_, s, rfl, ⟨[], by simp, .nil⟩, [s.pointer], hBefore, .cons hOn.2 .nil⟩
  | cons d chars ih =>
      have hNext := hTypable d (by simp)
      have hLater : ∀ e ∈ chars, Typable s.layout e ∧ e ≠ '\'' := fun e he => hTypable e (by simp [he])
      by_cases hSame : c = d
      · subst hSame
        obtain ⟨lastChar, t, hRun, hClicks, hWalks⟩ :=
          ih (s := s.clickLeftButton) hRegion hLater hLast hOn hBefore
        refine ⟨lastChar, t, run_bind_ok.mpr ⟨_, _, typeNext_run_click python found hLast.1 hLast.2, hRun⟩,
          hClicks.click hOn, ?_⟩
        rw [List.destutter'_cons_neg _ (by simp)]
        exact hWalks
      · obtain ⟨p, hPoint, -⟩ := key_inside hNext.1.hasKey region
        have hNew : String.singleton d ≠ String.singleton c := fun h => hSame (singleton_injective h).symm
        obtain ⟨lastChar, t, hRun, hClicks, walks, hWalks, hAt⟩ :=
          ih (s := (s.walkPointerTo (oskKey d) p).clickLeftButton) hRegion hLater hNext ⟨rfl, hPoint⟩ rfl
        have hStep := typeNext_run_press python found hRegion
          (quotable_singleton hLast.1 hLast.2) hNext.1 hNext.2 hNew hPoint
        refine ⟨lastChar, t, run_bind_ok.mpr ⟨_, _, hStep, hRun⟩, hClicks.press hPoint, ?_⟩
        rw [List.destutter'_cons_pos _ hSame]
        exact ⟨s.pointer :: walks, by simp [hWalks, hBefore], .cons hOn.2 hAt⟩

/-- From the start, where no character is the last one. -/
theorem typeAll_run (hRegion : s.region = some region) (hWalks : s.walks = [])
    (hTypable : ∀ c ∈ chars, Typable s.layout c ∧ c ≠ '\'') :
    ∃ lastChar t, ((chars.map fun c => Item.str (String.singleton c)).foldlM (typeNext python found) "").run s =
        .ok lastChar t ∧
      Clicks region chars s t ∧ Walks region (chars.destutter (· ≠ ·)) s.layout [] t := by
  cases chars with
  | nil => exact ⟨"", s, rfl, ⟨[], by simp, .nil⟩, [], hWalks, .nil⟩
  | cons c chars =>
      obtain ⟨hFirst, hOther⟩ := hTypable c (by simp)
      have hLater : ∀ d ∈ chars, Typable s.layout d ∧ d ≠ '\'' := fun d hd => hTypable d (by simp [hd])
      obtain ⟨p, hPoint, -⟩ := key_inside hFirst.hasKey region
      have hStep := typeNext_run_press python found hRegion quotable_empty hFirst hOther
        (by simp) hPoint
      have hBefore : (s.walkPointerTo (oskKey c) p).clickLeftButton.walks = [] ++ [p] := by
        simp [Osk.clickLeftButton, Osk.walkPointerTo, hWalks]
      obtain ⟨lastChar, t, hRun, hClicks, hWalked⟩ :=
        typeRest_run python found (s := (s.walkPointerTo (oskKey c) p).clickLeftButton) hRegion hLater
          ⟨hFirst, hOther⟩ ⟨rfl, hPoint⟩ hBefore
      exact ⟨lastChar, t, run_bind_ok.mpr ⟨_, _, hStep, hRun⟩, hClicks.press hPoint, hWalked⟩

theorem typeText_run {text : String} (hRegion : s.region = some region) (hWalks : s.walks = [])
    (hTypable : ∀ c ∈ text.toList, Typable s.layout c) (hOpen : '\'' ∉ text.toList) :
    ∃ t, (typeText python found text).run s = .ok () t ∧ Clicks region text.toList s t ∧
      Walks region (text.toList.destutter (· ≠ ·)) s.layout [] t := by
  have hQuotable : Quotable text := ⟨fun c hc => (hTypable c hc).plain, hOpen⟩
  obtain ⟨lastChar, t, hRun, hClicks, hWalked⟩ :=
    typeAll_run python found hRegion hWalks
      fun c hc => ⟨hTypable c hc, fun h => hOpen (h ▸ hc)⟩
  refine ⟨t, ?_, hClicks, hWalked⟩
  refine run_bind_ok.mpr ⟨_, s, compute_run_ok.mpr ⟨Evaluation.evaluateItems_list hQuotable, rfl⟩, ?_⟩
  refine run_bind_ok.mpr ⟨_, s, compute_run_ok.mpr ⟨Evaluation.evaluateText_quote quotable_empty, rfl⟩, ?_⟩
  exact run_bind_ok.mpr ⟨lastChar, t, hRun, rfl⟩

end Runs

/-! ### Apostrophes -/

/-- The key of the apostrophe was neither walked to nor clicked. -/
def NoApostrophe (s : Osk) : Prop := s.key ≠ some "'" ∧ ∀ click ∈ s.clicks, click.key ≠ some "'"

section Apostrophe

variable (python : Evaluation) (found : Except Exc OskRegion)

theorem keeps_clickLeftButton : Keeps NoApostrophe (modify Osk.clickLeftButton : Method Osk Unit) := by
  refine keeps_modify fun s h => ⟨h.1, fun click hClick => ?_⟩
  rcases List.mem_append.mp hClick with hOld | hNew
  · exact h.2 click hOld
  · obtain rfl := List.mem_singleton.mp hNew
    exact h.1

theorem keeps_initializeOsk : Keeps NoApostrophe (initializeOsk found) := by
  refine keeps_get_bind fun s => ?_
  cases s.region with
  | some region => exact keeps_pure region
  | none =>
      refine keeps_bind (keeps_modify fun s h => ⟨by simp [Osk.movePointerTo], h.2⟩) fun _ => ?_
      refine keeps_bind keeps_compute fun region => keeps_bind (keeps_modify fun s h => h) fun _ => ?_
      exact keeps_bind (keeps_modify fun s h => ⟨by simp [Osk.movePointerTo], h.2⟩) fun _ => keeps_pure region

theorem keeps_pressOsk {key : Item} (hKey : key.text ≠ "'") : Keeps NoApostrophe (pressOsk found key) := by
  refine keeps_bind (keeps_initializeOsk found) fun region => keeps_get_bind fun s => ?_
  refine keeps_bind keeps_compute fun p => ?_
  exact keeps_bind (keeps_modify fun s h => ⟨by simpa [Osk.walkPointerTo] using hKey, h.2⟩) fun _ =>
    keeps_clickLeftButton

/-- The second condition fails for an apostrophe, before its key is pressed. -/
theorem keeps_typeChar (char : Item) (lastChar : String) :
    Keeps NoApostrophe (typeChar python found char lastChar) := by
  refine keeps_bind keeps_compute fun same => keeps_ite (fun _ => keeps_clickLeftButton) fun _ => ?_
  by_cases hChar : char.text = "'"
  · rw [hChar, Evaluation.evaluateTruth_apostrophe]
    exact keeps_throw Evaluation.invalid
  · refine keeps_bind keeps_compute fun blank => keeps_ite (fun _ => ?_) fun _ => keeps_pressOsk found hChar
    exact keeps_pressOsk found (by simp [Item.text])

theorem keeps_typeText (text : String) : Keeps NoApostrophe (typeText python found text) := by
  refine keeps_bind keeps_compute fun items => keeps_bind keeps_compute fun lastChar => ?_
  refine keeps_bind ?_ fun _ => keeps_pure ()
  induction items generalizing lastChar with
  | nil => exact keeps_pure lastChar
  | cons char items ih =>
      have hNext : Keeps NoApostrophe (typeNext python found lastChar char) :=
        keeps_bind (keeps_typeChar python found char lastChar) fun _ => keeps_compute
      exact keeps_bind hNext fun last => ih last

end Apostrophe

theorem clickOn_unique (layout : String) (region : OskRegion) : Relator.RightUnique (ClickOn layout region) := by
  rintro c ⟨_, p⟩ ⟨_, q⟩ ⟨rfl, hp⟩ ⟨rfl, hq⟩
  cases hp.symm.trans hq
  rfl

theorem clicks_open {layout : String} {region : OskRegion} {chars : List Char} {clicks : List OskClick}
    (hOn : List.Forall₂ (ClickOn layout region) chars clicks) (h : ∀ click ∈ clicks, click.key ≠ some "'") :
    '\'' ∉ chars := by
  induction hOn with
  | nil => simp
  | @cons c click chars clicks hFirst _ ih =>
      have hOther : c ≠ '\'' := by
        rintro rfl
        exact h click (by simp) hFirst.1
      simpa [hOther.symm] using ih fun later hLater => h later (by simp [hLater])

/-- With the region known, a text of the layout is typed key by key unless it has an apostrophe in it. -/
theorem typesKeyByKey_iff (python : Evaluation) (found : Except Exc OskRegion) {layout : String}
    (region : OskRegion) (pointer : Position) {text : String} (hTypable : ∀ c ∈ text.toList, Typable layout c) :
    TypesKeyByKey python found layout region pointer text ↔ '\'' ∉ text.toList := by
  constructor
  · rintro ⟨t, u, hRun, -, -, hOn, -⟩
    have hKeeps := keeps_typeText python found text
      { layout, region := some region, pointer } ⟨by simp, by simp⟩
    rw [hRun] at hKeeps
    exact clicks_open hOn hKeeps.2
  · intro hOpen
    obtain ⟨t, hRun, ⟨clicks, hClicks, hOn⟩, walks, hWalks, hAt⟩ := typeText_run python found
      (s := { layout, region := some region, pointer }) rfl rfl hTypable hOpen
    obtain ⟨u, hEach, clicks', hClicks', hOn'⟩ := pressEach_run found
      (s := { layout, region := some region, pointer }) rfl hTypable
    obtain rfl : clicks = clicks' := (clickOn_unique layout region).forall₂ hOn hOn'
    rw [List.nil_append] at hWalks
    refine ⟨t, u, hRun, hEach, hClicks.trans hClicks'.symm, ?_, hWalks ▸ hAt⟩
    rw [hClicks]
    exact hOn

/-- Python that fails on every source but literals. -/
def literalsOnly : Evaluation where
  items _ := .error Evaluation.invalid
  truth _ := .error Evaluation.invalid
  text _ := .error Evaluation.invalid

theorem typable_default {text : String}
    (h : text.toList.all (fun c => c = ' ' ∨ c ∈ defaultRows.flatMap OskRow.chars) = true) :
    ∀ c ∈ text.toList, Typable "default" c := by
  intro c hc
  rcases of_decide_eq_true (List.all_eq_true.mp h c hc) with rfl | hChar
  · exact .inr ⟨rfl, .inr ⟨defaultKeys, rfl, by decide⟩⟩
  · obtain ⟨row, hRow, hIn⟩ := List.mem_flatMap.mp hChar
    exact .inl ⟨defaultRows, rfl, row, hRow, hIn⟩

/-- Twice a letter, and a blank. -/
theorem typesKeyByKey_iff_all : TypesKeyByKey literalsOnly (.ok lowerHalf) "default" lowerHalf (0, 0) "all in" :=
  (typesKeyByKey_iff literalsOnly (.ok lowerHalf) lowerHalf (0, 0) (typable_default (by decide +kernel))).mpr
    (by decide)

/-- The apostrophe has its key, but `list(''')` does not parse. -/
theorem apostrophe_not_typed :
    (∀ c ∈ "'".toList, Typable "default" c) ∧ (∃ point, getPointForKey "default" lowerHalf "'" = .ok point) ∧
      raised ((typeText literalsOnly (.ok lowerHalf) "'").run
        { layout := "default", region := some lowerHalf, pointer := (0, 0) }) = some Evaluation.invalid ∧
      ¬TypesKeyByKey literalsOnly (.ok lowerHalf) "default" lowerHalf (0, 0) "'" := by
  have hTypable : ∀ c ∈ "'".toList, Typable "default" c := typable_default (by decide +kernel)
  have hRaised : raised ((typeText literalsOnly (.ok lowerHalf) "'").run
      { layout := "default", region := some lowerHalf, pointer := (0, 0) }) = some Evaluation.invalid := by
    rfl
  obtain ⟨point, hPoint, -⟩ := key_inside (hTypable '\'' (by simp)).hasKey lowerHalf
  refine ⟨hTypable, ⟨point, hPoint⟩, hRaised, ?_⟩
  rintro ⟨t, _, hRun, -⟩
  rw [hRun] at hRaised
  cases hRaised

end MirCi.Robot
