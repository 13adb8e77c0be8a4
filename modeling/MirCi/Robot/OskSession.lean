import MirCi.Robot.OskTyping
import MirCi.Robot.WalkArrives
import MirCi.Semantics.CarriesOut

/-! The keywords for the on-screen keyboard with `WaylandHid` for `HID` library: what the compositor
sees of them, beside the clicks that they stand for. -/
namespace MirCi.Robot

open Python Semantics Effect Wayland Wayland.VirtualPointer WaylandHid

/-- `Get Center Of` a region. -/
def getCenterOf (region : OskRegion) : Except Exc Position := do
  return (truncate (← trueDiv (region.left + region.right) 2), truncate (← trueDiv (region.top + region.bottom) 2))

/-- A keyword of a suite, with what the matches that it makes find. -/
inductive OskCommand where
  | press (key : Item)
  | type (text : String)
  | matchOsk (found : Except Exc OskRegion)
  | switchTo (layout : String) (option found : Except Exc OskRegion)

/-- The name of the template of a layout's option. -/
def layoutOption (layout : String) : String := s!"layout_{layout}"

section Clicks

variable (python : Evaluation) (initial : Except Exc OskRegion)

/-- `Match OSK`. -/
def matchOsk (found : Except Exc OskRegion) : Method Osk OskRegion := do
  let _ ← initializeOsk initial
  compute found

/-- `Switch OSK To` a layout. -/
def switchOsk (layout : String) (option found : Except Exc OskRegion) : Method Osk Unit := do
  pressOsk initial (.str "layouts")
  let position ← compute (option >>= getCenterOf)
  modify (Osk.walkPointerTo · (layoutOption layout) position)
  modify Osk.clickLeftButton
  let region ← matchOsk initial found
  modify (Osk.movePointerTo · (region.left, region.top))
  modify fun s => { s with region := some region, layout }

def OskCommand.run : OskCommand → Method Osk Unit
  | .press key => pressOsk initial key
  | .type text => typeText python initial text
  | .matchOsk found => do
      let _ ← Robot.matchOsk initial found
      return
  | .switchTo layout option found => switchOsk initial layout option found

end Clicks

/-- The variables of the suite, and its `HID` library. -/
structure OskClient (F : Type) where
  layout : String
  region : Option OskRegion
  hid : WaylandHid.Self F
  /-- The keywords of the library that were called so far. -/
  calls : ℕ := 0

namespace OskClient

variable {F : Type} (A : Arithmetic F) (delay : F) (answers : ℕ → Answers F)

/-- A keyword of the library, with the answers to the next call. -/
def callHid (x : Answers F → Method (Self F) Unit) : Method (OskClient F) Unit := fun w =>
  match (x (answers w.calls)).run w.hid with
  | .ok _ hid => .ok () { w with hid, calls := w.calls + 1 }
  | .error e hid => .error e { w with hid, calls := w.calls + 1 }

def movePointerTo (p : Position) : Method (OskClient F) Unit := callHid answers (movePointerToAbsolute A p)

def walkPointerTo (p : Position) : Method (OskClient F) Unit := callHid answers (walkPointerToAbsolute A p 16 delay)

def clickLeftButton : Method (OskClient F) Unit := callHid answers (clickPointerButton A "LEFT")

variable (python : Evaluation) (initial : Except Exc OskRegion)

def initializeOsk : Method (OskClient F) OskRegion := do
  match (← get).region with
  | some region => return region
  | none =>
      movePointerTo A answers (0, 0)
      let region ← compute initial
      modify fun w => { w with region := some region }
      movePointerTo A answers (region.left, region.top)
      return region

def matchOsk (found : Except Exc OskRegion) : Method (OskClient F) OskRegion := do
  let _ ← initializeOsk A answers initial
  compute found

def pressOsk (key : Item) : Method (OskClient F) Unit := do
  let region ← initializeOsk A answers initial
  let pos ← compute (key.point (← get).layout region)
  walkPointerTo A delay answers pos
  clickLeftButton A answers

def switchOsk (layout : String) (option found : Except Exc OskRegion) : Method (OskClient F) Unit := do
  pressOsk A delay answers initial (.str "layouts")
  let position ← compute (option >>= getCenterOf)
  walkPointerTo A delay answers position
  clickLeftButton A answers
  let region ← matchOsk A answers initial found
  movePointerTo A answers (region.left, region.top)
  modify fun w => { w with region := some region, layout }

def typeChar (char : Item) (lastChar : String) : Method (OskClient F) Unit := do
  if ← compute (python.evaluateTruth (quote char.text ++ " == " ++ quote lastChar)) then
    clickLeftButton A answers
  else if ← compute (python.evaluateTruth (quote char.text ++ " == " ++ quote " ")) then
    pressOsk A delay answers initial (.str "space")
  else
    pressOsk A delay answers initial char

def typeNext (lastChar : String) (char : Item) : Method (OskClient F) String := do
  typeChar A delay answers python initial char lastChar
  compute (python.evaluateText (quote char.text))

def typeText (text : String) : Method (OskClient F) Unit := do
  let items ← compute (python.evaluateItems ("list(" ++ quote text ++ ")"))
  let lastChar ← compute (python.evaluateText (quote ""))
  let _ ← items.foldlM (typeNext A delay answers python initial) lastChar
  return

def run : OskCommand → Method (OskClient F) Unit
  | .press key => pressOsk A delay answers initial key
  | .type text => typeText A delay answers python initial text
  | .matchOsk found => do
      let _ ← matchOsk A answers initial found
      return
  | .switchTo layout option found => switchOsk A delay answers initial layout option found

/-- A test starts in the corner of the output. -/
def session (commands : List OskCommand) : Method (OskClient F) Unit := do
  movePointerTo A answers (0, 0)
  forM commands (run A delay answers python initial)

end OskClient

/-! ### The screen -/

/-- Half of the sum of two edges is a double. -/
def OskRegion.Pixels (region : OskRegion) : Prop :=
  (|region.left| < 2 ^ 52 ∧ |region.right| < 2 ^ 52) ∧ |region.top| < 2 ^ 52 ∧ |region.bottom| < 2 ^ 52

theorem OskRegion.Pixels.of_contains {region : OskRegion} {p : Position} (h : region.Pixels)
    (hInside : region.Contains p) : WaylandHid.Pixels p := by
  obtain ⟨⟨hLeft, hRight⟩, hTop, hBottom⟩ := h
  obtain ⟨hAcross, hDown⟩ := hInside
  rw [abs_lt] at hLeft hRight hTop hBottom
  constructor <;> rw [abs_lt] <;> omega

/-- Whatever key has a point has it inside the region. -/
theorem contains_of_getPointForKey {layout key : String} {region : OskRegion} {p : Position}
    (h : getPointForKey layout region key = .ok p) : region.Contains p := by
  unfold getPointForKey at h
  split at h
  · cases h
  · rename_i rows hRows
    split at h
    · rename_i row hRow
      obtain rfl := Except.ok.inj h
      refine row.point_inside region ?_
      have hIn : key ∈ row.chars.map String.singleton := by simpa using List.find?_some hRow
      simpa using List.idxOf_lt_length_of_mem hIn
    · split at h
      · obtain rfl := Except.ok.inj h
        exact OskKey.point_inside _ region
      · cases h

theorem Item.pixels_of_point {layout : String} {region : OskRegion} {p : Position} {key : Item}
    (h : region.Pixels) (hPoint : key.point layout region = .ok p) : WaylandHid.Pixels p := by
  cases key with
  | str text => exact h.of_contains (contains_of_getPointForKey hPoint)
  | object text raises => cases hPoint

theorem abs_truncate_le (q : ℚ) : |(truncate q : ℚ)| ≤ |q| := by
  unfold truncate
  split
  · rename_i hNonneg
    rw [abs_of_nonneg hNonneg, abs_of_nonneg (by exact_mod_cast Int.floor_nonneg.mpr hNonneg)]
    exact Int.floor_le q
  · rename_i hNegative
    have hLess : q ≤ 0 := (not_le.mp hNegative).le
    have hCeil : (⌈q⌉ : ℚ) ≤ 0 := by exact_mod_cast Int.ceil_le.mpr (by exact_mod_cast hLess)
    rw [abs_of_nonpos hLess, abs_of_nonpos hCeil]
    exact neg_le_neg (Int.le_ceil q)

theorem truncate_half {a b : ℤ} (ha : |a| < 2 ^ 52) (hb : |b| < 2 ^ 52) {x : ℚ}
    (h : trueDiv (a + b) 2 = .ok x) : |truncate x| < 2 ^ 53 := by
  have hSum : |a + b| < 2 ^ 53 := by
    have hTriangle := abs_add_le a b
    omega
  have hHalf : x = (a + b : ℤ) * 2 ^ (-1 : ℤ) := by
    rw [trueDiv, if_neg two_ne_zero] at h
    split at h
    · rename_i quotient hQuotient
      obtain rfl := Except.ok.inj h
      rw [← (toDouble_eq_some.mp hQuotient).1, ← nearest_of_bits (by norm_num) hSum]
      norm_num [div_eq_mul_inv]
    · cases h
  have hSize : |(truncate x : ℚ)| < 2 ^ 53 := by
    refine (abs_truncate_le x).trans_lt ?_
    have hCast : |((a + b : ℤ) : ℚ)| < 2 ^ 53 := by exact_mod_cast hSum
    rw [hHalf, abs_mul]
    norm_num at hCast ⊢
    linarith
  exact_mod_cast hSize

theorem pixels_of_center {region : OskRegion} {p : Position} (h : region.Pixels)
    (hCenter : getCenterOf region = .ok p) : WaylandHid.Pixels p := by
  obtain ⟨x, hx, hRest⟩ := except_bind_ok.mp hCenter
  obtain ⟨y, hy, hRest⟩ := except_bind_ok.mp hRest
  obtain rfl := Except.ok.inj hRest
  exact ⟨truncate_half h.1.1 h.1.2 hx, truncate_half h.2.1 h.2.2 hy⟩

/-! ### What the compositor sees -/

/-- The requests that clicks stand for. -/
def strokes (clicks : List OskClick) : List Press := clicks.flatMap fun click => stroke click.point

theorem strokes_append (clicks later : List OskClick) : strokes (clicks ++ later) = strokes clicks ++ strokes later :=
  List.flatMap_append

section CarriesOut

variable {F : Type} {base : List Press}

/-- The pointer is where the clicks are recorded, and the requests are those of the clicks. -/
structure OnScreen (base : List Press) (w : OskClient F) (s : Osk) : Prop where
  layout : w.layout = s.layout
  region : w.region = s.region
  pixels : ∀ region, s.region = some region → region.Pixels
  hid : OnSeat (some s.pointer) ⟨some s.pointer, base ++ strokes s.clicks⟩ w.hid

/-- What stopped has made the requests for a part of the clicks. -/
def Part (base : List Press) (w : OskClient F) (s : Osk) : Prop :=
  ∃ part, part <+: strokes s.clicks ∧ Pressed (base ++ part) w.hid

/-- The keywords carry out the clicks. -/
def matching (base : List Press) : Correspondence (OskClient F) Osk where
  Related := OnScreen base
  Stopped := Part base
  Before s t := s.clicks <+: t.clicks
  stopped_of_related _ s h := ⟨strokes s.clicks, List.prefix_refl _, h.hid.pressed⟩
  stopped_later _ s t h hBefore := by
    obtain ⟨part, hPart, hPressed⟩ := h
    obtain ⟨later, hLater⟩ := hBefore
    refine ⟨part, ?_, hPressed⟩
    rw [← hLater, strokes_append]
    exact hPart.trans (List.prefix_append _ _)
  before_refl s := List.prefix_refl s.clicks

theorem grows_click (s : Osk) :
    Keeps (fun t : Osk => s.clicks <+: t.clicks) (modify Osk.clickLeftButton : Method Osk Unit) :=
  keeps_modify fun _ h => h.trans (List.prefix_append _ _)

theorem carriesOut_compute {α : Type} (x : Except Exc α) :
    CarriesOut (matching base : Correspondence (OskClient F) Osk) (compute x) (compute x) := by
  cases x with
  | ok a => exact carriesOut_pure a
  | error e => exact carriesOut_throw e

theorem carriesOut_compute_bind {α β : Type} {x : Except Exc α} {f : α → Method (OskClient F) β}
    {g : α → Method Osk β} (h : ∀ a, x = .ok a → CarriesOut (matching base) (f a) (g a)) :
    CarriesOut (matching base) (compute x >>= f) (compute x >>= g) := by
  cases x with
  | ok a => exact h a rfl
  | error e => exact carriesOut_throw e

/-- Variables of the suite are set, in both. -/
theorem carriesOut_set {region : OskRegion} (hPixels : region.Pixels) (layout : String → String) :
    CarriesOut (matching base)
      (modify fun w => { w with region := some region, layout := layout w.layout } : Method (OskClient F) Unit)
      (modify fun s => { s with region := some region, layout := layout s.layout } : Method Osk Unit) := by
  refine carriesOut_modify (fun s => triple_modify fun w h => ⟨congrArg layout h.layout, rfl, ?_, h.hid⟩) fun _ _ h => h
  intro _ hSame
  exact Option.some.inj hSame ▸ hPixels

section CallHid

variable {answers : ℕ → Answers F} {x : Answers F → Method (Self F) Unit} {w : OskClient F} {hid : Self F}

theorem callHid_run_ok (h : (x (answers w.calls)).run w.hid = .ok () hid) :
    (OskClient.callHid answers x).run w = .ok () { w with hid, calls := w.calls + 1 } := by
  rw [EStateM.run, OskClient.callHid, h]

theorem callHid_run_error {e : Exc} (h : (x (answers w.calls)).run w.hid = .error e hid) :
    (OskClient.callHid answers x).run w = .error e { w with hid, calls := w.calls + 1 } := by
  rw [EStateM.run, OskClient.callHid, h]

/-- A keyword of the library that does to the pointer what an update records. -/
theorem carriesOut_callHid {update : Osk → Osk}
    (h : ∀ s a, Triple (OnSeat (some s.pointer) ⟨some s.pointer, base ++ strokes s.clicks⟩) (x a)
      (fun _ => OnSeat (some (update s).pointer) ⟨some (update s).pointer, base ++ strokes (update s).clicks⟩)
      fun c => ∃ part, part <+: strokes (update s).clicks ∧ Pressed (base ++ part) c)
    (hSuite : ∀ s, (update s).layout = s.layout ∧ (update s).region = s.region)
    (hGrows : ∀ s, s.clicks <+: (update s).clicks) :
    CarriesOut (matching base) (OskClient.callHid answers x) (modify update) := by
  refine carriesOut_modify (fun s w hOn => ?_) fun s t hBefore => hBefore.trans (hGrows t)
  obtain ⟨hLayout, hRegion⟩ := hSuite s
  have hEnd := h s (answers w.calls) w.hid hOn.hid
  cases hRun : (x (answers w.calls)).run w.hid with
  | ok a hid =>
      rw [hRun] at hEnd
      rw [callHid_run_ok hRun]
      exact ⟨hOn.layout.trans hLayout.symm, hOn.region.trans hRegion.symm,
        fun region hSome => hOn.pixels region (hRegion ▸ hSome), hEnd⟩
  | error e hid =>
      rw [hRun] at hEnd
      rw [callHid_run_error hRun]
      exact hEnd

end CallHid

variable {A : Arithmetic F} {delay : F} {answers : ℕ → Answers F}

theorem carriesOut_move (p : Position) : CarriesOut (matching base) (OskClient.movePointerTo A answers p)
    (modify (Osk.movePointerTo · p)) :=
  carriesOut_callHid (fun s a => (triple_movePointer_onSeat p a).mono (fun _ _ h => h) fun _ h =>
    ⟨strokes s.clicks, List.prefix_refl _, h.pressed⟩) (fun _ => ⟨rfl, rfl⟩) fun _ => List.prefix_refl _

theorem carriesOut_walk {key : String} {p : Position} (hPixels : WaylandHid.Pixels p)
    (hArrives : ∀ start, Arrives A 16 start p) :
    CarriesOut (matching base) (OskClient.walkPointerTo A delay answers p) (modify (Osk.walkPointerTo · key p)) := by
  refine carriesOut_callHid (fun s a => ?_) (fun _ => ⟨rfl, rfl⟩) fun _ => List.prefix_refl _
  refine (triple_walkPointer_onSeat a fun _ => hArrives s.pointer).mono (fun _ c h => ?_) fun _ h =>
    ⟨strokes s.clicks, List.prefix_refl _, h.pressed⟩
  obtain ⟨final, hFinal, hSeat⟩ := h.at_target
  rw [hFinal hPixels] at hSeat
  exact hSeat

theorem carriesOut_click :
    CarriesOut (matching base) (OskClient.clickLeftButton A answers) (modify Osk.clickLeftButton) := by
  refine carriesOut_callHid (fun s a => ?_) (fun _ => ⟨rfl, rfl⟩) fun _ => List.prefix_append _ _
  have hStrokes : strokes s.clickLeftButton.clicks = strokes s.clicks ++ stroke s.pointer := by
    simp [Osk.clickLeftButton, strokes]
  rw [hStrokes, ← List.append_assoc]
  refine (triple_click_onSeat a).mono (fun _ _ h => h) fun c h => ?_
  obtain ⟨part, hPart, hPressed⟩ := h
  refine ⟨strokes s.clicks ++ part, (List.prefix_append_right_inj _).mpr hPart, ?_⟩
  rwa [← List.append_assoc]

/-! ### The keywords -/

section Keywords

variable {initial : Except Exc OskRegion} (hInitial : ∀ region, initial = .ok region → region.Pixels)
include hInitial

theorem carriesOut_initializeOsk : CarriesOut (matching base) (OskClient.initializeOsk A answers initial)
    (initializeOsk initial) := by
  refine carriesOut_get_bind (fun w s hOn => ?_) fun t s => ?_
  · rw [hOn.region]
    cases s.region with
    | some region => exact carriesOut_pure region
    | none =>
        refine carriesOut_bind (carriesOut_move (0, 0)) fun _ => carriesOut_compute_bind fun region hFound => ?_
        refine carriesOut_bind (carriesOut_set (hInitial region hFound) id) fun _ => ?_
        exact carriesOut_bind (carriesOut_move _) fun _ => carriesOut_pure region
  · cases s.region with
    | some region => exact keeps_pure region
    | none =>
        refine keeps_bind (keeps_modify fun _ h => h) fun _ => keeps_bind keeps_compute fun region => ?_
        refine keeps_bind (keeps_modify fun _ h => h) fun _ => ?_
        exact keeps_bind (keeps_modify fun _ h => h) fun _ => keeps_pure region

/-- The region that is known, or found. -/
theorem triple_initialize_pixels : Triple (fun s : Osk => ∀ region, s.region = some region → region.Pixels)
    (initializeOsk initial) (fun region _ => region.Pixels) fun _ => True := by
  refine triple_get_bind_of fun s hPixels => ?_
  cases hKnown : s.region with
  | some region => exact triple_pure region fun _ _ => hPixels region hKnown
  | none =>
      refine triple_bind (triple_true _) fun _ => triple_compute_bind (fun _ _ _ _ => trivial) fun region hFound => ?_
      refine triple_bind (triple_true _) fun _ => triple_bind (triple_true _) fun _ => ?_
      exact triple_pure region fun _ _ => hInitial region hFound

theorem carriesOut_match (found : Except Exc OskRegion) : CarriesOut (matching base)
    (OskClient.matchOsk A answers initial found) (matchOsk initial found) :=
  carriesOut_bind (carriesOut_initializeOsk hInitial) fun _ => carriesOut_compute found

variable (hArrives : ∀ start p, Arrives A 16 start p)
include hArrives

theorem carriesOut_press (key : Item) : CarriesOut (matching base) (OskClient.pressOsk A delay answers initial key)
    (pressOsk initial key) := by
  refine carriesOut_bind_of (P := OskRegion.Pixels) (carriesOut_initializeOsk hInitial)
    (fun w s hOn region t h => (triple_initialize_pixels hInitial).of_ok hOn.pixels h)
    (fun region hPixels => ?_) fun region t => ?_
  · refine carriesOut_get_bind (fun w s hOn => ?_) fun t s => ?_
    · rw [hOn.layout]
      refine carriesOut_compute_bind fun p hPoint => ?_
      exact carriesOut_bind (carriesOut_walk (Item.pixels_of_point hPixels hPoint) (hArrives · p)) fun _ => carriesOut_click
    · exact keeps_bind keeps_compute fun p => keeps_bind (keeps_modify fun _ h => h) fun _ => grows_click t
  · exact keeps_get_bind fun s => keeps_bind keeps_compute fun p =>
      keeps_bind (keeps_modify fun _ h => h) fun _ => grows_click t

theorem carriesOut_switch (layout : String) {option found : Except Exc OskRegion}
    (hOption : ∀ region, option = .ok region → region.Pixels) (hFound : ∀ region, found = .ok region → region.Pixels) :
    CarriesOut (matching base) (OskClient.switchOsk A delay answers initial layout option found)
      (switchOsk initial layout option found) := by
  refine carriesOut_bind (carriesOut_press hInitial hArrives _) fun _ => carriesOut_compute_bind fun p hp => ?_
  obtain ⟨region, hRegion, hCenter⟩ := except_bind_ok.mp hp
  have hPixels := pixels_of_center (hOption region hRegion) hCenter
  refine carriesOut_bind (carriesOut_walk hPixels (hArrives · p)) fun _ => ?_
  refine carriesOut_bind carriesOut_click fun _ => ?_
  refine carriesOut_bind_of (P := fun region => found = .ok region) (carriesOut_match hInitial found)
    (fun _ s _ region t h => ?_) (fun region h => ?_) fun region t => ?_
  · obtain ⟨_, _, -, hMatch⟩ := run_bind_ok.mp h
    exact (compute_run_ok.mp hMatch).1
  · exact carriesOut_bind (carriesOut_move _) fun _ => carriesOut_set (hFound region h) fun _ => layout
  · exact keeps_bind (keeps_modify fun _ h => h) fun _ => keeps_modify fun _ h => h

variable (python : Evaluation)

theorem carriesOut_typeNext (lastChar : String) (char : Item) : CarriesOut (matching base)
    (OskClient.typeNext A delay answers python initial lastChar char) (typeNext python initial lastChar char) := by
  have hChar : CarriesOut (matching base) (OskClient.typeChar A delay answers python initial char lastChar)
      (typeChar python initial char lastChar) := by
    refine carriesOut_bind (carriesOut_compute _) fun same => carriesOut_ite carriesOut_click ?_
    refine carriesOut_bind (carriesOut_compute _) fun blank => carriesOut_ite ?_ ?_
    · exact carriesOut_press hInitial hArrives _
    · exact carriesOut_press hInitial hArrives _
  exact carriesOut_bind hChar fun _ => carriesOut_compute _

theorem carriesOut_type (text : String) : CarriesOut (matching base)
    (OskClient.typeText A delay answers python initial text) (typeText python initial text) := by
  refine carriesOut_bind (carriesOut_compute _) fun items => carriesOut_bind (carriesOut_compute _) fun lastChar => ?_
  refine carriesOut_bind (carriesOut_foldlM (fun last char => ?_) items lastChar) fun _ => carriesOut_pure ()
  exact carriesOut_typeNext hInitial hArrives python last char

end Keywords

/-- What the matches of a command find lies on the screen. -/
def OskCommand.Pixels : OskCommand → Prop
  | .press _ | .type _ | .matchOsk _ => True
  | .switchTo _ option found =>
      (∀ region, option = .ok region → region.Pixels) ∧ ∀ region, found = .ok region → region.Pixels

theorem carriesOut_run {initial : Except Exc OskRegion} (hInitial : ∀ region, initial = .ok region → region.Pixels)
    (hArrives : ∀ start p, Arrives A 16 start p) (python : Evaluation) {command : OskCommand}
    (hPixels : command.Pixels) : CarriesOut (matching base) (OskClient.run A delay answers python initial command)
      (command.run python initial) := by
  cases command with
  | press key => exact carriesOut_press hInitial hArrives key
  | type text => exact carriesOut_type hInitial hArrives python text
  | matchOsk found => exact carriesOut_bind (carriesOut_match hInitial found) fun _ => carriesOut_pure ()
  | switchTo layout option found => exact carriesOut_switch hInitial hArrives layout hPixels.1 hPixels.2

end CarriesOut

/-- A move to the corner puts the pointer where it is recorded. -/
theorem triple_corner {F : Type} {A : Arithmetic F} {answers : ℕ → Answers F} (w : OskClient F)
    (hRegion : ∀ region, w.region = some region → region.Pixels) :
    Triple (· = w) (OskClient.movePointerTo A answers (0, 0))
      (fun _ w' => OnScreen (seat w.hid.attributes.sent).presses w'
        { layout := w.layout, region := w.region, pointer := (0, 0) })
      fun w' => Pressed (seat w.hid.attributes.sent).presses w'.hid := by
  intro w₀ hw
  rw [hw]
  have hEnd := triple_movePointer_onSeat (A := A) (0, 0) (answers w.calls) w.hid ⟨rfl, rfl⟩
  cases hRun : (movePointerToAbsolute A (0, 0) (answers w.calls)).run w.hid with
  | ok a hid =>
      rw [hRun] at hEnd
      rw [OskClient.movePointerTo, callHid_run_ok hRun]
      exact ⟨rfl, rfl, hRegion, by simpa [strokes] using hEnd⟩
  | error e hid =>
      rw [hRun] at hEnd
      rw [OskClient.movePointerTo, callHid_run_error hRun]
      exact hEnd.pressed

/-- The suite's record of a session. -/
def recorded (python : Evaluation) (initial : Except Exc OskRegion) (commands : List OskCommand) (layout : String)
    (region : Option OskRegion) : EStateM.Result Exc Osk Unit :=
  (forM commands (OskCommand.run python initial)).run { layout, region, pointer := (0, 0) }

/-- Whatever the answers to the calls of a session and wherever it stops, the compositor sees the presses and
releases of the recorded clicks, each where it was recorded, in their order, as far as the session got; a session
that returns gets to the end, with the same variables. -/
theorem osk_session_on_wire (python : Evaluation) (initial : Except Exc OskRegion) (commands : List OskCommand)
    {sqrt : Double → Double} (hSqrt : Rooted sqrt) (delay : Double) (answers : ℕ → Answers Double)
    (w : OskClient Double) (hRegion : ∀ region, w.region = some region → region.Pixels)
    (hInitial : ∀ region, initial = .ok region → region.Pixels) (hCommands : ∀ command ∈ commands, command.Pixels) :
    Triple (· = w) (OskClient.session (doubles sqrt) delay answers python initial commands)
      (fun _ w' => ∃ s, recorded python initial commands w.layout w.region = .ok () s ∧
        w'.layout = s.layout ∧ w'.region = s.region ∧
        (seat w'.hid.attributes.sent).presses = (seat w.hid.attributes.sent).presses ++ strokes s.clicks)
      fun w' => ∃ part, part <+: strokes (state (recorded python initial commands w.layout w.region)).clicks ∧
        (seat w'.hid.attributes.sent).presses = (seat w.hid.attributes.sent).presses ++ part := by
  refine triple_bind ((triple_corner w hRegion).mono (fun _ _ h => h) fun w' h => ?_) fun _ w' h => ?_
  · exact ⟨[], List.nil_prefix, by rw [List.append_nil]; exact h⟩
  have hCarries : CarriesOut (matching (seat w.hid.attributes.sent).presses)
      (forM commands (OskClient.run (doubles sqrt) delay answers python initial))
      (forM commands (OskCommand.run python initial)) := carriesOut_forM fun command hCommand =>
    carriesOut_run hInitial (arrives_doubles hSqrt (by norm_num)) python
      (hCommands command hCommand)
  refine (hCarries.outcome h).mono (fun _ w'' hEnd => ?_) (fun w'' hEnd => hEnd) w' rfl
  obtain ⟨s, hRun, hOn⟩ := hEnd
  exact ⟨s, hRun, hOn.layout, hOn.region, hOn.hid.pressed⟩

/-- Calls that nothing goes wrong in. -/
def quietAnswers : Answers Double where
  connecting := { connected := {} }
  closing := {}
  move := {}
  send _ := {}
  sleep _ _ := {}

/-- A keyboard on which the letter A is fifty pixels from the corner. -/
def smallOsk : OskRegion := ⟨20, 10, 120, 90, by decide, by decide⟩

theorem smallOsk_pixels : smallOsk.Pixels := by
  unfold OskRegion.Pixels
  decide

/-- The same letter twice is one walk and two clicks. -/
theorem osk_session_on_wire_aa :
    let start : OskClient Double := ⟨"default", some smallOsk, vga, 0⟩
    ∃ w, (OskClient.session (doubles wholeSqrt) (Double.round 0) (fun _ => quietAnswers) literalsOnly
        (.ok smallOsk) [.type "aa"]).run start = .ok () w ∧
      (seat w.hid.attributes.sent).presses = stroke (30, 40) ++ stroke (30, 40) := by
  intro start
  have hEnd := osk_session_on_wire literalsOnly (.ok smallOsk) [.type "aa"] rooted_wholeSqrt (Double.round 0)
    (fun _ => quietAnswers) start (fun _ h => Option.some.inj h ▸ smallOsk_pixels)
    (fun _ h => Except.ok.inj h ▸ smallOsk_pixels) (fun _ h => List.mem_singleton.mp h ▸ trivial) start rfl
  have hReturns : raised ((OskClient.session (doubles wholeSqrt) (Double.round 0) (fun _ => quietAnswers) literalsOnly
      (.ok smallOsk) [.type "aa"]).run start) = none := by decide +kernel
  have hClicks : (state (recorded literalsOnly (.ok smallOsk) [.type "aa"] "default" (some smallOsk))).clicks =
      [⟨some "a", (30, 40)⟩, ⟨some "a", (30, 40)⟩] := by decide +kernel
  cases hRun : (OskClient.session (doubles wholeSqrt) (Double.round 0) (fun _ => quietAnswers) literalsOnly
      (.ok smallOsk) [.type "aa"]).run start with
  | error e w =>
      rw [hRun] at hReturns
      cases hReturns
  | ok a w =>
      rw [hRun] at hEnd
      obtain ⟨s, hRecorded, -, -, hPresses⟩ := hEnd
      rw [hRecorded] at hClicks
      refine ⟨w, rfl, hPresses.trans ?_⟩
      rw [state_ok] at hClicks
      rw [hClicks]
      rfl

/-! ### Texts -/

theorem forall₂_points {layout : String} {region : OskRegion} {chars : List Char} {clicks : List OskClick}
    (h : List.Forall₂ (ClickOn layout region) chars clicks) :
    List.Forall₂ (KeyAt layout region) chars (clicks.map OskClick.point) :=
  List.forall₂_map_right_iff.mpr (h.imp fun _ _ hOn => hOn.2)

/-- From wherever the pointer is known to be, typing a text presses and releases the button once on the key for
each of its characters, in order, up to where it stops, and on all of them if it returns. No other key is hit. -/
theorem text_on_wire (python : Evaluation) (initial : Except Exc OskRegion) {sqrt : Double → Double}
    (hSqrt : Rooted sqrt) (delay : Double) (answers : ℕ → Answers Double) (w : OskClient Double)
    {region : OskRegion} {p : Position} {base : List Press} (text : String) (hRegion : w.region = some region)
    (hPixels : region.Pixels) (hInitial : ∀ region, initial = .ok region → region.Pixels)
    (hKnown : OnSeat (some p) ⟨some p, base⟩ w.hid) (hTypable : ∀ c ∈ text.toList, Typable w.layout c)
    (hOpen : '\'' ∉ text.toList) :
    ∃ points, List.Forall₂ (KeyAt w.layout region) text.toList points ∧
      Triple (· = w) (OskClient.typeText (doubles sqrt) delay answers python initial text)
        (fun _ w' => (seat w'.hid.attributes.sent).presses = base ++ points.flatMap stroke)
        fun w' => ∃ part, part <+: points.flatMap stroke ∧ (seat w'.hid.attributes.sent).presses = base ++ part := by
  obtain ⟨t, hRun, ⟨clicks, hClicks, hOn⟩, -⟩ := typeText_run python initial
    (s := { layout := w.layout, region := some region, pointer := p }) rfl rfl hTypable hOpen
  have hStart : OnScreen base w { layout := w.layout, region := some region, pointer := p } :=
    ⟨rfl, hRegion, fun _ h => Option.some.inj h ▸ hPixels, by simpa [strokes] using hKnown⟩
  have hStrokes : strokes t.clicks = (clicks.map OskClick.point).flatMap stroke := by
    rw [hClicks, List.flatMap_map]
    rfl
  have hCarries : CarriesOut (matching base) (OskClient.typeText (doubles sqrt) delay answers python initial text)
      (typeText python initial text) :=
    carriesOut_type hInitial (arrives_doubles hSqrt (by norm_num)) python text
  refine ⟨clicks.map OskClick.point, forall₂_points hOn, (hCarries.outcome hStart).mono ?_ ?_⟩
  · rintro _ w' ⟨s, hSame, hEnd⟩
    cases hRun.symm.trans hSame
    rw [← hStrokes]
    exact hEnd.hid.pressed
  · rintro w' ⟨part, hPart, hPressed⟩
    rw [hRun, state_ok, hStrokes] at hPart
    exact ⟨part, hPart, hPressed⟩

/-- A client of the small output whose pointer is in the corner. -/
def vgaCorner : WaylandHid.Self Double := setPosition (0, 0)
  { vga with attributes := { vga.attributes with sent := [.motionAbsolute 0 0 640 480, .frame] } }

theorem text_on_wire_as :
    let start : OskClient Double := ⟨"default", some smallOsk, vgaCorner, 0⟩
    ∃ w, (OskClient.typeText (doubles wholeSqrt) (Double.round 0) (fun _ => quietAnswers) literalsOnly
        (.ok smallOsk) "as").run start = .ok () w ∧
      (seat w.hid.attributes.sent).presses = stroke (30, 40) ++ stroke (40, 40) := by
  intro start
  have hTypable : ∀ c ∈ "as".toList, Typable "default" c := typable_default (by decide +kernel)
  have hKnown : OnSeat (some (0, 0)) ⟨some (0, 0), []⟩ start.hid := ⟨rfl, rfl⟩
  obtain ⟨points, hPoints, hEnd⟩ := text_on_wire literalsOnly (.ok smallOsk) rooted_wholeSqrt (Double.round 0)
    (fun _ => quietAnswers) start "as" rfl smallOsk_pixels (fun _ h => Except.ok.inj h ▸ smallOsk_pixels) hKnown
    hTypable (by decide)
  have hReturns : raised ((OskClient.typeText (doubles wholeSqrt) (Double.round 0) (fun _ => quietAnswers) literalsOnly
      (.ok smallOsk) "as").run start) = none := by decide +kernel
  have hFirst : KeyAt "default" smallOsk 'a' (30, 40) := by
    unfold KeyAt
    decide +kernel
  have hSecond : KeyAt "default" smallOsk 's' (40, 40) := by
    unfold KeyAt
    decide +kernel
  have hSame : points = [(30, 40), (40, 40)] := by
    have hChars : "as".toList = ['a', 's'] := rfl
    rw [hChars] at hPoints
    cases hPoints with
    | cons hLetter hRest =>
        cases hRest with
        | cons hNext hNil =>
            cases hNil
            rw [Except.ok.inj (hLetter.symm.trans hFirst), Except.ok.inj (hNext.symm.trans hSecond)]
  have hHere := hEnd start rfl
  cases hRun : (OskClient.typeText (doubles wholeSqrt) (Double.round 0) (fun _ => quietAnswers) literalsOnly
      (.ok smallOsk) "as").run start with
  | error e w =>
      rw [hRun] at hReturns
      cases hReturns
  | ok a w =>
      rw [hRun, hSame] at hHere
      exact ⟨w, rfl, hHere⟩

end MirCi.Robot
