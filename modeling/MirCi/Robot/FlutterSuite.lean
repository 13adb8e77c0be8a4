import MirCi.Robot.DragAndDropSuite
import MirCi.Semantics.Procedure

/-! The test cases of `mir_flutter_app.robot`. They click and drag with the left button: it is
pressed when it is up, and let go of when it is down, and when a test passes it is up. -/
namespace MirCi.Robot

open Python Semantics Effect Interaction Procedure Wayland Wayland.VirtualPointer WaylandHid

/-! ### The left button -/

/-- Only the left button is used, by turns; in the end it is down or not. The point of each
press is free: where the pointer is, the test cases leave to the matches. -/
inductive LeftOnly : List Press → Bool → Prop where
  | nil : LeftOnly [] false
  | press {presses : List Press} (point : Option Position) (h : LeftOnly presses false) :
      LeftOnly (presses ++ [⟨code .left, 1, point⟩]) true
  | release {presses : List Press} (point : Option Position) (h : LeftOnly presses true) :
      LeftOnly (presses ++ [⟨code .left, 0, point⟩]) false

/-- The compositor has seen the left button go down and up by turns, and last as said. -/
def Kvm.Left (down : Bool) (s : Kvm) : Prop := LeftOnly s.seat.presses down

/-- The left button may be either. This is what is left of a keyword that raised between
its press and its release. -/
def Kvm.Orderly (s : Kvm) : Prop := ∃ down, s.Left down

section Keywords

variable {F : Type} {α β : Type}

/-- A keyword of a suite, in terms of those of `kvm.resource`. -/
abbrev Keyword (F α : Type) := Procedure (KvmCommand F) Exc (Option Position) α

/-- From the one state of the left button to the other when the keyword returns; wherever it
raises, the presses so far still are by turns. The pointer is not followed. -/
abbrev Turns (before : Bool) (x : Keyword F α) (after : Bool) : Prop :=
  Leaves Kvm.step Any KvmEvent.call Kvm.Orderly (Kvm.Left before) x fun _ => Kvm.Left after

variable {before middle after : Bool}

/-- One keyword after the other: the second one starts where the first one leaves the button,
and is not run when the first one raises. -/
theorem turns_bind {x : Keyword F α} {f : α → Keyword F β} (h : Turns before x middle)
    (hNext : ∀ a, Turns middle (f a) after) : Turns before (x >>= f) after :=
  leaves_bind h hNext

theorem turns_pure {a : α} : Turns before (pure a : Keyword F α) before := leaves_pure fun _ h => h

/-- A keyword that always raises may promise any state of the button for its return. -/
theorem turns_fail {e : Exc} : Turns before (fail e : Keyword F α) after := leaves_fail fun _ h => ⟨before, h⟩

theorem turns_fresh : Turns before (fresh : Keyword F ℕ) before := leaves_fresh

theorem Kvm.Left.of_presses {s t : Kvm} (h : s.Left before) (hSame : t.seat.presses = s.seat.presses) :
    t.Left before := by
  rw [Kvm.Left, hSame]
  exact h

/-- A pointer keyword presses nothing, whether it returns or not, and wherever it leaves the
pointer. -/
theorem step_aim_presses {s t : Kvm} {event : KvmEvent F} {aim : Aim F} (hAim : event.command.aim = some aim)
    (hStep : s.step event = some t) : t.seat.presses = s.seat.presses := by
  obtain ⟨command, outcome, pointer, located, made⟩ := event
  cases command with
  | move aim =>
      rcases outcome with e | _ | p
      · rw [← Option.some.inj hStep]
        split <;> rfl
      · cases hStep
      · obtain ⟨-, hEnd⟩ := Option.ite_none_right_eq_some.mp hStep
        rw [← Option.some.inj hEnd]
        rfl
  | walk aim _ _ =>
      rcases outcome with e | _ | p
      · rw [← Option.some.inj hStep]
        split <;> rfl
      · cases hStep
      · obtain ⟨-, hEnd⟩ := Option.ite_none_right_eq_some.mp hStep
        rw [← Option.some.inj hEnd]
        rfl
  | _ => cases hAim

/-- So a pointer keyword leaves the left button as it was. Its event names neither the position
reached nor the requests made, hence the case for each outcome. -/
theorem turns_aim {command : KvmCommand F} {aim : Aim F} (hAim : command.aim = some aim) :
    Turns before (call command) before := by
  intro Post n next s h hNext
  refine covers_callThen (fun position event u hShows _ hStep => ?_) fun e event u hShows _ hStep => ?_
  · obtain ⟨hCommand, -⟩ := Prod.mk.inj hShows
    exact hNext n position u (h.of_presses (step_aim_presses (hCommand ▸ hAim) hStep))
  · obtain ⟨hCommand, -⟩ := Prod.mk.inj hShows
    exact ⟨before, h.of_presses (step_aim_presses (hCommand ▸ hAim) hStep)⟩

/-- A keyword that asks for buttons takes its turns, and so does any part of it: a request that
fails leaves those before it with the compositor. -/
theorem turns_touch {command : KvmCommand F} {requests : List (Button × Bool)}
    (hRequests : command.requests = some requests)
    (hAll : ∀ s : Kvm, s.Left before → (s.touched requests).Left after)
    (hPart : ∀ (s : Kvm) (n : ℕ), s.Left before → (s.touched (requests.take n)).Orderly) :
    Turns before (call command) after := by
  intro Post n next s h hNext
  refine covers_touch (aim_of_requests hRequests) (fun other hOther => ?_) fun m => ?_
  · obtain rfl := Option.some.inj (hRequests.symm.trans hOther)
    exact hNext n none _ (hAll s h)
  · rw [hRequests, Option.getD_some]
    exact hPart s m h

theorem left_press {s : Kvm} (h : s.Left false) : (s.touched [(.left, true)]).Left true := LeftOnly.press _ h

theorem left_release {s : Kvm} (h : s.Left true) : (s.touched [(.left, false)]).Left false := LeftOnly.release _ h

theorem left_click {s : Kvm} (h : s.Left false) : (s.touched [(.left, true), (.left, false)]).Left false := by
  have hClick := LeftOnly.release s.seat.pointer (LeftOnly.press s.seat.pointer h)
  rwa [List.append_assoc] at hClick

theorem orderly_none {s : Kvm} (h : s.Left before) : (s.touched []).Orderly := by
  rw [Kvm.touched_nil]
  exact ⟨before, h⟩

theorem turns_press : Turns false (call (.press "LEFT") : Keyword F _) true := by
  refine turns_touch rfl (fun _ => left_press) fun s n h => ?_
  rcases n with _ | n
  · exact orderly_none h
  · rw [List.take_of_length_le (by simp)]
    exact ⟨true, left_press h⟩

theorem turns_release : Turns true (call (.release "LEFT") : Keyword F _) false := by
  refine turns_touch rfl (fun _ => left_release) fun s n h => ?_
  rcases n with _ | n
  · exact orderly_none h
  · rw [List.take_of_length_le (by simp)]
    exact ⟨false, left_release h⟩

/-- A click needs the button up. If its release fails, the button stays down, which still is
by turns. -/
theorem turns_click : Turns false (call (.click "LEFT") : Keyword F _) false := by
  refine turns_touch rfl (fun _ => left_click) fun s n h => ?_
  rcases n with _ | _ | n
  · exact orderly_none h
  · exact ⟨true, left_press h⟩
  · rw [List.take_of_length_le (by simp)]
    exact ⟨false, left_click h⟩

/-- A match asks the compositor for nothing, whatever it finds. -/
theorem step_match {s t : Kvm} {event : KvmEvent F} {found : Except Exc (List OskRegion)}
    (hCommand : event.command = .matchTemplate found) (hStep : s.step event = some t) : t = s := by
  have hNothing : (event.command.requests.getD []) = [] := by
    rw [hCommand]
    cases found <;> rfl
  have hAim : event.command.aim = none := by
    rw [hCommand]
    rfl
  rcases hOutcome : event.outcome with e | _ | p
  · rw [Kvm.step_part hAim hOutcome, hNothing, List.take_nil, Kvm.touched_nil] at hStep
    exact (Option.some.inj hStep).symm
  · obtain ⟨requests, hRequests, rfl⟩ := step_plain_buttons hStep hOutcome
    rw [hRequests, Option.getD_some] at hNothing
    rw [hNothing, Kvm.touched_nil]
  · obtain ⟨command, outcome, pointer, located, made⟩ := event
    obtain rfl : command = _ := hCommand
    obtain rfl : outcome = _ := hOutcome
    cases hStep

/-- A match that fails raises out of the keyword. -/
theorem turns_match {found : Except Exc (List OskRegion)} :
    Turns before (call (.matchTemplate found) : Keyword F _) before := by
  intro Post n next s h hNext
  refine covers_callThen (fun position event u hShows _ hStep => ?_) fun e event u hShows _ hStep => ?_
  · obtain rfl := step_match (Prod.mk.inj hShows).1 hStep
    exact hNext n position u h
  · obtain rfl := step_match (Prod.mk.inj hShows).1 hStep
    exact ⟨before, h⟩

/-- A match whose error is caught: the keyword goes on with either outcome. -/
theorem turns_outcome {found : Except Exc (List OskRegion)} :
    Turns before (outcome (.matchTemplate found) : Keyword F _) before := by
  intro Post n next s h hNext result event u hShows _ hStep
  obtain rfl := step_match (Prod.mk.inj hShows).1 hStep
  exact hNext n result u h

end Keywords

/-! ### The keywords of the suite -/

/-- The images of the suite, less their extension. What they show is not modelled. -/
inductive FlutterTemplate where
  | anchorOptionTopLeft
  | anchorOptionBottomRight
  | dialogCustomPositioner
  | expectedSatellitePlacement
  | expectedWindowBeforeMove
  | expectedWindowAfterMove
  | expectedPopupPlacementSlide
  | expectedPopupPlacementFlip
  | expectedPopupPlacementResize
  | groupNewWindow
  | windowMain
  | windowRegular0Focused
  | windowFloatingRegular0Focused
  | windowFloatingRegular0NonFocused
  | windowDialogFocused
  | windowSatellite1
  | windowPopup1
  | windowTip1
  | zeroWindows
  deriving DecidableEq, Repr

/-- What the outside has to say to a test case. The answers go by the number of the match, so
that one image may be found now and not later. -/
structure FlutterAnswers where
  /-- The regions that the match with this number finds. -/
  found : FlutterTemplate → ℕ → Except Exc (List OskRegion)
  /-- How often five seconds let a keyword be tried. -/
  tries : ℕ → ℕ

namespace Flutter

open FlutterTemplate

section Suite

variable {F : Type} (delay : F) (a : FlutterAnswers)

/-- `VIDEO.Match`, whose regions the suite never reads. -/
def videoMatch (template : FlutterTemplate) : Keyword F Unit := do
  let n ← fresh
  let _ ← call (.matchTemplate (a.found template n))

/-- A keyword that goes to a point returns it. -/
def movePointerToPoint (p : Position) : Keyword F Position := do
  let position ← call (.move (.absolute (.point p)))
  return position.getD p

def walkPointerToPoint (p : Position) : Keyword F Position := do
  let position ← call (.walk (.absolute (.point p)) 16 delay)
  return position.getD p

/-- A keyword that goes to a template and returns, returns a position: the default below is
never taken, since a move without a position does not return. -/
def movePointerTo (template : FlutterTemplate) : Keyword F Position := do
  let n ← fresh
  let position ← call (.move (.absolute (.template (a.found template n))))
  return position.getD (0, 0)

def walkPointerTo (template : FlutterTemplate) : Keyword F Position := do
  let n ← fresh
  let position ← call (.walk (.absolute (.template (a.found template n))) 16 delay)
  return position.getD (0, 0)

def click : Keyword F Unit := do
  let _ ← call (.click "LEFT")

def press : Keyword F Unit := do
  let _ ← call (.press "LEFT")

def release : Keyword F Unit := do
  let _ ← call (.release "LEFT")

/-- `Wait Until Keyword Succeeds` around `Run Keyword And Expect Error`. The five seconds are a
number of tries. A match is a failed try, and so is any error but the expected one. -/
def expectAbsent (template : FlutterTemplate) : ℕ → Keyword F Unit
  | 0 => fail { cls := .dataError, text := "Keyword 'Run Keyword And Expect Error' failed after retrying for 5 seconds." }
  | tries + 1 => do
      let n ← fresh
      let outcome ← outcome (.matchTemplate (a.found template n))
      match outcome with
      | .error e => if e = { cls := .imageNotFoundError } then pure () else expectAbsent template tries
      | .ok _ => expectAbsent template tries

def waitUntilAbsent (template : FlutterTemplate) : Keyword F Unit := do
  let n ← fresh
  expectAbsent a template (a.tries n)

/-- `Close Focused Toplevel Window`, `Close Floating Toplevel Window` and `Close Dialog Window`,
which differ in the image of the title and in how far to its right the button is. -/
def closeWindow (template : FlutterTemplate) (offset : ℤ) : Keyword F Unit := do
  let _ ← movePointerToPoint (0, 0)
  let pos ← movePointerTo a template
  let _ ← movePointerToPoint (displace pos offset 0)
  click
  waitUntilAbsent a template

def closeFocusedToplevelWindow : Keyword F Unit := closeWindow a windowRegular0Focused 130

def closeFloatingToplevelWindow : Keyword F Unit := closeWindow a windowFloatingRegular0Focused 138

def closeDialogWindow : Keyword F Unit := closeWindow a windowDialogFocused 112

/-- How far the option of a preset is from the one that is selected, in options. -/
def presetOption (preset : String) : Keyword F ℤ :=
  if preset = "LEFT" then pure (-5)
  else if preset = "RIGHT" then pure (-4)
  else if preset = "BOTTOM_LEFT" then pure (-3)
  else if preset = "BOTTOM" then pure (-2)
  else if preset = "BOTTOM_RIGHT" then pure (-1)
  else if preset = "CENTER" then pure 0
  else if preset = "CUSTOM" then pure 1
  else fail { cls := .assertionError, text := s!"Unexpected preset: {preset}" }

/-- `Select ${preset} Positioner Preset`. The list is opened twice, the second time to choose the
option by its distance from the one that is then selected. -/
def selectPositionerPreset (preset : String) : Keyword F Unit := do
  let verticalDistanceBetweenOptions := 48
  let pos ← movePointerTo a groupNewWindow
  let pos := displace pos 0 390
  let _ ← walkPointerToPoint delay pos
  click
  let pos := displace pos 0 (-verticalDistanceBetweenOptions)
  let _ ← walkPointerToPoint delay pos
  click
  let pos ← movePointerTo a groupNewWindow
  let pos := displace pos 0 390
  let _ ← walkPointerToPoint delay pos
  click
  let option ← presetOption preset
  let _ ← walkPointerToPoint delay (displace pos 0 (verticalDistanceBetweenOptions * option))
  click

/-- The one drag whose end is a point of the output. That the window follows is not said. -/
def moveMainWindowToTheTopLeftOfTheOutput : Keyword F Unit := do
  let pos ← movePointerTo a groupNewWindow
  let _ ← walkPointerToPoint delay (displace pos 0 (-77))
  press
  let _ ← walkPointerToPoint delay (600, 0)
  release

/-- How far down the button of a window is, in buttons. -/
def windowButton (window : String) : Keyword F ℤ :=
  if window = "REGULAR" then pure 1
  else if window = "FLOATING_REGULAR" then pure 2
  else if window = "DIALOG" then pure 3
  else if window = "SATELLITE" then pure 4
  else if window = "POPUP" then pure 5
  else if window = "TIP" then pure 6
  else fail { cls := .assertionError, text := s!"Unexpected window: {window}" }

/-- `Open ${window} Window`: the buttons stand below the title of their group. -/
def openWindow (window : String) : Keyword F Unit := do
  let verticalDistanceBetweenOptions := 40
  let pos ← movePointerTo a groupNewWindow
  let button ← windowButton window
  let _ ← movePointerToPoint (displace pos 0 (verticalDistanceBetweenOptions * button))
  click

/-- Click next to a template. -/
def pressBeside (template : FlutterTemplate) (x y : ℤ) : Keyword F Unit := do
  let pos ← movePointerTo a template
  let _ ← movePointerToPoint (displace pos x y)
  click

def openCustomPositionerDialog : Keyword F Unit := pressBeside a groupNewWindow 0 450

def openParentAnchorDropdownList : Keyword F Unit := pressBeside a dialogCustomPositioner 0 75

def openChildAnchorDropdownList : Keyword F Unit := pressBeside a dialogCustomPositioner 0 170

def pressSetDefaultsButton : Keyword F Unit := pressBeside a dialogCustomPositioner (-55) 480

def pressApplyButton : Keyword F Unit := pressBeside a dialogCustomPositioner 60 480

/-- Walk to a template and click on it. -/
def clickOn (template : FlutterTemplate) : Keyword F Unit := do
  let _ ← walkPointerTo delay a template
  click

/-- Walk to a template, then next to it, and click there. -/
def clickBeside (template : FlutterTemplate) (x y : ℤ) : Keyword F Unit := do
  let pos ← walkPointerTo delay a template
  let _ ← walkPointerToPoint delay (displace pos x y)
  click

/-- `Set Top Left Custom Positioner`, which opens the dialog itself and applies it. -/
def setTopLeftCustomPositioner : Keyword F Unit := inOrder [
  openCustomPositionerDialog a,
  pressSetDefaultsButton a,
  openParentAnchorDropdownList a,
  clickOn delay a anchorOptionTopLeft,
  openChildAnchorDropdownList a,
  clickOn delay a anchorOptionBottomRight,
  pressApplyButton a]

/-- Drag a window by its title to a point. -/
def dragTo (template : FlutterTemplate) (target : Position) : Keyword F Unit := do
  let _ ← walkPointerTo delay a template
  press
  let _ ← walkPointerToPoint delay target
  release

/-! ### The test cases -/

/-- What follows the choice of the constraints: a popup is placed near the edge of the output. -/
def popupPlacement (target : Position) (expected : FlutterTemplate) : List (Keyword F Unit) := [
  moveMainWindowToTheTopLeftOfTheOutput delay a,
  openWindow a "FLOATING_REGULAR",
  dragTo delay a windowFloatingRegular0Focused target,
  openWindow a "POPUP",
  videoMatch a expected,
  closeFloatingToplevelWindow a]

/-- Check or uncheck some boxes of the custom positioner. -/
def changeConstraints (boxes : List (ℤ × ℤ)) : List (Keyword F Unit) :=
  [setTopLeftCustomPositioner delay a, openCustomPositionerDialog a] ++
    boxes.map (fun box => clickBeside delay a dialogCustomPositioner box.1 box.2) ++ [pressApplyButton a]

/-- The drag of `Child Windows Move With Parent`. -/
def dragParent : Keyword F Unit := do
  let pos ← walkPointerTo delay a windowFloatingRegular0Focused
  press
  videoMatch a expectedWindowBeforeMove
  let _ ← walkPointerToPoint delay (displace pos 50 25)
  release

end Suite

end Flutter

/-- The test cases, in the order of the file. -/
inductive FlutterCase where
  | referenceAppOpens
  | regularWindowOpens
  | floatingRegularWindowOpens
  | dialogWindowOpens
  | satelliteWindowOpens
  | popupWindowOpens
  | tipWindowOpens
  | floatingRegularWindowStaysOnTop
  | dialogIsModalToParent
  | satelliteIsPlacedAccordingToCustomPositioner
  | childWindowsMoveWithParent
  | slideConstraintIsApplied
  | flipConstraintIsApplied
  | resizeConstraintIsApplied
  | flipConstraintPrecedesSlide
  | slideConstraintPrecedesResize
  deriving DecidableEq, Repr

namespace Flutter

open FlutterTemplate

section Cases

variable {F : Type} (delay : F) (a : FlutterAnswers)

/-- The keywords of each test case as the file has them, those for the boxes and for the popup
grouped. A keyword that raises ends the case, and its teardown follows. -/
def steps : FlutterCase → List (Keyword F Unit)
  | .referenceAppOpens => [videoMatch a windowMain]
  | .regularWindowOpens =>
      [openWindow a "REGULAR", videoMatch a windowRegular0Focused, closeFocusedToplevelWindow a]
  | .floatingRegularWindowOpens =>
      [openWindow a "FLOATING_REGULAR", videoMatch a windowFloatingRegular0Focused, closeFloatingToplevelWindow a]
  | .dialogWindowOpens => [openWindow a "DIALOG", videoMatch a windowDialogFocused, closeDialogWindow a]
  | .satelliteWindowOpens =>
      [openWindow a "REGULAR", openWindow a "SATELLITE", clickOn delay a windowSatellite1, closeFocusedToplevelWindow a]
  | .popupWindowOpens =>
      [openWindow a "REGULAR", openWindow a "POPUP", clickOn delay a windowPopup1, closeFocusedToplevelWindow a]
  | .tipWindowOpens =>
      [openWindow a "REGULAR", openWindow a "TIP", clickOn delay a windowTip1, closeFocusedToplevelWindow a]
  | .floatingRegularWindowStaysOnTop =>
      [openWindow a "FLOATING_REGULAR", clickOn delay a groupNewWindow,
        clickOn delay a windowFloatingRegular0NonFocused, closeFloatingToplevelWindow a]
  | .dialogIsModalToParent =>
      [openWindow a "REGULAR", openWindow a "DIALOG", clickBeside delay a windowRegular0Focused 130 0,
        videoMatch a windowRegular0Focused, closeDialogWindow a, closeFocusedToplevelWindow a]
  | .satelliteIsPlacedAccordingToCustomPositioner =>
      [selectPositionerPreset delay a "CUSTOM", openWindow a "FLOATING_REGULAR", openWindow a "SATELLITE",
        videoMatch a expectedSatellitePlacement, closeFloatingToplevelWindow a]
  | .childWindowsMoveWithParent =>
      [openWindow a "FLOATING_REGULAR", selectPositionerPreset delay a "LEFT", openWindow a "SATELLITE",
        selectPositionerPreset delay a "BOTTOM_LEFT", openWindow a "POPUP", selectPositionerPreset delay a "BOTTOM",
        openWindow a "TIP", selectPositionerPreset delay a "CENTER", openWindow a "DIALOG", dragParent delay a,
        videoMatch a expectedWindowAfterMove, closeDialogWindow a, closeFloatingToplevelWindow a]
  | .slideConstraintIsApplied =>
      setTopLeftCustomPositioner delay a :: popupPlacement delay a (250, 90) expectedPopupPlacementSlide
  | .flipConstraintIsApplied =>
      changeConstraints delay a [(-5, 370), (70, 370), (-5, 410), (70, 410)] ++
        popupPlacement delay a (250, 90) expectedPopupPlacementFlip
  | .resizeConstraintIsApplied =>
      changeConstraints delay a [(-5, 370), (70, 370), (-5, 440), (70, 440)] ++
        popupPlacement delay a (250, 60) expectedPopupPlacementResize
  | .flipConstraintPrecedesSlide =>
      changeConstraints delay a [(-5, 410), (70, 410)] ++
        popupPlacement delay a (250, 90) expectedPopupPlacementFlip
  | .slideConstraintPrecedesResize =>
      changeConstraints delay a [(-5, 440), (70, 440)] ++
        popupPlacement delay a (250, 90) expectedPopupPlacementSlide

/-- A test case of `mir_flutter_app.robot`, and its teardown. -/
def test (case : FlutterCase) : KvmSuite F :=
  (inOrder (steps delay a case)).run.andFinally (videoMatch a zeroWindows).run

end Cases

/-! ### Each keyword leaves the left button up -/

section Turns

variable {F : Type} {delay : F} {a : FlutterAnswers} {before : Bool} {template : FlutterTemplate}

/-- Matching is no turn. The teardown, which is a match too, therefore changes nothing. -/
theorem turns_videoMatch : Turns before (videoMatch a template : Keyword F Unit) before :=
  turns_bind turns_fresh fun _ => turns_bind turns_match fun _ => turns_pure

theorem turns_movePointerToPoint (p : Position) : Turns before (movePointerToPoint p : Keyword F Position) before :=
  turns_bind (turns_aim rfl) fun _ => turns_pure

theorem turns_walkPointerToPoint (p : Position) : Turns before (walkPointerToPoint delay p) before :=
  turns_bind (turns_aim rfl) fun _ => turns_pure

theorem turns_movePointerTo : Turns before (movePointerTo a template : Keyword F Position) before :=
  turns_bind turns_fresh fun _ => turns_bind (turns_aim rfl) fun _ => turns_pure

theorem turns_walkPointerTo : Turns before (walkPointerTo delay a template) before :=
  turns_bind turns_fresh fun _ => turns_bind (turns_aim rfl) fun _ => turns_pure

theorem turns_clickLeft : Turns false (click : Keyword F Unit) false := turns_bind turns_click fun _ => turns_pure

theorem turns_pressLeft : Turns false (press : Keyword F Unit) true := turns_bind turns_press fun _ => turns_pure

theorem turns_releaseLeft : Turns true (release : Keyword F Unit) false := turns_bind turns_release fun _ => turns_pure

/-- However often the template is looked for, and also when the tries run out. By induction on
the tries that are left. -/
theorem turns_expectAbsent (tries : ℕ) : Turns before (expectAbsent a template tries : Keyword F Unit) before := by
  induction tries with
  | zero => exact turns_fail
  | succ tries ih =>
      refine turns_bind turns_fresh fun _ => turns_bind turns_outcome fun result => ?_
      cases result with
      | ok _ => exact ih
      | error e =>
          dsimp only
          split
          · exact turns_pure
          · exact ih

/-- The click is the only turn; what comes after it only looks. -/
theorem turns_closeWindow (offset : ℤ) : Turns false (closeWindow a template offset : Keyword F Unit) false := by
  refine turns_bind (turns_movePointerToPoint _) fun _ => turns_bind turns_movePointerTo fun _ => ?_
  refine turns_bind (turns_movePointerToPoint _) fun _ => turns_bind turns_clickLeft fun _ => ?_
  exact turns_bind turns_fresh fun _ => turns_expectAbsent _

/-- A preset that the keyword does not know raises before anything is pressed. -/
theorem turns_presetOption (preset : String) : Turns before (presetOption preset : Keyword F ℤ) before := by
  unfold presetOption
  repeat' split
  all_goals first | exact turns_pure | exact turns_fail

theorem turns_windowButton (window : String) : Turns before (windowButton window : Keyword F ℤ) before := by
  unfold windowButton
  repeat' split
  all_goals first | exact turns_pure | exact turns_fail

theorem turns_selectPositionerPreset (preset : String) : Turns false (selectPositionerPreset delay a preset) false := by
  refine turns_bind turns_movePointerTo fun _ => turns_bind (turns_walkPointerToPoint _) fun _ => ?_
  refine turns_bind turns_clickLeft fun _ => turns_bind (turns_walkPointerToPoint _) fun _ => ?_
  refine turns_bind turns_clickLeft fun _ => turns_bind turns_movePointerTo fun _ => ?_
  refine turns_bind (turns_walkPointerToPoint _) fun _ => turns_bind turns_clickLeft fun _ => ?_
  refine turns_bind (turns_presetOption preset) fun _ => ?_
  exact turns_bind (turns_walkPointerToPoint _) fun _ => turns_clickLeft

theorem turns_moveMainWindow : Turns false (moveMainWindowToTheTopLeftOfTheOutput delay a) false := by
  refine turns_bind turns_movePointerTo fun _ => turns_bind (turns_walkPointerToPoint _) fun _ => ?_
  exact turns_bind turns_pressLeft fun _ => turns_bind (turns_walkPointerToPoint _) fun _ => turns_releaseLeft

theorem turns_openWindow (window : String) : Turns false (openWindow a window : Keyword F Unit) false := by
  refine turns_bind turns_movePointerTo fun _ => turns_bind (turns_windowButton window) fun _ => ?_
  exact turns_bind (turns_movePointerToPoint _) fun _ => turns_clickLeft

theorem turns_pressBeside (x y : ℤ) : Turns false (pressBeside a template x y : Keyword F Unit) false :=
  turns_bind turns_movePointerTo fun _ => turns_bind (turns_movePointerToPoint _) fun _ => turns_clickLeft

theorem turns_clickOn : Turns false (clickOn delay a template) false :=
  turns_bind turns_walkPointerTo fun _ => turns_clickLeft

theorem turns_clickBeside (x y : ℤ) : Turns false (clickBeside delay a template x y) false :=
  turns_bind turns_walkPointerTo fun _ => turns_bind (turns_walkPointerToPoint _) fun _ => turns_clickLeft

/-- The button is down while the pointer walks. If the walk raises it stays down, and the case
fails in that state. -/
theorem turns_dragTo (target : Position) : Turns false (dragTo delay a template target) false := by
  refine turns_bind turns_walkPointerTo fun _ => turns_bind turns_pressLeft fun _ => ?_
  exact turns_bind (turns_walkPointerToPoint _) fun _ => turns_releaseLeft

/-- The match in the middle of the drag may fail with the button down. -/
theorem turns_dragParent : Turns false (dragParent delay a) false := by
  refine turns_bind turns_walkPointerTo fun _ => turns_bind turns_pressLeft fun _ => ?_
  refine turns_bind turns_videoMatch fun _ => ?_
  exact turns_bind (turns_walkPointerToPoint _) fun _ => turns_releaseLeft

/-- Each step of a test case starts and ends with the button up. -/
def Ordered (steps : List (Keyword F Unit)) : Prop := ∀ x ∈ steps, Turns false x false

theorem turns_inOrder {steps : List (Keyword F Unit)} (h : Ordered steps) : Turns false (inOrder steps) false :=
  leaves_inOrder h

theorem ordered_nil : Ordered ([] : List (Keyword F Unit)) := fun _ h => absurd h List.not_mem_nil

theorem ordered_cons {x : Keyword F Unit} {steps : List (Keyword F Unit)} (h : Turns false x false)
    (hRest : Ordered steps) : Ordered (x :: steps) :=
  List.forall_mem_cons.mpr ⟨h, hRest⟩

theorem ordered_append {steps later : List (Keyword F Unit)} (h : Ordered steps) (hLater : Ordered later) :
    Ordered (steps ++ later) :=
  List.forall_mem_append.mpr ⟨h, hLater⟩

theorem turns_setTopLeftCustomPositioner : Turns false (setTopLeftCustomPositioner delay a) false := by
  refine turns_inOrder (ordered_cons (turns_pressBeside _ _) (ordered_cons (turns_pressBeside _ _) ?_))
  refine ordered_cons (turns_pressBeside _ _) (ordered_cons turns_clickOn ?_)
  refine ordered_cons (turns_pressBeside _ _) (ordered_cons turns_clickOn ?_)
  exact ordered_cons (turns_pressBeside _ _) ordered_nil

theorem ordered_popupPlacement (target : Position) : Ordered (popupPlacement delay a target template) := by
  refine ordered_cons turns_moveMainWindow (ordered_cons (turns_openWindow _) ?_)
  refine ordered_cons (turns_dragTo target) (ordered_cons (turns_openWindow _) ?_)
  exact ordered_cons turns_videoMatch (ordered_cons (turns_closeWindow _) ordered_nil)

theorem ordered_changeConstraints (boxes : List (ℤ × ℤ)) : Ordered (changeConstraints delay a boxes) := by
  refine ordered_append (ordered_append ?_ ?_) (ordered_cons (turns_pressBeside _ _) ordered_nil)
  · exact ordered_cons turns_setTopLeftCustomPositioner (ordered_cons (turns_pressBeside _ _) ordered_nil)
  · intro x hx
    obtain ⟨box, -, rfl⟩ := List.mem_map.mp hx
    exact turns_clickBeside _ _

/-- All sixteen cases by their keywords: no case is run here, and what a window does with a click
is not looked at. -/
theorem ordered_steps (case : FlutterCase) : Ordered (steps delay a case) := by
  have hOpen (window : String) : Turns false (openWindow a window : Keyword F Unit) false := turns_openWindow window
  have hClose (template : FlutterTemplate) (offset : ℤ) :
      Turns false (closeWindow a template offset : Keyword F Unit) false := turns_closeWindow offset
  cases case with
  | referenceAppOpens => exact ordered_cons turns_videoMatch ordered_nil
  | regularWindowOpens | floatingRegularWindowOpens | dialogWindowOpens =>
      exact ordered_cons (hOpen _) (ordered_cons turns_videoMatch (ordered_cons (hClose _ _) ordered_nil))
  | satelliteWindowOpens | popupWindowOpens | tipWindowOpens =>
      refine ordered_cons (hOpen _) (ordered_cons (hOpen _) (ordered_cons turns_clickOn ?_))
      exact ordered_cons (hClose _ _) ordered_nil
  | floatingRegularWindowStaysOnTop =>
      refine ordered_cons (hOpen _) (ordered_cons turns_clickOn (ordered_cons turns_clickOn ?_))
      exact ordered_cons (hClose _ _) ordered_nil
  | dialogIsModalToParent =>
      refine ordered_cons (hOpen _) (ordered_cons (hOpen _) (ordered_cons (turns_clickBeside _ _) ?_))
      exact ordered_cons turns_videoMatch (ordered_cons (hClose _ _) (ordered_cons (hClose _ _) ordered_nil))
  | satelliteIsPlacedAccordingToCustomPositioner =>
      refine ordered_cons (turns_selectPositionerPreset _) (ordered_cons (hOpen _) (ordered_cons (hOpen _) ?_))
      exact ordered_cons turns_videoMatch (ordered_cons (hClose _ _) ordered_nil)
  | childWindowsMoveWithParent =>
      refine ordered_cons (hOpen _) (ordered_cons (turns_selectPositionerPreset _) (ordered_cons (hOpen _) ?_))
      refine ordered_cons (turns_selectPositionerPreset _) (ordered_cons (hOpen _) ?_)
      refine ordered_cons (turns_selectPositionerPreset _) (ordered_cons (hOpen _) ?_)
      refine ordered_cons (turns_selectPositionerPreset _) (ordered_cons (hOpen _) (ordered_cons turns_dragParent ?_))
      exact ordered_cons turns_videoMatch (ordered_cons (hClose _ _) (ordered_cons (hClose _ _) ordered_nil))
  | slideConstraintIsApplied => exact ordered_cons turns_setTopLeftCustomPositioner (ordered_popupPlacement _)
  | flipConstraintIsApplied | resizeConstraintIsApplied | flipConstraintPrecedesSlide | slideConstraintPrecedesResize =>
      exact ordered_append (ordered_changeConstraints _) (ordered_popupPlacement _)

/-- The teardown runs from the button up when the steps pass, and from either state when they do
not; it keeps both. -/
theorem covers_test (case : FlutterCase) :
    KvmCovers (Kvm.Left false) Kvm.Orderly (test delay a case) {} := by
  have hSteps : KvmCovers (Kvm.Left false) Kvm.Orderly (inOrder (steps delay a case)).run {} :=
    (turns_inOrder (ordered_steps case)).covers (fun _ _ h => h) LeftOnly.nil
  refine covers_andFinally hSteps (fun u hUp => ?_) fun u hAny => ?_
  · exact turns_videoMatch.covers (fun _ _ h => h) hUp
  · obtain ⟨down, hDown⟩ := hAny
    exact turns_videoMatch.covers (fun _ _ h => ⟨down, h⟩) hDown

end Turns

/-- Whatever the server answers, the templates match and the clock allows: a test case of `mir_flutter_app.robot`
presses the left button only when it is up, lets go of it only when it is down, and uses no other; when it
passes the button is up. -/
theorem flutter_on_wire {sqrt : Double → Double} (hSqrt : Rooted sqrt) (answers : ℕ → Answers Double) (delay : Double)
    (a : FlutterAnswers) (case : FlutterCase) {c : Self Double}
    (hNew : c.attributes.extra = none ∧ c.attributes.sent = []) :
    Triple (· = ⟨c, []⟩) ((test delay a case).exec fun n => KvmCommand.run (doubles sqrt) (answers n))
      (fun _ w => LeftOnly (seat w.state.attributes.sent).presses false)
      fun w => ∃ down, LeftOnly (seat w.state.attributes.sent).presses down := by
  have hStart : Kvm.Of c {} := ⟨hNew.1, by rw [hNew.2]; rfl⟩
  refine ((covers_test case).exec (contract_run hSqrt answers) hStart).mono (fun _ w h => ?_) fun w h => ?_
  · obtain ⟨s, hOf, hUp⟩ := h
    rw [hOf.2]
    exact hUp
  · obtain ⟨s, hOf, down, hDown⟩ := h
    rw [hOf.2]
    exact ⟨down, hDown⟩

/-- Everything is near the corner of the output, and the dialog is gone when it was closed. -/
def cornerAnswers : FlutterAnswers where
  found _ n := if n = 4 then .error { cls := .imageNotFoundError } else .ok [smallOsk]
  tries _ := 1

def runDialogWindowOpens : EStateM.Result Exc (Logged (KvmCommand Double) Exc (Option Position) (Self Double)) Unit :=
  ((test (Double.round 0) cornerAnswers .dialogWindowOpens).exec fun _ =>
    KvmCommand.run (doubles wholeSqrt) quietAnswers).run ⟨vga, []⟩

theorem flutter_on_wire_dialog : ∃ w, runDialogWindowOpens = .ok () w ∧
    LeftOnly (seat w.state.attributes.sent).presses false ∧
      (seat w.state.attributes.sent).presses = stroke (70, 170) ++ stroke (182, 50) := by
  have hTriple := flutter_on_wire rooted_wholeSqrt (fun _ => quietAnswers) (Double.round 0) cornerAnswers
    .dialogWindowOpens (c := vga) ⟨rfl, rfl⟩
  have hReturns : raised runDialogWindowOpens = none := by decide +kernel
  have hPresses : (seat (state runDialogWindowOpens).state.attributes.sent).presses =
      stroke (70, 170) ++ stroke (182, 50) := by decide +kernel
  cases hRun : runDialogWindowOpens with
  | ok _ w =>
      rw [hRun] at hPresses
      exact ⟨w, rfl, hTriple.of_ok rfl hRun, hPresses⟩
  | error e w =>
      rw [hRun] at hReturns
      cases hReturns

end Flutter

end MirCi.Robot
