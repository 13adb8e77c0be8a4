import MirCi.Robot.KvmSuite

/-! Rules for suites of the keywords of `kvm.resource` that catch nothing, and the test cases of
`drag_and_drop.robot` as such suites. -/
namespace MirCi.Robot

open Python Semantics Effect Interaction Wayland Wayland.VirtualPointer WaylandHid

section Rules

variable {F : Type} {Post Stop : Kvm → Prop} {next : Option Position → KvmSuite F} {s : Kvm} {command : KvmCommand F}

variable (Post Stop) in
abbrev KvmCovers : KvmSuite F → Kvm → Prop := Covers Kvm.step Any KvmEvent.call Post Stop

/-- The client and the compositor agree on where the pointer is. -/
def Kvm.aligned (p : Position) (presses : List Press) : Kvm := ⟨some p, ⟨some p, presses⟩⟩

theorem covers_walk {q : Position} {stepDistance : ℤ} {delay : F} (hTracked : s.tracked = s.seat.pointer)
    (hPixels : Pixels q) (hNext : KvmCovers Post Stop (next (some q)) (.aligned q s.seat.presses))
    (hStop : ∀ u : Kvm, u.seat.presses = s.seat.presses → Stop u) :
    KvmCovers Post Stop (callThen (.walk (.absolute (.point q)) stepDistance delay) next) s := by
  refine covers_callThen (fun position event u hShows _ hStep => ?_) fun e event u hShows _ hStep => hStop u ?_
  · obtain ⟨command, outcome, pointer, located, made⟩ := event
    obtain ⟨rfl, rfl⟩ := Prod.mk.inj hShows
    cases position with
    | none => cases hStep
    | some p =>
        have hAllows : (Except.ok q : Except Exc Position) = .ok p := (Option.ite_none_right_eq_some.mp hStep).1
        obtain rfl := Except.ok.inj hAllows
        rw [step_plain_pointer (p := q) hStep (decide_eq_true hPixels) rfl hTracked]
        exact hNext
  · obtain ⟨command, outcome, pointer, located, made⟩ := event
    obtain ⟨rfl, rfl⟩ := Prod.mk.inj hShows
    rw [← Option.some.inj hStep]
    split <;> rfl

/-- A keyword that goes nowhere: it asks for its buttons where the pointer is. -/
theorem covers_touch (hAim : command.aim = none)
    (hNext : ∀ requests, command.requests = some requests → KvmCovers Post Stop (next none) (s.touched requests))
    (hStop : ∀ n, Stop (s.touched ((command.requests.getD []).take n))) :
    KvmCovers Post Stop (callThen command next) s := by
  refine covers_callThen (fun position event u hShows _ hStep => ?_) fun e event u hShows _ hStep => ?_
  · obtain ⟨command, outcome, pointer, located, made⟩ := event
    obtain ⟨rfl, rfl⟩ := Prod.mk.inj hShows
    cases position with
    | none =>
        obtain ⟨requests, hRequests, rfl⟩ := step_plain_buttons hStep rfl
        exact hNext requests hRequests
    | some p =>
        cases command with
        | move _ | walk _ _ _ => cases hAim
        | _ => cases hStep
  · obtain ⟨command, outcome, pointer, located, made⟩ := event
    obtain ⟨rfl, rfl⟩ := Prod.mk.inj hShows
    rw [Kvm.step_part hAim rfl] at hStep
    obtain rfl := Option.some.inj hStep
    exact hStop made

theorem covers_match {found : Except Exc (List OskRegion)} (hNext : KvmCovers Post Stop (next none) s) (hStop : Stop s) :
    KvmCovers Post Stop (callThen (.matchTemplate found) next) s := by
  have hNothing : (KvmCommand.matchTemplate found : KvmCommand F).requests.getD [] = [] := by
    cases found <;> rfl
  refine covers_touch rfl (fun requests hRequests => ?_) fun n => ?_
  · rw [hRequests, Option.getD_some] at hNothing
    rwa [hNothing, Kvm.touched_nil]
  · rwa [hNothing, List.take_nil, Kvm.touched_nil]

section Pressing

variable {full presses : List Press} {p : Position}

/-- Of a test case whose presses are known in advance: where it stops, it has made the first of them. -/
theorem covers_walk_pressing {q : Position} {stepDistance : ℤ} {delay : F} (hTracked : s.tracked = s.seat.pointer)
    (hPixels : Pixels q) (hPart : s.seat.presses <+: full)
    (hNext : KvmCovers Post (·.seat.presses <+: full) (next (some q)) (.aligned q s.seat.presses)) :
    KvmCovers Post (·.seat.presses <+: full) (callThen (.walk (.absolute (.point q)) stepDistance delay) next) s :=
  covers_walk hTracked hPixels hNext fun _ hSame => hSame ▸ hPart

theorem covers_touch_pressing {requests : List (Button × Bool)} (hRequests : command.requests = some requests)
    (hPart : presses ++ touches (some p) requests <+: full)
    (hNext : KvmCovers Post (·.seat.presses <+: full) (next none) (.aligned p (presses ++ touches (some p) requests))) :
    KvmCovers Post (·.seat.presses <+: full) (callThen command next) (.aligned p presses) := by
  refine covers_touch (aim_of_requests hRequests) (fun other hOther => ?_) fun n => ?_
  · obtain rfl := Option.some.inj (hRequests.symm.trans hOther)
    exact hNext
  · rw [hRequests, Option.getD_some]
    refine List.IsPrefix.trans ?_ hPart
    exact (List.prefix_append_right_inj presses).mpr ((List.take_prefix n requests).map _)

end Pressing

end Rules

/-! ### The test cases -/

/-- The suite variables, as `Suite Setup` sets them from the centres of three matches. -/
structure DndVariables where
  srcBoth : Position
  item : Position
  target : Position

namespace DndVariables

variable (v : DndVariables)

def srcImages : Position := displace v.srcBoth (-137) 0

def srcText : Position := displace v.srcBoth (-64) 0

def dstImages : Position := displace v.srcBoth 85 0

def dstText : Position := displace v.srcBoth 156 0

def points : List Position := [v.srcImages, v.srcText, v.srcBoth, v.dstImages, v.dstText, v.item, v.target]

end DndVariables

inductive DndCase where
  | imageToText
  | bothToText
  | textToText
  | imageToImage
  | textToImage
  | bothToImage
  deriving DecidableEq, Repr

namespace DndCase

variable (v : DndVariables)

/-- The button of the source side that the test clicks. -/
def source : DndCase → Position
  | .imageToText | .imageToImage => v.srcImages
  | .bothToText | .bothToImage => v.srcBoth
  | .textToText | .textToImage => v.srcText

/-- The button of the drop side. -/
def destination : DndCase → Position
  | .imageToText | .bothToText | .textToText => v.dstText
  | .imageToImage | .textToImage | .bothToImage => v.dstImages

/-- Over the target the test looks for the sign that the drop will copy. -/
def copies : DndCase → Bool
  | .imageToText | .bothToText => false
  | _ => true

theorem source_mem (case : DndCase) : case.source v ∈ v.points := by
  cases case <;> simp [source, DndVariables.points]

theorem destination_mem (case : DndCase) : case.destination v ∈ v.points := by
  cases case <;> simp [destination, DndVariables.points]

/-- A click on either button, the press on the item, and all buttons let go on the target. -/
def presses (case : DndCase) : List Press :=
  stroke (case.source v) ++ stroke (case.destination v) ++ touches (some v.item) [(.left, true)] ++
    touches (some v.target) (Button.all.map (·, false))

end DndCase

section DragAndDrop

variable {F : Type} (delay : F) (v : DndVariables) (case : DndCase) (action received : Except Exc (List OskRegion))

def drop : KvmSuite F :=
  callThen .releaseButtons fun _ =>
  callThen (.matchTemplate received) fun _ =>
  .done

/-- A test case of `drag_and_drop.robot`. -/
def dragAndDrop : KvmSuite F :=
  callThen (.walk (.absolute (.point (case.source v))) 16 delay) fun _ =>
  callThen (.click "LEFT") fun _ =>
  callThen (.walk (.absolute (.point (case.destination v))) 16 delay) fun _ =>
  callThen (.click "LEFT") fun _ =>
  callThen (.walk (.absolute (.point v.item)) 16 delay) fun _ =>
  callThen (.press "LEFT") fun _ =>
  callThen (.walk (.absolute (.point v.target)) 16 delay) fun _ =>
  if case.copies then callThen (.matchTemplate action) fun _ => drop received else drop received

variable {v} in
theorem covers_dragAndDrop (hScreen : ∀ p ∈ v.points, Pixels p) :
    KvmCovers (·.seat.presses = case.presses v) (·.seat.presses <+: case.presses v)
      (dragAndDrop delay v case action received) {} := by
  have hItem : Pixels v.item := hScreen _ (by simp [DndVariables.points])
  have hTarget : Pixels v.target := hScreen _ (by simp [DndVariables.points])
  have hDrop : KvmCovers (·.seat.presses = case.presses v) (·.seat.presses <+: case.presses v)
      (drop received : KvmSuite F) (.aligned v.target (stroke (case.source v) ++ stroke (case.destination v) ++
        touches (some v.item) [(.left, true)])) := by
    refine covers_touch_pressing rfl (List.prefix_refl _) ?_
    exact covers_match rfl (List.prefix_refl _)
  refine covers_walk_pressing rfl (hScreen _ (case.source_mem v)) List.nil_prefix ?_
  refine covers_touch_pressing rfl ⟨_, rfl⟩ ?_
  refine covers_walk_pressing rfl (hScreen _ (case.destination_mem v)) ⟨_, rfl⟩ ?_
  refine covers_touch_pressing rfl ⟨_, rfl⟩ ?_
  refine covers_walk_pressing rfl hItem ⟨_, rfl⟩ ?_
  refine covers_touch_pressing rfl ⟨_, rfl⟩ ?_
  refine covers_walk_pressing rfl hTarget ⟨_, rfl⟩ ?_
  split
  · exact covers_match hDrop ⟨_, rfl⟩
  · exact hDrop

/-- Whatever the server answers and the templates match: a test case that passes has clicked the two buttons of its
case, pressed on the item and let go of all buttons on the target, and one that fails has got a part of the way. -/
theorem drag_and_drop_on_wire {sqrt : Double → Double} (hSqrt : Rooted sqrt) (answers : ℕ → Answers Double)
    (delay : Double) {v : DndVariables} (hScreen : ∀ p ∈ v.points, Pixels p) (case : DndCase)
    (action received : Except Exc (List OskRegion)) {c : Self Double}
    (hNew : c.attributes.extra = none ∧ c.attributes.sent = []) :
    Triple (· = ⟨c, []⟩)
      ((dragAndDrop delay v case action received).exec fun n => KvmCommand.run (doubles sqrt) (answers n))
      (fun _ w => (seat w.state.attributes.sent).presses = case.presses v)
      fun w => (seat w.state.attributes.sent).presses <+: case.presses v := by
  have hStart : Kvm.Of c {} := ⟨hNew.1, by rw [hNew.2]; rfl⟩
  refine ((covers_dragAndDrop delay case action received hScreen).exec (contract_run hSqrt answers) hStart).mono
    (fun _ w h => ?_) fun w h => ?_
  · obtain ⟨s, hOf, hPresses⟩ := h
    rw [hOf.2]
    exact hPresses
  · obtain ⟨s, hOf, hPresses⟩ := h
    rw [hOf.2]
    exact hPresses

/-- Buttons and targets at the top of the small output. -/
def smallDnd : DndVariables := ⟨(137, 0), (222, 16), (222, 32)⟩

def runImageToImage : EStateM.Result Exc (Logged (KvmCommand Double) Exc (Option Position) (Self Double)) Unit :=
  ((dragAndDrop (Double.round 0) smallDnd .imageToImage (.ok [smallOsk]) (.ok [smallOsk])).exec fun _ =>
    KvmCommand.run (doubles wholeSqrt) quietAnswers).run ⟨vga, []⟩

theorem drag_and_drop_on_wire_images : ∃ w, runImageToImage = .ok () w ∧
    (seat w.state.attributes.sent).presses = DndCase.imageToImage.presses smallDnd := by
  have hScreen : ∀ p ∈ smallDnd.points, Pixels p := by decide
  have hTriple := drag_and_drop_on_wire rooted_wholeSqrt (fun _ => quietAnswers) (Double.round 0) hScreen .imageToImage
    (.ok [smallOsk]) (.ok [smallOsk]) (c := vga) ⟨rfl, rfl⟩
  have hReturns : raised runImageToImage = none := by decide +kernel
  cases hRun : runImageToImage with
  | ok _ w => exact ⟨w, rfl, hTriple.of_ok rfl hRun⟩
  | error e w =>
      rw [hRun] at hReturns
      cases hReturns

end DragAndDrop

end MirCi.Robot
