import Mathlib.Tactic

/-! The drag-and-drop client: the radio buttons of its two sides, the handlers that are
connected to them, and what a drop delivers. A click on an inactive button toggles the
button that was active and then the one that is clicked. -/
namespace MirCi.Tests.DragAndDrop

/-- `TARGET_ENTRY_TEXT` and `TARGET_ENTRY_PIXBUF`. -/
inductive TargetEntry where
  | text
  | pixbuf
  deriving DecidableEq, Repr

abbrev TargetList := List TargetEntry

def textTargets : TargetList := [.text]

def imageTargets : TargetList := [.pixbuf]

/-- The list of `set_both_targets`. -/
def bothTargets : TargetList := [.pixbuf, .text]

inductive SourceButton where
  | images
  | text
  | both
  deriving DecidableEq, Repr

inductive DropButton where
  | images
  | text
  deriving DecidableEq, Repr

/-- `connect("toggled", ...)` in `DragSourceIconView.buttons`, by the list that the handler sets. -/
def sourceConnections : List (SourceButton × TargetList) :=
  [(.images, imageTargets), (.text, textTargets), (.text, bothTargets)]

/-- `connect("toggled", ...)` in `DropArea.buttons`. -/
def dropConnections : List (DropButton × TargetList) := [(.images, imageTargets), (.text, textTargets)]

/-- A group of radio buttons and the target list that their handlers set. -/
structure Side (B : Type) where
  active : B
  targets : TargetList
  deriving DecidableEq

section Side

variable {B : Type} [DecidableEq B]

/-- The signal `toggled` of a button. -/
def toggled (connections : List (B × TargetList)) (button : B) (targets : TargetList) : TargetList :=
  (connections.filter fun connection => connection.1 = button).foldl (fun _ connection => connection.2) targets

def Side.click (connections : List (B × TargetList)) (s : Side B) (button : B) : Side B :=
  if button = s.active then s
  else { active := button, targets := toggled connections button (toggled connections s.active s.targets) }

end Side

/-- The client when both sides have their buttons. -/
structure Demo where
  source : Side SourceButton := { active := .images, targets := imageTargets }
  drop : Side DropButton := { active := .images, targets := imageTargets }
  deriving DecidableEq

inductive Click where
  | source (button : SourceButton)
  | drop (button : DropButton)
  deriving DecidableEq

def Demo.click (s : Demo) : Click → Demo
  | .source button => { s with source := s.source.click sourceConnections button }
  | .drop button => { s with drop := s.drop.click dropConnections button }

def after (clicks : List Click) : Demo := clicks.foldl Demo.click {}

inductive ExchangeType where
  | text
  | pixbuf
  deriving DecidableEq, Repr

/-- `on_drag_data_get`: what the source puts into the data. -/
def onDragDataGet : TargetEntry → ExchangeType
  | .text => .text
  | .pixbuf => .pixbuf

/-- `on_drag_data_received`: what the drop area takes out of it. -/
def onDragDataReceived : TargetEntry → ExchangeType
  | .text => .text
  | .pixbuf => .pixbuf

/-- The first target of the source that the drop area accepts decides what is sent and received. -/
def Demo.dropped (s : Demo) : Option (ExchangeType × ExchangeType) :=
  (s.source.targets.find? fun info => info ∈ s.drop.targets).map fun info =>
    (onDragDataGet info, onDragDataReceived info)

/-! ### What the buttons say -/

def SourceButton.targets : SourceButton → TargetList
  | .images => imageTargets
  | .text => textTargets
  | .both => bothTargets

def DropButton.targets : DropButton → TargetList
  | .images => imageTargets
  | .text => textTargets

/-- The target lists are those of the active buttons, and a drop delivers what both sides have. -/
structure OffersSelected (s : Demo) : Prop where
  source : s.source.targets = s.source.active.targets
  drop : s.drop.targets = s.drop.active.targets
  text : s.dropped = some (.text, .text) ↔
    (s.source.active = .text ∨ s.source.active = .both) ∧ s.drop.active = .text
  pixbuf : s.dropped = some (.pixbuf, .pixbuf) ↔
    (s.source.active = .images ∨ s.source.active = .both) ∧ s.drop.active = .images

/-- What a click adds to the selections on the source side. -/
def select (selected : List SourceButton) : Click → List SourceButton
  | .source button => if selected.head? = some button then selected else button :: selected
  | .drop _ => selected

/-- The buttons of the source that were selected, last one first. -/
def selections (clicks : List Click) : List SourceButton := clicks.foldl select [.images]

/-- Images is selected, or Both directly after Text. -/
def Honoured : List SourceButton → Prop
  | .images :: _ | .both :: .text :: _ => True
  | _ => False

/-- The target list by the selections: the handlers of Text leave both targets, and those of Both
what was there. -/
def targetsOf : List SourceButton → TargetList
  | .images :: _ => imageTargets
  | .text :: _ => bothTargets
  | .both :: earlier => targetsOf earlier
  | [] => imageTargets

/-- Selections: at first Images, then every time another button. -/
inductive Selected : List SourceButton → Prop where
  | start : Selected [.images]
  | select {button last : SourceButton} {earlier : List SourceButton} (prior : Selected (last :: earlier))
      (other : button ≠ last) : Selected (button :: last :: earlier)

/-- The client by the selections so far. -/
structure Tracks (s : Demo) (selected : List SourceButton) : Prop where
  chosen : Selected selected
  active : selected.head? = some s.source.active
  source : s.source.targets = targetsOf selected
  drop : s.drop.targets = s.drop.active.targets

section Clicks

variable {s : Demo} {selected : List SourceButton}

/-- The button that is clicked last decides what the drop area accepts. -/
theorem drop_click (h : s.drop.targets = s.drop.active.targets) (button : DropButton) :
    (s.drop.click dropConnections button).targets = (s.drop.click dropConnections button).active.targets := by
  rw [Side.click]
  split
  · exact h
  · cases button <;> rfl

/-- The handlers of the button before come first. -/
theorem source_toggled {last button : SourceButton} (earlier : List SourceButton) (hOther : button ≠ last) :
    toggled sourceConnections button (toggled sourceConnections last (targetsOf (last :: earlier))) =
      targetsOf (button :: last :: earlier) := by
  cases button with
  | images => rfl
  | text => rfl
  | both =>
      cases last with
      | images => rfl
      | text => rfl
      | both => exact absurd rfl hOther

theorem Tracks.click (h : Tracks s selected) (click : Click) : Tracks (s.click click) (select selected click) := by
  cases click with
  | drop button => exact ⟨h.chosen, h.active, h.source, drop_click h.drop button⟩
  | source button =>
      obtain ⟨last, earlier, rfl⟩ : ∃ last earlier, selected = last :: earlier := by
        cases h.chosen with
        | start => exact ⟨_, _, rfl⟩
        | select prior other => exact ⟨_, _, rfl⟩
      have hLast : last = s.source.active := Option.some.inj h.active
      by_cases hSame : button = last
      · have hStays : s.click (.source button) = s := by
          rw [Demo.click, Side.click, if_pos (hSame.trans hLast)]
        rw [hStays, select, List.head?_cons, if_pos (congrArg some hSame.symm)]
        exact h
      · have hMoves : s.click (.source button) =
            { s with source := ⟨button, targetsOf (button :: last :: earlier)⟩ } := by
          rw [Demo.click, Side.click, if_neg (fun hEq => hSame (hEq.trans hLast.symm)), ← hLast, h.source,
            source_toggled earlier hSame]
        rw [hMoves, select, List.head?_cons, if_neg (fun hEq => hSame (Option.some.inj hEq).symm)]
        exact ⟨.select h.chosen hSame, rfl, rfl, h.drop⟩

theorem tracks_after (clicks : List Click) : Tracks (after clicks) (selections clicks) := by
  induction clicks using List.reverseRecOn with
  | nil => exact ⟨.start, rfl, rfl, rfl⟩
  | append_singleton clicks click ih =>
      rw [after, selections, List.foldl_concat, List.foldl_concat]
      exact ih.click click

end Clicks

/-- With the right lists a drop delivers what both sides have. -/
theorem offersSelected_of_targets {s : Demo} (hSource : s.source.targets = s.source.active.targets)
    (hDrop : s.drop.targets = s.drop.active.targets) : OffersSelected s := by
  obtain ⟨⟨active, targets⟩, ⟨dropActive, dropTargets⟩⟩ := s
  dsimp only at hSource hDrop
  subst hSource hDrop
  refine ⟨rfl, rfl, ?_, ?_⟩ <;> cases active <;> cases dropActive <;> decide

/-- The client offers what is selected just when Images is, or Both directly after Text. -/
theorem offersSelected_iff {s : Demo} {selected : List SourceButton} (h : Tracks s selected) :
    OffersSelected s ↔ Honoured selected := by
  have hSource : OffersSelected s ↔ s.source.targets = s.source.active.targets :=
    ⟨fun hOffers => hOffers.source, fun hTargets => offersSelected_of_targets hTargets h.drop⟩
  have hActive := h.active
  rw [hSource, h.source]
  cases h.chosen with
  | start =>
      rw [← Option.some.inj hActive]
      exact iff_of_true rfl trivial
  | @select button last earlier prior other =>
      rw [← Option.some.inj hActive]
      cases button with
      | images => exact iff_of_true rfl trivial
      | text => exact iff_of_false (show bothTargets ≠ textTargets by decide) id
      | both =>
          cases last with
          | images => exact iff_of_false (show imageTargets ≠ bothTargets by decide) id
          | text => exact iff_of_true rfl trivial
          | both => exact absurd rfl other

/-- A run in which Text and Both are never clicked stays at Images. -/
theorem selections_of_images {clicks : List Click} (h : ∀ button, .source button ∈ clicks → button = .images) :
    selections clicks = [.images] := by
  induction clicks using List.reverseRecOn with
  | nil => rfl
  | append_singleton clicks click ih =>
      have hBefore := ih fun button hButton => h button (List.mem_append_left _ hButton)
      rw [selections, List.foldl_concat]
      change select (selections clicks) click = _
      rw [hBefore]
      cases click with
      | drop button => rfl
      | source button =>
          rw [h button (List.mem_append_right _ (List.mem_singleton_self _))]
          rfl

/-- After any clicks the client offers what is selected just when Images is selected, or Both directly
after Text; so it does all along just when neither Text nor Both is ever clicked. -/
theorem offers_selected_iff (clicks : List Click) :
    (OffersSelected (after clicks) ↔ Honoured (selections clicks)) ∧
      ((∀ done, done <+: clicks → OffersSelected (after done)) ↔
        ∀ button, .source button ∈ clicks → button = .images) := by
  have hPoint : ∀ done, OffersSelected (after done) ↔ Honoured (selections done) := fun done =>
    offersSelected_iff (tracks_after done)
  refine ⟨hPoint clicks, ?_, ?_⟩
  · intro hAll
    induction clicks using List.reverseRecOn with
    | nil => simp
    | append_singleton clicks click ih =>
        have hBefore := ih fun done hDone => hAll done (hDone.trans (List.prefix_append _ _))
        have hNow := (hPoint _).mp (hAll _ List.prefix_rfl)
        rw [selections, List.foldl_concat] at hNow
        change Honoured (select (selections clicks) click) at hNow
        rw [selections_of_images hBefore] at hNow
        intro button hButton
        rcases List.mem_append.mp hButton with hButton | hButton
        · exact hBefore button hButton
        · rw [← List.mem_singleton.mp hButton] at hNow
          cases button with
          | images => rfl
          | text => exact hNow.elim
          | both => exact hNow.elim
  · intro hImages done hDone
    rw [hPoint, selections_of_images fun button hButton => hImages button (hDone.subset hButton)]
    trivial

/-- With Both selected on the source side, Text on the other, nothing is delivered. -/
theorem both_delivers_nothing : (after [.source .both, .drop .text]).source.active = .both ∧
    (after [.source .both, .drop .text]).drop.active = .text ∧
    (after [.source .both, .drop .text]).dropped = none := by decide

end MirCi.Tests.DragAndDrop
