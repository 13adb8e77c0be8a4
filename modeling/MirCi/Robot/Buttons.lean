import MirCi.Robot.Vnc
import MirCi.Robot.WaylandHid

/-! The button keywords of `kvm.resource` with either library as `HID`, and the
buttons a server takes to be held. -/
namespace MirCi.Robot

open Python Semantics Effect Wayland VirtualPointer

variable {F σ : Type}

/-- What a suite passes as `${button}`. -/
def Button.name : Button → String
  | .left => "LEFT"
  | .right => "RIGHT"
  | .middle => "MIDDLE"

theorem named_name (b : Button) : Button.named b.name = .ok b := by
  cases b <;> decide +kernel

/-- The button keywords of `kvm.resource`. -/
inductive ButtonKeyword where
  | press (b : Button)
  | release (b : Button)
  | click (b : Button)
  | releaseButtons
  deriving DecidableEq, Repr

/-- The keyword of `HID` each of them calls, with its arguments. -/
def ButtonKeyword.hid : ButtonKeyword → String × List String
  | .press b => ("Press Pointer Button", [b.name])
  | .release b => ("Release Pointer Button", [b.name])
  | .click b => ("Click Pointer Button", [b.name])
  | .releaseButtons => ("Release Pointer Buttons", [])

/-- Names of keywords are compared without case, spaces and underscores. -/
def normalize (name : String) : List Char :=
  (name.toList.filter fun c => c ≠ ' ' ∧ c ≠ '_').map Char.toLower

/-- A keyword of a library, under the name of its method. -/
structure LibraryKeyword (σ : Type) where
  method : String
  run : List String → Method σ Unit

/-- A keyword of one argument. -/
def takesButton (run : String → Method σ Unit) : List String → Method σ Unit
  | [button] => run button
  | arguments => throw { cls := .dataError, text := s!"expected 1 argument, got {arguments.length}." }

/-- A keyword without arguments. -/
def takesNothing (run : Method σ Unit) : List String → Method σ Unit
  | [] => run
  | arguments => throw { cls := .dataError, text := s!"expected 0 arguments, got {arguments.length}." }

/-- What calling a keyword that does not exist raises. -/
def noKeyword (name : String) : Exc where
  cls := .dataError
  text := s!"No keyword with name 'HID.{name}' found."

def runKeyword (library : List (LibraryKeyword σ)) (k : String × List String) : Method σ Unit :=
  match library.find? fun offered => normalize offered.method = normalize k.1 with
  | some offered => offered.run k.2
  | none => throw (noKeyword k.1)

/-- The methods decorated as keywords that have to do with buttons. -/
def WaylandHid.buttonKeywords (A : Arithmetic F) (answers : Answers F) :
    List (LibraryKeyword (Self F)) :=
  [⟨"press_pointer_button", takesButton fun button => pressPointerButton A button answers⟩,
   ⟨"release_pointer_button", takesButton fun button => releasePointerButton A button answers⟩,
   ⟨"click_pointer_button", takesButton fun button => clickPointerButton A button answers⟩,
   ⟨"release_pointer_buttons", takesNothing (releasePointerButtons A answers)⟩]

def Vnc.buttonKeywords (answers : Answers F) : List (LibraryKeyword Vnc) :=
  [⟨"press_pointer_button", takesButton fun button => pressPointerButton button answers⟩,
   ⟨"release_pointer_button", takesButton fun button => releasePointerButton button answers⟩,
   ⟨"click_pointer_button", takesButton fun button => clickPointerButton button answers⟩,
   ⟨"release_buttons", takesNothing (releaseButtons answers)⟩]

/-! ### The server -/

/-- The button a code stands for. -/
def decode (code : ℤ) : Option Button :=
  if code = 0x110 then some .left
  else if code = 0x111 then some .right
  else if code = 0x112 then some .middle
  else none

/-- A compositor holds a button from its press to its release. -/
def hold (held : Finset Button) : PointerRequest → Finset Button
  | .button code state => match decode code with
    | some b => if state = 1 then insert b held else held.erase b
    | none => held
  | .motionAbsolute _ _ _ _ | .frame => held

def heldByCode (requests : List PointerRequest) : Finset Button := requests.foldl hold ∅

/-- The bit of a button in the mask of a pointer event of the RFB protocol. -/
def rfbBit : Button → ℕ
  | .left => 0
  | .middle => 1
  | .right => 2

def heldByMask (mask : ℕ) : Finset Button :=
  Button.all.toFinset.filter fun b => mask.testBit (rfbBit b)

/-- The mask of the last message, of which a server has none at first. -/
def Vnc.mask (v : Vnc) : ℕ :=
  ((v.client.bind fun c => c.sent.getLast?).map Mouse.buttons).getD 0

/-- The mask the mouse of the client has. -/
def Vnc.buttons (v : Vnc) : ℕ := (v.client.map fun c => c.mouse.buttons).getD 0

/-! ### One keyword -/

section Keyword

/-- What a keyword makes of the buttons held. -/
def ButtonKeyword.held (held : Finset Button) : ButtonKeyword → Finset Button
  | .press b => insert b held
  | .release b | .click b => held.erase b
  | .releaseButtons => ∅

theorem decode_code (b : Button) : decode (WaylandHid.code b) = some b := by
  cases b <;> rfl

theorem held_append (requests later : List PointerRequest) :
    heldByCode (requests ++ later) = later.foldl hold (heldByCode requests) := List.foldl_append

theorem held_press (requests : List PointerRequest) (b : Button) :
    heldByCode (requests ++ [.button (WaylandHid.code b) 1] ++ [.frame]) =
      insert b (heldByCode requests) := by
  simp [held_append, hold, decode_code]

theorem held_release (requests : List PointerRequest) (b : Button) :
    heldByCode (requests ++ [.button (WaylandHid.code b) 0] ++ [.frame]) =
      (heldByCode requests).erase b := by
  simp [held_append, hold, decode_code]

/-- What the names come to. -/
theorem normalize_names :
    normalize "press_pointer_button" = "presspointerbutton".toList ∧
    normalize "release_pointer_button" = "releasepointerbutton".toList ∧
    normalize "click_pointer_button" = "clickpointerbutton".toList ∧
    normalize "release_pointer_buttons" = "releasepointerbuttons".toList ∧
    normalize "release_buttons" = "releasebuttons".toList ∧
    normalize "Press Pointer Button" = "presspointerbutton".toList ∧
    normalize "Release Pointer Button" = "releasepointerbutton".toList ∧
    normalize "Click Pointer Button" = "clickpointerbutton".toList ∧
    normalize "Release Pointer Buttons" = "releasepointerbuttons".toList := by
  decide +kernel

/-- What a keyword asks of the pointer, once the client is connected. -/
def WaylandHid.act (A : Arithmetic F) (answers : WaylandHid.Answers F) : ButtonKeyword → Method (Self F) Unit
  | .press b => button A (WaylandHid.code b) true (answers.send 0)
  | .release b => button A (WaylandHid.code b) false (answers.send 0)
  | .click b => do
      button A (WaylandHid.code b) true (answers.send 0)
      button A (WaylandHid.code b) false (answers.send 1)
  | .releaseButtons => forM Button.all.zipIdx fun b => button A (WaylandHid.code b.1) false (answers.send b.2)

/-- Each keyword reaches a method, which connects first. -/
theorem wayland_runKeyword (A : Arithmetic F) (answers : WaylandHid.Answers F) (k : ButtonKeyword) :
    runKeyword (WaylandHid.buttonKeywords A answers) k.hid =
      (WaylandHid.connect A answers.connecting answers.closing >>= fun _ => WaylandHid.act A answers k) := by
  obtain ⟨h₁, h₂, h₃, h₄, -, h₆, h₇, h₈, h₉⟩ := normalize_names
  cases k <;>
    simp [runKeyword, WaylandHid.buttonKeywords, ButtonKeyword.hid, takesButton, takesNothing, h₁, h₂, h₃,
      h₄, h₆, h₇, h₈, h₉, WaylandHid.pressPointerButton, WaylandHid.releasePointerButton,
      WaylandHid.clickPointerButton, WaylandHid.releasePointerButtons, named_name, compute, WaylandHid.act]

/-- What a keyword asks of the mouse, once the client is connected. The last one is not there. -/
def Vnc.act (answers : Vnc.Answers F) : ButtonKeyword → Method Vnc Unit
  | .press b => do
      Vnc.setMouse (Vnc.Mouse.hold (Vnc.value b))
      Vnc.write (answers.write 0)
  | .release b => do
      Vnc.setMouse (Vnc.Mouse.letGo (Vnc.value b))
      Vnc.write (answers.write 0)
  | .click b => Vnc.mouseClick (Vnc.value b) (answers.write 0) (answers.write 1)
  | .releaseButtons => throw (noKeyword "Release Pointer Buttons")

theorem vnc_runKeyword (answers : Vnc.Answers F) {k : ButtonKeyword} (hOffered : k ≠ .releaseButtons) :
    runKeyword (Vnc.buttonKeywords answers) k.hid =
      (Vnc.connect answers >>= fun _ => Vnc.requireClient >>= fun _ => Vnc.act answers k) := by
  obtain ⟨h₁, h₂, h₃, -, -, h₆, h₇, h₈, -⟩ := normalize_names
  cases k with
  | releaseButtons => exact absurd rfl hOffered
  | press | release | click =>
      simp [runKeyword, Vnc.buttonKeywords, ButtonKeyword.hid, takesButton, h₁, h₂, h₃, h₆, h₇, h₈,
        Vnc.pressPointerButton, Vnc.releasePointerButton, Vnc.clickPointerButton, named_name, compute, Vnc.act]

/-- The other library has no method under the last name. -/
theorem vnc_runKeyword_releaseButtons (answers : Vnc.Answers F) :
    runKeyword (Vnc.buttonKeywords answers) ButtonKeyword.releaseButtons.hid =
      throw (noKeyword "Release Pointer Buttons") := by
  obtain ⟨h₁, h₂, h₃, -, h₅, -, -, -, h₉⟩ := normalize_names
  simp [runKeyword, Vnc.buttonKeywords, ButtonKeyword.hid, h₁, h₂, h₃, h₅, h₉]

/-- A connected client that makes a compositor hold these buttons. -/
def WaylandHid.Holds (held : Finset Button) (c : Self F) : Prop :=
  c.attributes.pointer ≠ none ∧ heldByCode c.attributes.sent = held

theorem triple_button_held {A : Arithmetic F} (held : Finset Button) (b : Button) (state : Bool)
    {a : Sending} (h : a.Quiet) :
    Triple (WaylandHid.Holds held) (button A (WaylandHid.code b) state a)
      (fun _ => WaylandHid.Holds (if state then insert b held else held.erase b)) fun _ => False := by
  intro c hHolds
  have hButton := triple_button (A := A) (WaylandHid.code b) state h hHolds.1 c ⟨rfl, rfl⟩
  cases hRun : (button A (WaylandHid.code b) state a).run c with
  | ok _ c' =>
      rw [hRun] at hButton
      refine ⟨hButton.1 ▸ hHolds.1, ?_⟩
      rw [hButton.2, ← hHolds.2]
      cases state with
      | true => exact held_press _ b
      | false => exact held_release _ b
  | error _ _ =>
      rw [hRun] at hButton
      exact hButton

theorem triple_act_held {A : Arithmetic F} {answers : WaylandHid.Answers F} {held : Finset Button}
    (hQuiet : ∀ k, (answers.send k).Quiet) (k : ButtonKeyword) :
    Triple (WaylandHid.Holds held) (WaylandHid.act A answers k) (fun _ => WaylandHid.Holds (k.held held))
      fun _ => False := by
  have hButton (held : Finset Button) (b : Button) (state : Bool) (i : ℕ) :=
    triple_button_held (A := A) held b state (hQuiet i)
  cases k with
  | press b => exact hButton _ b true 0
  | release b => exact hButton _ b false 0
  | click b =>
      refine (triple_bind (hButton _ b true 0) fun _ => hButton _ b false 1).mono (fun _ c h => ?_)
        fun _ h => h
      simpa [ButtonKeyword.held] using h
  | releaseButtons =>
      refine triple_bind (hButton _ .left false 0) fun _ => triple_bind (hButton _ .right false 1) fun _ => ?_
      refine triple_bind (hButton _ .middle false 2) fun _ => triple_pure _ fun c h => ⟨h.1, h.2.trans ?_⟩
      ext b
      cases b <;> simp [ButtonKeyword.held]

/-- Any of the keywords succeeds over a client that can connect. -/
theorem wayland_held {A : Arithmetic F} {answers : WaylandHid.Answers F}
    (hQuiet : ∀ k, (answers.send k).Quiet) {c c₁ : WaylandHid.Self F}
    (hConnect : (WaylandHid.connect A answers.connecting answers.closing).run c = .ok () c₁)
    (k : ButtonKeyword) :
    ∃ c', (runKeyword (WaylandHid.buttonKeywords A answers) k.hid).run c = .ok () c' ∧
      WaylandHid.Holds (k.held (heldByCode c.attributes.sent)) c' := by
  have hUnmoved := WaylandHid.connect_unmoved (A := A) answers.connecting answers.closing c
  rw [hConnect, state_ok] at hUnmoved
  have hHolds : WaylandHid.Holds (heldByCode c.attributes.sent) c₁ :=
    ⟨WaylandHid.pointer_of_connect hConnect, by rw [hUnmoved.2]⟩
  obtain ⟨⟨⟩, c', hRun, hEnd⟩ := (triple_act_held hQuiet k).returns hHolds
  refine ⟨c', ?_, hEnd⟩
  rw [wayland_runKeyword, EStateM.run_bind, hConnect]
  exact hRun

/-! ### The mask -/

/-- What a keyword makes of the mask. The last one is not there. -/
def ButtonKeyword.mask (m : ℕ) : ButtonKeyword → ℕ
  | .press b => m ||| 1 <<< Vnc.value b
  | .release b => Nat.ldiff m (1 <<< Vnc.value b)
  | .click b => Nat.ldiff (m ||| 1 <<< Vnc.value b) (1 <<< Vnc.value b)
  | .releaseButtons => m

/-- The mouse of a connected client has this mask, and the last message did. -/
def Vnc.Holds (m : ℕ) (v : Vnc) : Prop := v.client ≠ none ∧ v.buttons = m ∧ v.mask = m

theorem triple_send {f : Mouse → Mouse} {m n : ℕ}
    (hf : ∀ mouse, mouse.buttons = m → (f mouse).buttons = n) :
    Triple (Vnc.Holds m) (do Vnc.setMouse f; Vnc.write none) (fun _ => Vnc.Holds n) fun _ => False := by
  intro v hHolds
  cases hClient : v.client with
  | none => exact absurd hClient hHolds.1
  | some client =>
      have hMouse : client.mouse.buttons = m := by
        have hButtons := hHolds.2.1
        simpa [Vnc.buttons, hClient] using hButtons
      show Vnc.Holds n _
      refine ⟨?_, ?_, ?_⟩
      · simp [hClient]
      · simp [Vnc.buttons, hClient, hf client.mouse hMouse]
      · simp [Vnc.mask, hClient, hf client.mouse hMouse]

theorem triple_act_mask {answers : Vnc.Answers F} (hQuiet : ∀ k, answers.write k = none) {m : ℕ}
    {k : ButtonKeyword} (hOffered : k ≠ .releaseButtons) :
    Triple (Vnc.Holds m) (Vnc.act answers k) (fun _ => Vnc.Holds (k.mask m)) fun _ => False := by
  have hHold (b : Button) (m : ℕ) := triple_send (f := Vnc.Mouse.hold (Vnc.value b)) (m := m)
    (n := m ||| 1 <<< Vnc.value b) fun mouse h => by simp [Vnc.Mouse.hold, h]
  have hLetGo (b : Button) (m : ℕ) := triple_send (f := Vnc.Mouse.letGo (Vnc.value b)) (m := m)
    (n := Nat.ldiff m (1 <<< Vnc.value b)) fun mouse h => by simp [Vnc.Mouse.letGo, h]
  cases k with
  | press b =>
      rw [Vnc.act, hQuiet]
      exact hHold b m
  | release b =>
      rw [Vnc.act, hQuiet]
      exact hLetGo b m
  | click b =>
      rw [Vnc.act, hQuiet, hQuiet]
      have hBoth := triple_bind (hHold b m) fun _ => hLetGo b _
      exact hBoth
  | releaseButtons => exact absurd rfl hOffered

/-- Every keyword that is there succeeds over a connection that can be opened. -/
theorem vnc_mask {answers : Vnc.Answers F} (hQuiet : ∀ k, answers.write k = none) {v v₁ : Vnc} {m : ℕ}
    (hConnect : (Vnc.connect answers).run v = .ok () v₁) (hMask : v.buttons = m ∧ v.mask = m)
    {k : ButtonKeyword} (hOffered : k ≠ .releaseButtons) :
    ∃ v', (runKeyword (Vnc.buttonKeywords answers) k.hid).run v = .ok () v' ∧ Vnc.Holds (k.mask m) v' := by
  have hHolds : Vnc.Holds m v₁ := by
    rcases Vnc.connect_ok hConnect with ⟨rfl, hClient⟩ | ⟨hNone, video, rfl⟩
    · exact ⟨hClient, hMask⟩
    · have hZero : m = 0 := by
        rw [← hMask.1]
        simp [Vnc.buttons, hNone]
      exact ⟨by simp, by simp [Vnc.buttons, hZero], by simp [Vnc.mask, hZero]⟩
  have hClient : Vnc.requireClient.run v₁ = .ok () v₁ := by
    change (require (v₁.client ≠ none) _).run v₁ = _
    rw [require, if_pos hHolds.1]
    rfl
  obtain ⟨⟨⟩, v', hRun, hEnd⟩ := (triple_act_mask hQuiet hOffered).returns hHolds
  refine ⟨v', ?_, hEnd⟩
  rw [vnc_runKeyword answers hOffered]
  exact run_bind_ok.mpr ⟨(), v₁, hConnect, run_bind_ok.mpr ⟨(), v₁, hClient, hRun⟩⟩

end Keyword

/-! ### A suite -/

/-- A keyword of `kvm.resource` with the answers that either library gets. -/
structure ButtonCall (F : Type) where
  keyword : ButtonKeyword
  wayland : WaylandHid.Answers F
  vnc : Vnc.Answers F

def WaylandHid.kvm (A : Arithmetic F) (calls : List (ButtonCall F)) : Method (Self F) Unit :=
  forM calls fun k => runKeyword (buttonKeywords A k.wayland) k.keyword.hid

def Vnc.kvm (calls : List (ButtonCall F)) : Method Vnc Unit :=
  forM calls fun k => runKeyword (buttonKeywords k.vnc) k.keyword.hid

/-- After each keyword both runs are still going and the same buttons are held. -/
def HeldAlike (A : Arithmetic F) (c : WaylandHid.Self F) (v : Vnc) (calls : List (ButtonCall F)) : Prop :=
  ∀ i ≤ calls.length, ∃ c' v', (WaylandHid.kvm A (calls.take i)).run c = .ok () c' ∧
    (Vnc.kvm (calls.take i)).run v = .ok () v' ∧ heldByCode c'.attributes.sent = heldByMask v'.mask

section Suite

variable {A : Arithmetic F} {c c₁ : WaylandHid.Self F} {v v₁ : Vnc} {k : ButtonCall F}
  {calls rest : List (ButtonCall F)}

theorem HeldAlike.start (h : HeldAlike A c v calls) :
    heldByCode c.attributes.sent = heldByMask v.mask := by
  obtain ⟨c', v', hWayland, hVnc, hSame⟩ := h 0 (Nat.zero_le _)
  cases hWayland
  cases hVnc
  exact hSame

theorem heldAlike_cons
    (hWayland : (runKeyword (WaylandHid.buttonKeywords A k.wayland) k.keyword.hid).run c = .ok () c₁)
    (hVnc : (runKeyword (Vnc.buttonKeywords k.vnc) k.keyword.hid).run v = .ok () v₁)
    (hSame : heldByCode c.attributes.sent = heldByMask v.mask) :
    HeldAlike A c v (k :: rest) ↔ HeldAlike A c₁ v₁ rest := by
  have hStep (i : ℕ) : (WaylandHid.kvm A ((k :: rest).take (i + 1))).run c =
      (WaylandHid.kvm A (rest.take i)).run c₁ ∧
        (Vnc.kvm ((k :: rest).take (i + 1))).run v = (Vnc.kvm (rest.take i)).run v₁ := by
    constructor
    · rw [WaylandHid.kvm, List.take_succ_cons, List.forM_cons, EStateM.run_bind, hWayland]
      rfl
    · rw [Vnc.kvm, List.take_succ_cons, List.forM_cons, EStateM.run_bind, hVnc]
      rfl
  constructor
  · intro h i hi
    obtain ⟨c', v', hFirst, hSecond, hHeld⟩ := h (i + 1) (by simpa using hi)
    rw [(hStep i).1] at hFirst
    rw [(hStep i).2] at hSecond
    exact ⟨c', v', hFirst, hSecond, hHeld⟩
  · intro h i hi
    cases i with
    | zero => exact ⟨c, v, rfl, rfl, hSame⟩
    | succ i =>
        rw [(hStep i).1, (hStep i).2]
        exact h i (by simpa using hi)

/-- Nothing but the left button is ever held, on either side. -/
def heldLeft (down : Bool) : Finset Button × ℕ := if down then ({.left}, 1) else (∅, 0)

/-- The keywords that treat the buttons alike hold no other. -/
theorem stays_left (down : Bool) {k : ButtonKeyword} (hOffered : k ≠ .releaseButtons)
    (hRight : k ≠ .press .right) (hMiddle : k ≠ .press .middle) :
    ∃ down', k.held (heldLeft down).1 = (heldLeft down').1 ∧
      k.mask (heldLeft down).2 = (heldLeft down').2 := by
  cases k with
  | press b =>
      cases b with
      | left => exact ⟨true, by cases down <;> decide +kernel⟩
      | right => exact absurd rfl hRight
      | middle => exact absurd rfl hMiddle
  | release b | click b =>
      cases b with
      | left => exact ⟨false, by cases down <;> decide +kernel⟩
      | right | middle => exact ⟨down, by cases down <;> decide +kernel⟩
  | releaseButtons => exact absurd rfl hOffered

/-- The value of either of the other two is the bit of the other. -/
theorem press_differs (down : Bool) {b : Button} (h : b ≠ .left) :
    (ButtonKeyword.press b).held (heldLeft down).1 ≠
      heldByMask ((ButtonKeyword.press b).mask (heldLeft down).2) := by
  cases b with
  | left => exact absurd rfl h
  | right | middle => cases down <;> decide

theorem heldAlike_iff_of_left (down : Bool)
    (hConnect : ∀ first ∈ calls.head?,
      (∃ c₁, (WaylandHid.connect A first.wayland.connecting first.wayland.closing).run c = .ok () c₁) ∧
        ∃ v₁, (Vnc.connect first.vnc).run v = .ok () v₁)
    (hQuiet : ∀ k ∈ calls, (∀ i, (k.wayland.send i).Quiet) ∧ ∀ i, k.vnc.write i = none)
    (hHeld : heldByCode c.attributes.sent = (heldLeft down).1)
    (hMask : v.buttons = (heldLeft down).2 ∧ v.mask = (heldLeft down).2) :
    HeldAlike A c v calls ↔ ∀ k ∈ calls, k.keyword ≠ .releaseButtons ∧ k.keyword ≠ .press .right ∧
      k.keyword ≠ .press .middle := by
  have hSame : heldByCode c.attributes.sent = heldByMask v.mask := by
    rw [hHeld, hMask.2]
    cases down <;> decide
  induction calls generalizing c v down with
  | nil =>
      have hNone : HeldAlike A c v [] := by
        intro i hi
        obtain rfl : i = 0 := by simpa using hi
        exact ⟨c, v, rfl, rfl, hSame⟩
      simpa using hNone
  | cons k rest ih =>
      obtain ⟨⟨c₁, hWaylandConnect⟩, v₁, hVncConnect⟩ := hConnect k (by simp)
      obtain ⟨hSend, hWrite⟩ := hQuiet k (by simp)
      obtain ⟨c', hWayland, hPointer, hHeld'⟩ := wayland_held hSend hWaylandConnect k.keyword
      rw [hHeld] at hHeld'
      by_cases hOffered : k.keyword = .releaseButtons
      · have hMissing : ¬HeldAlike A c v (k :: rest) := by
          intro h
          obtain ⟨_, v', -, hVnc, -⟩ := h 1 (by simp)
          rw [Vnc.kvm, List.take_succ_cons, List.forM_cons, EStateM.run_bind, hOffered,
            vnc_runKeyword_releaseButtons] at hVnc
          cases hVnc
        simp [hMissing, hOffered]
      obtain ⟨v', hVnc, hClient, hMask'⟩ := vnc_mask hWrite hVncConnect hMask hOffered
      rw [heldAlike_cons hWayland hVnc hSame]
      by_cases hOther : ∃ b, k.keyword = .press b ∧ b ≠ .left
      · obtain ⟨b, hPress, hb⟩ := hOther
        have hDiffers : ¬HeldAlike A c' v' rest := by
          intro h
          have hStart := h.start
          rw [hHeld', hMask'.2, hPress] at hStart
          exact press_differs down hb hStart
        cases b with
        | left => exact absurd rfl hb
        | right | middle => simp [hDiffers, hPress]
      · have hRight : k.keyword ≠ .press .right := fun h => hOther ⟨_, h, by decide⟩
        have hMiddle : k.keyword ≠ .press .middle := fun h => hOther ⟨_, h, by decide⟩
        obtain ⟨down', hHeldLeft, hMaskLeft⟩ := stays_left down hOffered hRight hMiddle
        rw [hHeldLeft] at hHeld'
        rw [hMaskLeft] at hMask'
        have hRest := ih down' (fun first _ => ⟨⟨c', WaylandHid.connect_run_of_pointer hPointer⟩, v',
          Vnc.connect_run_of_client hClient⟩) (fun k hk => hQuiet k (by simp [hk])) hHeld' hMask' ?_
        · simp [hRest, hOffered, hRight, hMiddle]
        · rw [hHeld', hMask'.2]
          cases down' <;> decide

/-- From a start without buttons held, the libraries hold the same ones all along just when
no button but the left one is pressed and `Release Buttons` is not called. -/
theorem heldAlike_iff
    (hConnect : ∀ first ∈ calls.head?,
      (∃ c₁, (WaylandHid.connect A first.wayland.connecting first.wayland.closing).run c = .ok () c₁) ∧
        ∃ v₁, (Vnc.connect first.vnc).run v = .ok () v₁)
    (hQuiet : ∀ k ∈ calls, (∀ i, (k.wayland.send i).Quiet) ∧ ∀ i, k.vnc.write i = none)
    (hHeld : heldByCode c.attributes.sent = ∅) (hMask : v.buttons = 0 ∧ v.mask = 0) :
    HeldAlike A c v calls ↔ ∀ k ∈ calls, k.keyword ≠ .releaseButtons ∧ k.keyword ≠ .press .right ∧
      k.keyword ≠ .press .middle :=
  heldAlike_iff_of_left false hConnect hQuiet hHeld hMask

end Suite

/-- A keyword during which nothing raises. -/
def quietCall (keyword : ButtonKeyword) : ButtonCall Double where
  keyword
  wayland := {
    connecting := { connected := {} }
    closing := {}
    move := {}
    send := fun _ => {}
    sleep := fun _ _ => {} }
  vnc := { create := .ok ⟨640, 480⟩ }

theorem vga_connects (keyword : ButtonKeyword) :
    (∃ c₁, (WaylandHid.connect (doubles wholeSqrt) (quietCall keyword).wayland.connecting
        (quietCall keyword).wayland.closing).run WaylandHid.vga = .ok () c₁) ∧
      ∃ v₁, (Vnc.connect (quietCall keyword).vnc).run {} = .ok () v₁ :=
  ⟨⟨_, WaylandHid.connect_run_of_pointer (by simp [WaylandHid.vga])⟩, _, rfl⟩

theorem quietCall_quiet (keyword : ButtonKeyword) :
    (∀ i, ((quietCall keyword).wayland.send i).Quiet) ∧ ∀ i, (quietCall keyword).vnc.write i = none :=
  ⟨fun _ => ⟨rfl, rfl, rfl⟩, fun _ => rfl⟩

theorem heldAlike_left :
    HeldAlike (doubles wholeSqrt) WaylandHid.vga {}
      ([.press .left, .click .right, .release .left].map quietCall) := by
  refine (heldAlike_iff ?_ ?_ rfl ⟨rfl, rfl⟩).mpr ?_
  · intro first hFirst
    obtain rfl : quietCall (.press .left) = first := by simpa using hFirst
    exact vga_connects _
  · simp [quietCall_quiet]
  · simp [quietCall]

/-- Pressing the right button holds the middle one, and the last keyword is missing. -/
theorem heldAlike_fails :
    ¬HeldAlike (doubles wholeSqrt) WaylandHid.vga {} [quietCall (.press .right)] ∧
      ¬HeldAlike (doubles wholeSqrt) WaylandHid.vga {} [quietCall .releaseButtons] := by
  have hCase (keyword : ButtonKeyword) :
      HeldAlike (doubles wholeSqrt) WaylandHid.vga {} [quietCall keyword] ↔ _ :=
    heldAlike_iff_of_left false (by simpa using vga_connects keyword)
      (by simpa using quietCall_quiet keyword) rfl ⟨rfl, rfl⟩
  rw [hCase, hCase]
  simp [quietCall]

end MirCi.Robot
