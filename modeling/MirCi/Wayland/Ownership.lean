import MirCi.Wayland.ScreencopyTracker
import MirCi.Wayland.VirtualPointer

/-! Which connection the objects of a client were created on: while a client stays on its
first connection they all belong to it. -/
namespace MirCi.Wayland

open Python Semantics Effect

/-! ### The tracker -/

namespace ScreencopyTracker

variable {X : Type} {n : ℕ} {b : Buffer} {captured : Prop}

/-- The display is on this connection, and what the tracker has was created on it. It has a frame
once one was captured. -/
structure Owned (n : ℕ) (captured : Prop) (c : Self X) : Prop where
  current : c.display.current = some n
  opened : n < c.display.opened
  frame : ∀ frame ∈ c.attributes.frame, frame.connection = some n
  has_frame : captured → c.attributes.frame ≠ none
  buffer : ∀ buffer ∈ c.attributes.buffer, buffer.proxy.connection = some n
  shmData : ∀ mapping ∈ c.attributes.shmData, mapping.connection = some n
  /-- A buffer is made over a mapping. -/
  mapped : c.attributes.buffer ≠ none → c.attributes.shmData ≠ none

/-- Ownership looks at the connection, the frame, the buffer and the mapping, and at nothing else. -/
theorem Owned.of_same {c d : Self X} (h : Owned n captured c) (hCurrent : d.display.current = c.display.current)
    (hOpened : d.display.opened = c.display.opened) (hFrame : d.attributes.frame = c.attributes.frame)
    (hBuffer : d.attributes.buffer = c.attributes.buffer) (hShmData : d.attributes.shmData = c.attributes.shmData) :
    Owned n captured d where
  current := hCurrent.trans h.current
  opened := hOpened ▸ h.opened
  frame := hFrame ▸ h.frame
  has_frame := hFrame ▸ h.has_frame
  buffer := hBuffer ▸ h.buffer
  shmData := hShmData ▸ h.shmData
  mapped := hBuffer ▸ hShmData ▸ h.mapped

theorem unaffected_owned : Unaffected (Owned n captured : Self X → Prop) where
  created _ _ h := h.of_same rfl rfl rfl rfl rfl
  printed _ _ h := h.of_same rfl rfl rfl rfl rfl

theorem owned_mapBuffer (b : BufferEvent) : Keeps (Owned n captured : Self X → Prop) (mapBuffer b) := by
  let Mapped : Self X → Prop := fun c => Owned n captured c ∧ c.attributes.shmData ≠ none
  have hMapped : Unaffected Mapped :=
    ⟨fun c k h => ⟨unaffected_owned.created c k h.1, h.2⟩, fun c es h => ⟨unaffected_owned.printed c es h.1, h.2⟩⟩
  have hMmap : Triple (Owned n captured : Self X → Prop) (mmap (b.stride * b.height) b.mmap) (fun _ => Mapped)
      (Owned n captured) := by
    refine triple_after_keeps keeps_outside (fun _ h => h) fun _ => ?_
    refine triple_after_keeps keeps_outside (fun _ h => h) fun _ => triple_modify fun c h => ⟨?_, by simp⟩
    refine ⟨h.current, h.opened, h.frame, h.has_frame, h.buffer, ?_, fun _ => by simp⟩
    rintro mapping ⟨⟩
    exact h.current
  have hBuffer : Keeps Mapped (create b.createBuffer >>= fun buffer =>
      assign fun a => { a with buffer := some ⟨buffer, b.width, b.height, b.stride, b.format⟩ }) := by
    refine keeps_create_assign fun c h => ⟨?_, h.2⟩
    refine ⟨h.1.current, h.1.opened, h.1.frame, h.1.has_frame, ?_, h.1.shmData, fun _ => h.2⟩
    rintro buffer ⟨⟩
    exact h.1.current
  have hAll : Triple (Owned n captured : Self X → Prop) (mapBuffer b) (fun _ => Owned n captured)
      (Owned n captured) := by
    refine triple_get_bind fun _ => triple_after_keeps keeps_require (fun _ h => h) fun _ => ?_
    refine triple_after_keeps (keeps_shmOpen (fun c k h => ?_) _) (fun _ h => h) fun _ => ?_
    · exact h.of_same rfl rfl rfl rfl rfl
    refine triple_after_keeps keeps_outside (fun _ h => h) fun _ => triple_bind hMmap fun _ => ?_
    refine triple_after_keeps hMapped.create (fun _ h => h.1) fun _ => ?_
    rw [← bind_assoc]
    refine triple_after_keeps hBuffer (fun _ h => h.1) fun _ => ?_
    exact triple_of_keeps keeps_outside (fun _ _ h => h.1) fun _ h => h.1
  exact fun c h => hAll.state h

theorem capturing_owned : Capturing (Owned n captured : Self X → Prop) where
  toUnaffected := unaffected_owned
  manager _ _ h := h.of_same rfl rfl rfl rfl rfl
  output _ _ h := h.of_same rfl rfl rfl rfl rfl
  shm _ _ h := h.of_same rfl rfl rfl rfl rfl
  frameBuffer b := by
    refine keeps_bind (keeps_checkBuffer (fun c _ _ _ _ h => ?_) _ _ _) fun _ =>
      keeps_get_bind fun _ => keeps_when (owned_mapBuffer b)
    exact h.of_same rfl rfl rfl rfl rfl
  capture _ := by
    refine keeps_create_assign fun c h => ⟨h.current, h.opened, ?_, by simp, h.buffer, h.shmData, h.mapped⟩
    rintro frame ⟨⟩
    exact h.current

/-- Once there is a buffer, no event makes another. -/
theorem keeps_frameBuffer_of_buffer {P : Self X → Prop} (hBuffer : ∀ c, P c → c.attributes.buffer ≠ none)
    (h : ∀ c width height stride size, P c → P { c with attributes := { c.attributes with
      bufferWidth := width, bufferHeight := height, bufferStride := stride, bufferSize := size } })
    (event : BufferEvent) : Keeps P (frameBuffer event) := by
  refine keeps_bind (keeps_checkBuffer h _ _ _) fun _ => keeps_get_bind_of fun c hKept => ?_
  rw [when, if_neg (hBuffer c hKept)]
  exact keeps_pure ()

/-- A tracker on this connection, with all that a screenshot needs. -/
structure Holds (n : ℕ) (b : Buffer) (c : Self X) : Prop where
  owned : Owned n True c
  buffer : c.attributes.buffer = some b

theorem capturing_holds : Capturing (Holds n b : Self X → Prop) where
  created c k h := ⟨unaffected_owned.created c k h.owned, h.buffer⟩
  printed c es h := ⟨unaffected_owned.printed c es h.owned, h.buffer⟩
  manager c proxy h := ⟨capturing_owned.manager c proxy h.owned, h.buffer⟩
  output c proxy h := ⟨capturing_owned.output c proxy h.owned, h.buffer⟩
  shm c proxy h := ⟨capturing_owned.shm c proxy h.owned, h.buffer⟩
  frameBuffer := by
    refine keeps_frameBuffer_of_buffer (fun c h => by simp [h.buffer]) fun c _ _ _ _ ⟨h, hBuffer⟩ => ⟨?_, hBuffer⟩
    exact h.of_same rfl rfl rfl rfl rfl
  capture _ := by
    refine keeps_create_assign fun c ⟨h, hBuffer⟩ => ⟨?_, hBuffer⟩
    refine ⟨h.current, h.opened, ?_, by simp, h.buffer, h.shmData, h.mapped⟩
    rintro frame ⟨⟩
    exact h.current

/-- Binding a global changes the globals and nothing else. -/
theorem keeps_registryGlobal_of {P : Self X → Prop} (hP : Unaffected P)
    (h : ∀ c manager output shm, P c → P { c with attributes := { c.attributes with
      screencopyManager := manager, output := output, shm := shm } }) (event : Global) :
    Keeps P (registryGlobal event) := by
  refine keeps_ite (fun _ => ?_) fun _ => keeps_ite (fun _ => ?_) fun _ => keeps_ite (fun _ => ?_)
    fun _ => keeps_pure ()
  · exact keeps_bind hP.create fun _ => keeps_assign fun c => h c _ c.attributes.output c.attributes.shm
  · exact keeps_bind hP.create fun _ => keeps_assign fun c => h c c.attributes.screencopyManager _ c.attributes.shm
  · exact keeps_bind hP.create fun _ => keeps_assign fun c => h c c.attributes.screencopyManager c.attributes.output _

/-- The frame was created on a connection that is not the one the display is on. -/
def Stale (c : Self X) : Prop := ∃ frame ∈ c.attributes.frame, frame.connection ≠ c.display.current

/-- A tracker whose connection is closed. It still has the frame and the buffer that were made on it. -/
structure Gone (c : Self X) : Prop where
  current : c.display.current = none
  stale : Stale c
  buffer : c.attributes.buffer ≠ none
  shmData : c.attributes.shmData = none

theorem Stale.has_frame {c : Self X} (h : Stale c) : c.attributes.frame ≠ none := by
  obtain ⟨frame, hFrame, -⟩ := h
  exact Option.ne_none_iff_exists'.mpr ⟨frame, hFrame⟩

theorem unaffected_gone : Unaffected (Gone : Self X → Prop) where
  created _ _ h := ⟨h.current, h.stale, h.buffer, h.shmData⟩
  printed _ _ h := ⟨h.current, h.stale, h.buffer, h.shmData⟩

/-- A tracker with a frame gets no further than to its destruction when that raises. -/
theorem triple_copyFrame_refused {P : Self X → Prop} {answers : Copying}
    (hFrame : ∀ c, P c → c.attributes.frame ≠ none) (h : answers.destroy ≠ none) :
    Triple P (copyFrame answers) (fun _ _ => False) P := by
  refine triple_get_bind fun _ => triple_require_bind (fun _ _ h => h) fun _ => triple_get_bind_of fun c hc => ?_
  rw [when, if_pos (hFrame c hc)]
  exact triple_outside_bind (fun _ _ h => h) fun hNone => absurd hNone h

/-- The answers to `copy_frame`, in an event whose handler calls it. -/
def copyingOf : FrameEvent → Option Copying
  | .ready _ _ _ copying _ => some copying
  | .early _ | .damage .. | .flags _ => none

/-- No event brings a tracker back whose connection is gone, as long as its frame is not destroyed. -/
theorem gone_handle (event : FrameEvent) (h : ∀ copying ∈ copyingOf event, copying.destroy ≠ none) :
    Keeps (Gone : Self X → Prop) (handle event) := by
  cases event with
  | early event =>
      cases event with
      | global event =>
          exact keeps_registryGlobal_of unaffected_gone
            (fun _ _ _ _ h => ⟨h.current, h.stale, h.buffer, h.shmData⟩) event
      | buffer event =>
          exact keeps_frameBuffer_of_buffer (fun _ h => h.buffer)
            (fun _ _ _ _ _ h => ⟨h.current, h.stale, h.buffer, h.shmData⟩) event
  | damage _ _ _ _ =>
      rw [handle, frameDamage]
      exact keeps_assign fun _ h => ⟨h.current, h.stale, h.buffer, h.shmData⟩
  | flags _ =>
      rw [handle, frameFlagsEvent]
      exact keeps_assign fun _ h => ⟨h.current, h.stale, h.buffer, h.shmData⟩
  | ready _ _ _ copying flush =>
      have hRefused : Triple (Gone : Self X → Prop) (copyFrame copying) (fun _ _ => False) Gone :=
        triple_copyFrame_refused (fun _ h => h.stale.has_frame) (h copying rfl)
      have hRequest : Keeps (Gone : Self X → Prop) (requestFrame copying flush) := by
        refine keeps_get_bind fun _ => keeps_bind keeps_require fun _ => fun c hc => ?_
        exact (triple_bind hRefused fun _ _ hNever => hNever.elim).state hc
      exact keeps_bind (keeps_assign fun _ h => ⟨h.current, h.stale, h.buffer, h.shmData⟩) fun _ => hRequest

/-- A tracker that captures a frame has it, and a buffer, on its connection. -/
theorem triple_copyFrame (answers : Copying) :
    Triple (Owned n False : Self X → Prop) (copyFrame answers) (fun _ c => ∃ b, Holds n b c) fun _ => True := by
  refine triple_get_bind fun _ => triple_after_keeps keeps_require (fun _ _ => trivial) fun _ => ?_
  refine triple_get_bind fun _ => triple_after_keeps (keeps_when keeps_outside) (fun _ _ => trivial) fun _ => ?_
  refine triple_bind unaffected_owned.triple_create fun frame => ?_
  refine triple_bind (triple_modify fun c h => ?_ : Triple _ _ (fun _ => Owned n True) _) fun _ => ?_
  · obtain ⟨hOwned, hFrame⟩ := h
    refine ⟨hOwned.current, hOwned.opened, ?_, by simp, hOwned.buffer, hOwned.shmData, hOwned.mapped⟩
    rintro frame ⟨⟩
    exact hFrame.trans hOwned.current
  refine triple_after_keeps (unaffected_owned.receive fun event _ => capturing_owned.handleEarly event)
    (fun _ _ => trivial) fun _ => triple_get_bind_eq fun c hOwned => ?_
  refine triple_require_bind (fun _ _ _ => trivial) fun hBuffer => ?_
  obtain ⟨b, hSome⟩ := Option.ne_none_iff_exists'.mp hBuffer
  refine triple_outside_bind (fun _ _ _ => trivial) fun _ => triple_outside (fun _ _ _ => trivial) fun _ d hd => ?_
  subst hd
  exact ⟨b, hOwned, hSome⟩

end ScreencopyTracker

/-! ### The pointer -/

namespace VirtualPointer

variable {F X : Type} {A : Arithmetic F} {n : ℕ} {p : Proxy}

/-- The display is on this connection, and the outputs were created on it. -/
structure Owned (n : ℕ) (c : Self F X) : Prop where
  current : c.display.current = some n
  wlOutputs : ∀ output ∈ c.attributes.wlOutputs, output.connection = some n
  xdgOutputs : ∀ output ∈ c.attributes.xdgOutputs, output.connection = some n

theorem forall_mem_snoc {outputs : List Proxy} {output : Proxy} (hOutput : output.connection = some n)
    (h : ∀ output ∈ outputs, output.connection = some n) :
    ∀ o ∈ outputs ++ [output], o.connection = some n := by
  intro o ho
  rcases List.mem_append.mp ho with hOld | hNew
  · exact h o hOld
  · rw [List.mem_singleton.mp hNew]
    exact hOutput

theorem following_owned : Following (Owned n : Self F X → Prop) where
  created _ _ h := ⟨h.current, h.wlOutputs, h.xdgOutputs⟩
  printed _ _ h := ⟨h.current, h.wlOutputs, h.xdgOutputs⟩
  pointerManager _ _ h := ⟨h.current, h.wlOutputs, h.xdgOutputs⟩
  outputManager _ _ h := ⟨h.current, h.wlOutputs, h.xdgOutputs⟩
  output _ := keeps_create_assign fun _ h => ⟨h.current, forall_mem_snoc h.current h.wlOutputs, h.xdgOutputs⟩
  size _ _ _ h := ⟨h.current, h.wlOutputs, h.xdgOutputs⟩

/-- A client on this connection, with all that a pointer keyword needs. -/
structure Holds (n : ℕ) (p : Proxy) (c : Self F X) : Prop where
  owned : Owned n c
  pointer : c.attributes.pointer = some p
  connection : p.connection = some n
  wlOutputs : c.attributes.wlOutputs ≠ []

theorem following_holds : Following (Holds n p : Self F X → Prop) where
  created c k h := ⟨following_owned.created c k h.owned, h.pointer, h.connection, h.wlOutputs⟩
  printed c es h := ⟨following_owned.printed c es h.owned, h.pointer, h.connection, h.wlOutputs⟩
  pointerManager c proxy h := ⟨following_owned.pointerManager c proxy h.owned, h.pointer, h.connection, h.wlOutputs⟩
  outputManager c proxy h := ⟨following_owned.outputManager c proxy h.owned, h.pointer, h.connection, h.wlOutputs⟩
  output _ := by
    refine keeps_create_assign fun c h => ⟨?_, h.pointer, h.connection, by simp⟩
    exact ⟨h.owned.current, forall_mem_snoc h.owned.current h.owned.wlOutputs, h.owned.xdgOutputs⟩
  size c width height h := ⟨following_owned.size c width height h.owned, h.pointer, h.connection, h.wlOutputs⟩

/-- A client without a connection that believes in its pointer. -/
structure Left (c : Self F X) : Prop where
  pointer : c.attributes.pointer ≠ none
  left : c.display.current = none

theorem following_left : Following (Left : Self F X → Prop) where
  created _ _ h := ⟨h.pointer, h.left⟩
  printed _ _ h := ⟨h.pointer, h.left⟩
  pointerManager _ _ h := ⟨h.pointer, h.left⟩
  outputManager _ _ h := ⟨h.pointer, h.left⟩
  output _ := keeps_create_assign fun _ h => ⟨h.pointer, h.left⟩
  size _ _ _ h := ⟨h.pointer, h.left⟩

/-- A client that connects has a pointer, and outputs, of its connection. -/
theorem triple_connected_owned (answers : Outputs) :
    Triple (Owned n : Self F X → Prop) (connected A answers) (fun _ c => ∃ p, Holds n p c) fun _ => True := by
  have hOwned := (following_owned (F := F) (X := X) (n := n)).toUnaffected
  have hOutputs (i : ℕ) : Keeps (Owned n : Self F X → Prop) (create (answers.getXdgOutput i) >>= fun output =>
      assign fun a => { a with xdgOutputs := a.xdgOutputs ++ [output] }) :=
    keeps_create_assign fun _ h => ⟨h.current, h.wlOutputs, forall_mem_snoc h.current h.xdgOutputs⟩
  refine triple_get_bind fun _ => triple_after_keeps keeps_require (fun _ _ => trivial) fun _ => ?_
  refine triple_get_bind fun _ => triple_after_keeps keeps_require (fun _ _ => trivial) fun _ => ?_
  refine triple_get_bind fun _ => ?_
  refine triple_after_keeps (keeps_forM fun i _ => hOutputs i) (fun _ _ => trivial) fun _ => ?_
  refine triple_after_keeps (hOwned.receive fun event _ => following_owned.handle event) (fun _ _ => trivial)
    fun _ => triple_get_bind_eq fun c hc => ?_
  refine triple_outside_bind (fun _ _ _ => trivial) fun hSome => ?_
  have hFirst : c.attributes.wlOutputs ≠ [] := by
    intro hNone
    simp [hNone] at hSome
  have hPre : Unaffected fun d : Self F X => Owned n d ∧ d.attributes.wlOutputs ≠ [] :=
    ⟨fun d k h => ⟨hOwned.created d k h.1, h.2⟩, fun d es h => ⟨hOwned.printed d es h.1, h.2⟩⟩
  have hLast : Triple (fun d : Self F X => Owned n d ∧ d.attributes.wlOutputs ≠ [])
      (create answers.createPointer >>= fun pointer => assign fun a => { a with pointer := some pointer })
      (fun _ d => ∃ p, Holds n p d) fun _ => True := by
    refine triple_bind hPre.triple_create fun pointer => triple_modify fun d h => ?_
    obtain ⟨⟨hd, hSome⟩, hPointer⟩ := h
    exact ⟨pointer, ⟨hd.current, hd.wlOutputs, hd.xdgOutputs⟩, rfl, hPointer.trans hd.current, hSome⟩
  intro d hd
  subst hd
  exact hLast d ⟨hc, hFirst⟩

end VirtualPointer

end MirCi.Wayland
