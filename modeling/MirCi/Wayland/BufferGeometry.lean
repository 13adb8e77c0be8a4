import MirCi.Semantics.Run
import MirCi.Wayland.ScreencopyTracker

/-! Buffer events against the buffer that was made. `_frame_buffer` assigns each
field before the next assertion is tested, so an event that is refused may have
changed the geometry already. -/
namespace MirCi.Wayland.ScreencopyTracker

open Python Semantics Effect

variable {X : Type}

/-- The fields describe the buffer, and the mapping has its size. -/
structure Describes (a : ScreencopyTracker X) (buffer : Buffer) : Prop where
  size : a.bufferSize = a.bufferStride * a.bufferHeight
  mapped : ∃ mapping, a.shmData = some mapping ∧ mapping.length = a.bufferSize
  width : a.bufferWidth = buffer.width
  height : a.bufferHeight = buffer.height
  stride : a.bufferStride = buffer.stride

/-- If a buffer exists, the fields describe it. -/
def Consistent (a : ScreencopyTracker X) : Prop := ∀ buffer, a.buffer = some buffer → Describes a buffer

/-- The event is refused before it changes the geometry of the buffer, or repeats it. -/
def Repeats (b : BufferEvent) (buffer : Buffer) : Prop :=
  (buffer.width ≠ 0 ∧ buffer.width ≠ b.width) ∨
    (b.width = buffer.width ∧
      ((buffer.height ≠ 0 ∧ buffer.height ≠ b.height) ∨
        (b.height = buffer.height ∧ b.stride = buffer.stride)))

/-- There is no buffer yet, or the event leaves its geometry alone. -/
def Harmless (a : ScreencopyTracker X) (b : BufferEvent) : Prop :=
  ∀ buffer, a.buffer = some buffer → Repeats b buffer

/-! ### The assertions -/

/-- The fields as the assertions leave them, and whether all of them held. -/
def checkedBuffer (a : ScreencopyTracker X) (width height stride : ℕ) : ScreencopyTracker X :=
  if a.bufferWidth = 0 ∨ a.bufferWidth = width then
    if a.bufferHeight = 0 ∨ a.bufferHeight = height then
      if a.bufferSize = 0 ∨ a.bufferSize = stride * height then
        { a with bufferWidth := width, bufferHeight := height, bufferStride := stride,
                 bufferSize := stride * height }
      else { a with bufferWidth := width, bufferHeight := height, bufferStride := stride }
    else { a with bufferWidth := width }
  else a

theorem checkBuffer_state (c : Self X) (width height stride : ℕ) :
    state ((checkBuffer width height stride).run c) =
      { c with attributes := checkedBuffer c.attributes width height stride } := by
  unfold checkedBuffer
  split_ifs with hWidth hHeight hSize
  · simp [checkBuffer, require, assign, hWidth, hHeight, hSize]
  · simp [checkBuffer, require, assign, hWidth, hHeight, hSize]
  · simp [checkBuffer, require, assign, hWidth, hHeight]
  · simp [checkBuffer, require, assign, hWidth]

/-- All assertions held: the fields are the event's. -/
theorem checkBuffer_ok {c t : Self X} {width height stride : ℕ}
    (h : (checkBuffer width height stride).run c = .ok () t) :
    t.attributes = { c.attributes with bufferWidth := width, bufferHeight := height,
                                       bufferStride := stride, bufferSize := stride * height } := by
  simp only [checkBuffer, run_bind_ok, EStateM.run_get, require_run_ok, assign_run,
    EStateM.Result.ok.injEq] at h
  obtain ⟨_, _, ⟨rfl, rfl⟩, _, _, ⟨-, rfl⟩, _, _, ⟨-, rfl⟩, _, _, ⟨-, rfl⟩, _, _, ⟨-, rfl⟩, _, _,
    ⟨-, rfl⟩, -, rfl⟩ := h
  rfl

/-- With a buffer, the event comes to its assertions alone. -/
theorem frameBuffer_of_buffer {c : Self X} {buffer : Buffer} (h : c.attributes.buffer = some buffer)
    (b : BufferEvent) :
    (state ((frameBuffer b).run c)) =
      { c with attributes := checkedBuffer c.attributes b.width b.height b.stride } := by
  have hKept : (checkedBuffer c.attributes b.width b.height b.stride).buffer = some buffer := by
    unfold checkedBuffer
    split_ifs <;> exact h
  have hCheck := checkBuffer_state c b.width b.height b.stride
  rw [frameBuffer, EStateM.run_bind]
  cases hRun : (checkBuffer b.width b.height b.stride).run c with
  | error e t =>
      rw [hRun] at hCheck
      exact hCheck
  | ok u t =>
      rw [hRun, state_ok] at hCheck
      subst hCheck
      simp [when, hKept]

theorem describes_checked_iff {a : ScreencopyTracker X} {buffer : Buffer} (h : Describes a buffer)
    (b : BufferEvent) :
    Describes (checkedBuffer a b.width b.height b.stride) buffer ↔ Repeats b buffer := by
  obtain ⟨hSize, ⟨mapping, hMapping, hLength⟩, hWidth, hHeight, hStride⟩ := h
  unfold checkedBuffer Repeats
  rw [← hWidth, ← hHeight, ← hStride]
  split_ifs with hw hh hs
  · constructor
    · rintro ⟨-, -, hSameWidth, hSameHeight, hSameStride⟩
      exact .inr ⟨hSameWidth.trans hWidth.symm, .inr ⟨hSameHeight.trans hHeight.symm,
        hSameStride.trans hStride.symm⟩⟩
    · rintro (⟨hSet, hOther⟩ | ⟨hSameWidth, ⟨hSet, hOther⟩ | ⟨hSameHeight, hSameStride⟩⟩)
      · exact absurd hw (by simp [hSet, hOther])
      · exact absurd hh (by simp [hSet, hOther])
      · refine ⟨rfl, ⟨mapping, hMapping, ?_⟩, hSameWidth.trans hWidth, hSameHeight.trans hHeight,
          hSameStride.trans hStride⟩
        rw [hLength, hSize, hSameHeight, hSameStride]
  · -- the stride is assigned although the size it gives is refused
    constructor
    · rintro ⟨hSame, -⟩
      exact absurd (.inr hSame) hs
    · rintro (⟨hSet, hOther⟩ | ⟨-, ⟨hSet, hOther⟩ | ⟨hSameHeight, hSameStride⟩⟩)
      · exact absurd hw (by simp [hSet, hOther])
      · exact absurd hh (by simp [hSet, hOther])
      · exact absurd (.inr (by rw [hSize, hSameHeight, hSameStride])) hs
  · rw [not_or] at hh
    constructor
    · rintro ⟨-, -, hSameWidth, -⟩
      exact .inr ⟨hSameWidth.trans hWidth.symm, .inl hh⟩
    · rintro (⟨hSet, hOther⟩ | ⟨hSameWidth, -⟩)
      · exact absurd hw (by simp [hSet, hOther])
      · exact ⟨hSize, ⟨mapping, hMapping, hLength⟩, hSameWidth.trans hWidth, hHeight, hStride⟩
  · rw [not_or] at hw
    exact iff_of_true ⟨hSize, ⟨mapping, hMapping, hLength⟩, hWidth, hHeight, hStride⟩ (.inl hw)

/-! ### The first buffer -/

/-- No buffer, and the fields of the event that asks for one. -/
structure Unmapped (b : BufferEvent) (a : ScreencopyTracker X) : Prop where
  buffer : a.buffer = none
  width : a.bufferWidth = b.width
  height : a.bufferHeight = b.height
  stride : a.bufferStride = b.stride
  size : a.bufferSize = b.stride * b.height

theorem consistent_of_none {a : ScreencopyTracker X} (h : a.buffer = none) : Consistent a := by
  intro buffer hBuffer
  rw [h] at hBuffer
  cases hBuffer

/-- The mapping of the event's size is there, and no buffer yet. -/
def Mapped (b : BufferEvent) (a : ScreencopyTracker X) : Prop :=
  Unmapped b a ∧ ∃ mapping, a.shmData = some mapping ∧ mapping.length = b.stride * b.height

theorem keeps_shmOpen_unmapped {b : BufferEvent} (answer : ShmOpen) :
    Keeps (fun c : Self X => Unmapped b c.attributes) (shmOpen answer) := by
  refine keeps_bind (keeps_modify fun c h => ?_) fun _ => keeps_get_bind fun _ => ?_
  · exact ⟨h.buffer, h.width, h.height, h.stride, h.size⟩
  · exact keeps_bind keeps_require fun _ => keeps_require

theorem mmap_mapped {b : BufferEvent} (raises : Option Exc) :
    Triple (fun c : Self X => Unmapped b c.attributes) (mmap (b.stride * b.height) raises)
      (fun _ c => Mapped b c.attributes) (fun c => Consistent c.attributes) := by
  have hStop (c : Self X) (h : Unmapped b c.attributes) : Consistent c.attributes :=
    consistent_of_none h.buffer
  refine triple_after_keeps keeps_outside hStop fun _ => ?_
  refine triple_after_keeps keeps_outside hStop fun _ => triple_modify fun c h => ?_
  exact ⟨⟨h.buffer, h.width, h.height, h.stride, h.size⟩, _, rfl, rfl⟩

/-- Whatever fails on the way, no buffer is left that the fields do not describe. -/
theorem mapBuffer_consistent (b : BufferEvent) :
    Triple (fun c : Self X => Unmapped b c.attributes) (mapBuffer b)
      (fun _ c => Consistent c.attributes) (fun c => Consistent c.attributes) := by
  have hStop (c : Self X) (h : Unmapped b c.attributes) : Consistent c.attributes :=
    consistent_of_none h.buffer
  have hStopMapped (c : Self X) (h : Mapped b c.attributes) : Consistent c.attributes :=
    consistent_of_none h.1.buffer
  refine triple_get_bind fun _ => triple_after_keeps keeps_require hStop fun _ => ?_
  refine triple_after_keeps (keeps_shmOpen_unmapped _) hStop fun _ => ?_
  refine triple_after_keeps keeps_outside hStop fun _ => triple_bind (mmap_mapped _) fun _ => ?_
  refine triple_after_keeps keeps_create hStopMapped fun _ => ?_
  refine triple_after_keeps keeps_create hStopMapped fun proxy => ?_
  refine triple_bind (?_ : Triple _ _ (fun _ (c : Self X) => Consistent c.attributes) _) fun _ => ?_
  · refine triple_modify fun c h buffer hBuffer => ?_
    obtain ⟨hUnmapped, mapping, hMapping, hLength⟩ := h
    obtain rfl := Option.some.inj hBuffer
    refine ⟨?_, ⟨mapping, hMapping, ?_⟩, hUnmapped.width, hUnmapped.height, hUnmapped.stride⟩
    · exact hUnmapped.size.trans (by rw [hUnmapped.stride, hUnmapped.height])
    · exact hLength.trans hUnmapped.size.symm
  · exact triple_of_keeps keeps_outside (fun _ _ h => h) fun _ h => h

theorem consistent_frameBuffer_of_none {c : Self X} (h : c.attributes.buffer = none) (b : BufferEvent) :
    Consistent (state ((frameBuffer b).run c)).attributes := by
  have hCheck := checkBuffer_state c b.width b.height b.stride
  have hNone (t : ScreencopyTracker X)
      (ht : t = checkedBuffer c.attributes b.width b.height b.stride) : t.buffer = none := by
    rw [ht]
    unfold checkedBuffer
    split_ifs <;> exact h
  rw [frameBuffer, EStateM.run_bind]
  cases hRun : (checkBuffer b.width b.height b.stride).run c with
  | error e t =>
      rw [hRun] at hCheck
      exact consistent_of_none (hNone t.attributes (congrArg Client.attributes hCheck))
  | ok u t =>
      have hFields := checkBuffer_ok hRun
      have hUnmapped : Unmapped b t.attributes := by
        rw [hFields]
        exact ⟨h, rfl, rfl, rfl, rfl⟩
      have hWhen : (when (t.attributes.buffer = none) (mapBuffer b) : Method (Self X) Unit) = mapBuffer b :=
        if_pos hUnmapped.buffer
      change Consistent (state ((when (t.attributes.buffer = none) (mapBuffer b)).run t)).attributes
      rw [hWhen]
      exact (mapBuffer_consistent b).state hUnmapped

/-- One event, whether it is refused or not. -/
theorem consistent_deliver_iff {c : Self X} (h : Consistent c.attributes) (b : BufferEvent) :
    Consistent (state ((deliver frameBuffer b).run c)).attributes ↔ Harmless c.attributes b := by
  have hPrint : (state ((deliver frameBuffer b).run c)).attributes =
      (state ((frameBuffer b).run c)).attributes := by
    rw [deliver, run_tryCatch]
    cases (frameBuffer b).run c <;> rfl
  rw [hPrint]
  cases hBuffer : c.attributes.buffer with
  | none =>
      refine iff_of_true (consistent_frameBuffer_of_none hBuffer b) fun buffer hSome => ?_
      rw [hBuffer] at hSome
      cases hSome
  | some buffer =>
      have hKept : (checkedBuffer c.attributes b.width b.height b.stride).buffer = some buffer := by
        unfold checkedBuffer
        split_ifs <;> exact hBuffer
      rw [frameBuffer_of_buffer hBuffer]
      simp only [Consistent, Harmless, hKept, hBuffer, Option.some.injEq, forall_eq']
      exact describes_checked_iff (h buffer hBuffer) b

/-- From any tracker without a buffer, the fields describe the buffer after every event
exactly when no event changes the geometry of a buffer that is there. -/
theorem consistent_iff (c : Self X) (h : c.attributes.buffer = none) (events : List BufferEvent) :
    (∀ k ≤ events.length, Consistent (handled frameBuffer c (events.take k)).attributes) ↔
      ∀ k (hk : k < events.length),
        Harmless (handled frameBuffer c (events.take k)).attributes events[k] := by
  have hAlways := always_iff
    (fun k => Consistent (handled frameBuffer c (events.take k)).attributes)
    (fun k => ∀ hk : k < events.length,
      Harmless (handled frameBuffer c (events.take k)).attributes events[k])
    (consistent_of_none h) fun k hk hHolds => by
      rw [List.take_succ_eq_append_getElem hk, handled_append, handled_singleton]
      rw [consistent_deliver_iff hHolds]
      exact ⟨fun hHarmless _ => hHarmless, fun hHarmless => hHarmless hk⟩
  rw [hAlways]
  exact ⟨fun hAll k hk => hAll k hk hk, fun hAll k _ => hAll k⟩

/-- A tracker that has bound the shared memory global and nothing else. -/
def bound : Self Unit := { attributes := { shm := some ⟨none, 0⟩, extra := () } }

/-- A buffer event whose mapping succeeds. -/
def bufferOf (width height stride : ℕ) : BufferEvent where
  format := 1
  width
  height
  stride
  shmOpen := ⟨1, 3, 0, ""⟩

theorem consistent_iff_same :
    (∀ k ≤ [bufferOf 1920 1080 7680, bufferOf 1920 1080 7680].length,
        Consistent (handled frameBuffer bound
          ([bufferOf 1920 1080 7680, bufferOf 1920 1080 7680].take k)).attributes) ↔
      ∀ k (hk : k < [bufferOf 1920 1080 7680, bufferOf 1920 1080 7680].length),
        Harmless (handled frameBuffer bound
            ([bufferOf 1920 1080 7680, bufferOf 1920 1080 7680].take k)).attributes
          [bufferOf 1920 1080 7680, bufferOf 1920 1080 7680][k] :=
  consistent_iff bound rfl _

/-- The second event is refused, and its stride stays. -/
theorem refused_stride_stays :
    (handled frameBuffer bound [bufferOf 1920 1080 7680, bufferOf 1920 1080 8192]).printed =
        [{ cls := .assertionError, text := "Buffer size changed" }] ∧
      ¬Consistent (handled frameBuffer bound
        [bufferOf 1920 1080 7680, bufferOf 1920 1080 8192]).attributes := by
  refine ⟨by decide +kernel, fun h => ?_⟩
  have hBuffer : (handled frameBuffer bound
      [bufferOf 1920 1080 7680, bufferOf 1920 1080 8192]).attributes.buffer =
        some ⟨⟨none, 1⟩, 1920, 1080, 7680, 1⟩ := by decide +kernel
  have hStride : (handled frameBuffer bound
      [bufferOf 1920 1080 7680, bufferOf 1920 1080 8192]).attributes.bufferStride = 8192 := by
    decide +kernel
  have hSame := (h _ hBuffer).stride
  rw [hStride] at hSame
  cases hSame

end MirCi.Wayland.ScreencopyTracker
