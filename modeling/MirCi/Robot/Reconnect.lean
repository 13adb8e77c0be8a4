import MirCi.Robot.FailedConnect
import MirCi.Semantics.Session
import MirCi.Wayland.Ownership

/-! Library instances that are connected and disconnected again. Whether a client is
connected is read off one attribute, and some of the others outlive the connection. -/
namespace MirCi.Robot

open Python Semantics Effect Wayland
open scoped List

/-- A library over a client. -/
structure ClientLibrary (A Event Q : Type) where
  methods : Methods A Event Q
  connect : Connecting Q → Closing Event → Method (Client A) Unit
  disconnect : Closing Event → Method (Client A) Unit

/-- What happens to an instance, with the answers to the calls. -/
inductive Use (Q Event : Type) where
  | connect (connecting : Connecting Q) (closing : Closing Event)
  | disconnect (closing : Closing Event)
  /-- a turn of the event loop -/
  | turn (a : Dispatching Event)
  /-- a roundtrip of a keyword -/
  | roundtrip (reply : Reply Event)

namespace Use

variable {Q Event : Type}

def session : Use Q Event → SessionAction
  | .connect .. => .opens
  | .disconnect _ => .closes
  | .turn _ | .roundtrip _ => .within

end Use

/-- The state behind a call that returns. -/
def returned {σ α : Type} : EStateM.Result Exc σ α → Option σ
  | .ok _ s => some s
  | .error _ _ => none

theorem returned_eq_some {σ : Type} {r : EStateM.Result Exc σ Unit} {s : σ} :
    returned r = some s ↔ r = .ok () s := by
  cases r <;> simp [returned]

theorem returned_of_value {σ : Type} {r : EStateM.Result Exc σ Unit} (h : (value r).isSome = true) :
    returned r = some (state r) := by
  cases r with
  | ok => rfl
  | error => cases h

namespace ClientLibrary

variable {A Event Q : Type}

/-- The calls of `connect` and `disconnect` return. Only a connected display dispatches events. -/
def step (lib : ClientLibrary A Event Q) (c : Client A) : Use Q Event → Option (Client A)
  | .connect connecting closing => returned ((lib.connect connecting closing).run c)
  | .disconnect closing => returned ((lib.disconnect closing).run c)
  | .turn a => some (state ((lib.methods.turn a).run c))
  | .roundtrip reply =>
      if c.display.current = none then none else some (state ((receive lib.methods.handle reply).run c))

theorem step_connect {lib : ClientLibrary A Event Q} {c : Client A} {connecting : Connecting Q}
    {closing : Closing Event} (h : (value ((lib.connect connecting closing).run c)).isSome = true) :
    lib.step c (.connect connecting closing) = some (state ((lib.connect connecting closing).run c)) :=
  returned_of_value h

theorem step_disconnect {lib : ClientLibrary A Event Q} {c : Client A} {closing : Closing Event}
    (h : (value ((lib.disconnect closing).run c)).isSome = true) :
    lib.step c (.disconnect closing) = some (state ((lib.disconnect closing).run c)) := returned_of_value h

theorem roundtrip_eq_some {lib : ClientLibrary A Event Q} {c t : Client A} {reply : Reply Event} :
    lib.step c (.roundtrip reply) = some t ↔
      c.display.current ≠ none ∧ state ((receive lib.methods.handle reply).run c) = t := by
  rw [step]
  split
  · rename_i hNone
    simp [hNone]
  · rename_i hSome
    simp [hSome]

end ClientLibrary

/-- Behind `connect` the display is connected, what the next keyword uses is of that connection, and
no second connection was opened. -/
structure Connects {A : Type} (Uses : ℕ → A → Prop) (s t : Client A) : Prop where
  current : ∃ n, t.display.current = some n ∧ Uses n t.attributes
  opened : s.display.current ≠ none → t.display.opened = s.display.opened

section Screencopy

open ScreencopyTracker

def screencopyLibrary (X : Type) : ClientLibrary (ScreencopyTracker X) FrameEvent Copying where
  methods := ScreencopyTracker.methods
  connect := Screencopy.connect
  disconnect := Screencopy.disconnect

/-- The buffer, the frame and the shared memory were made on this connection. -/
structure ScreencopyUses {X : Type} (n : ℕ) (a : ScreencopyTracker X) : Prop where
  buffer : ∃ buffer, a.buffer = some buffer ∧ buffer.proxy.connection = some n
  frame : ∃ frame, a.frame = some frame ∧ frame.connection = some n
  shmData : ∃ mapping, a.shmData = some mapping ∧ mapping.connection = some n

variable {X : Type} {c s t : Self X} {n : ℕ} {b : Buffer} {connecting : Connecting Copying}
  {closing : Closing FrameEvent}

/-- A tracker as it is made. -/
def tracker (extra : X) : Self X where
  attributes := { extra }

theorem uses_of_holds (h : Holds n b c) : ScreencopyUses n c.attributes where
  buffer := ⟨b, h.buffer, h.owned.buffer b h.buffer⟩
  frame := by
    obtain ⟨frame, hFrame⟩ := Option.ne_none_iff_exists'.mp (h.owned.has_frame trivial)
    exact ⟨frame, hFrame, h.owned.frame frame hFrame⟩
  shmData := by
    obtain ⟨mapping, hMapping⟩ := Option.ne_none_iff_exists'.mp (h.owned.mapped (by simp [h.buffer]))
    exact ⟨mapping, hMapping, h.owned.shmData mapping hMapping⟩

theorem handle_holds (event : FrameEvent) : Keeps (Holds n b : Self X → Prop) (handle event) := by
  refine capturing_holds.handle (fun c _ _ _ _ _ ⟨h, hBuffer⟩ => ⟨?_, hBuffer⟩) event
  exact h.of_same rfl rfl rfl rfl rfl

/-- A client whose shared memory is mapped takes itself for connected. -/
theorem screencopy_connect_of_mapped (h : c.attributes.shmData ≠ none) :
    (Screencopy.connect connecting closing).run c = .ok () c := by
  change (when (c.attributes.shmData = none) _).run c = _
  rw [when, if_neg h]
  rfl

/-- The first connection makes all that is used. -/
theorem holds_of_connect {extra : X}
    (h : (Screencopy.connect connecting closing).run (tracker extra) = .ok () t) : ∃ b, Holds 0 b t := by
  rw [screencopy_connect_run rfl] at h
  have hEstablish : Triple (Owned 0 False : Self X → Prop) (methods.establish connecting)
      (fun _ c => ∃ b, Holds 0 b c) fun _ => True := by
    refine Methods.triple_establish_of unaffected_owned (fun _ _ h => ?_)
      (fun event => capturing_owned.registryGlobal event) (triple_copyFrame _) fun _ _ h => ?_
    · exact h.of_same rfl rfl rfl rfl rfl
    · obtain ⟨b, h, hBuffer⟩ := h
      exact ⟨b, h.of_same rfl rfl rfl rfl rfl, hBuffer⟩
  refine hEstablish.of_ok ?_ (Methods.connect_run_ok h)
  exact ⟨rfl, Nat.one_pos, by simp [tracker, Client.opened], False.elim, by simp [tracker, Client.opened],
    by simp [tracker, Client.opened], by simp [tracker, Client.opened]⟩

/-- What a disconnected tracker keeps is of the connection that is gone. -/
theorem gone_of_disconnect (hHolds : Holds n b s) (h : (methods.disconnect closing).run s = .ok () t) : Gone t := by
  have hDisconnect : Triple (Holds n b : Self X → Prop) (methods.disconnect closing)
      (fun _ => Gone) fun _ => True := by
    refine Methods.triple_disconnect_of (S := fun c => c.display.current = none ∧ Stale c ∧
      c.attributes.buffer ≠ none) capturing_holds.toUnaffected (fun _ _ ⟨h, hBuffer⟩ => ⟨?_, hBuffer⟩)
      handle_holds (fun c hc => ⟨rfl, ?_, by simp [Client.closed, hc.buffer]⟩)
      (triple_modify fun _ h => ⟨h.1, h.2.1, h.2.2, rfl⟩)
    · exact h.of_same rfl rfl rfl rfl rfl
    · obtain ⟨frame, hFrame, hConnection⟩ := (uses_of_holds hc).frame
      exact ⟨frame, hFrame, by simp [Client.closed, hConnection]⟩
  exact hDisconnect.of_ok hHolds h

/-- A tracker whose connection is gone does not connect again: it has a frame that it cannot destroy. -/
theorem gone_not_connected (hGone : Gone s) (hRefused : connecting.connected.destroy ≠ none) :
    (Screencopy.connect connecting closing).run s ≠ .ok () t := by
  intro h
  rw [screencopy_connect_run hGone.shmData] at h
  let HasFrame : Self X → Prop := fun c => c.attributes.frame ≠ none
  have hUnaffected : Unaffected HasFrame := ⟨fun _ _ h => h, fun _ _ h => h⟩
  have hCopy : Triple HasFrame (methods.connected connecting.connected) (fun _ _ => False) fun _ => True :=
    (triple_copyFrame_refused (fun _ h => h) hRefused).mono (fun _ _ h => h) fun _ _ => trivial
  have hEstablish : Triple HasFrame (methods.establish connecting) (fun _ _ => False) fun _ => True :=
    Methods.triple_establish_of hUnaffected (fun _ _ h => h)
      (fun event => keeps_registryGlobal_of hUnaffected (fun _ _ _ _ h => h) event) hCopy fun _ _ h => h
  have hFrame : HasFrame s.opened := hGone.stale.has_frame
  exact hEstablish.of_ok hFrame (Methods.connect_run_ok h)

/-- The answers to each `copy_frame` of a step. -/
def copies : Use Copying FrameEvent → List Copying
  | .connect connecting _ => [connecting.connected]
  | .disconnect closing => closing.roundtrip.events.filterMap copyingOf
  | .turn a => a.dispatch.events.filterMap copyingOf
  | .roundtrip reply => reply.events.filterMap copyingOf

/-- The binding's part. It destroys the objects of a connection that is closed, and a request on a
destroyed object raises: so does `destroy` of a frame that is not of this connection. -/
def Expires (c : Self X) (a : Use Copying FrameEvent) : Prop :=
  Stale c → ∀ copying ∈ copies a, copying.destroy ≠ none

/-- The three stages of a tracker. -/
inductive Stage (extra : X) : Self X → Prop where
  | made : Stage extra (tracker extra)
  | holds {n : ℕ} {b : Buffer} {c : Self X} (h : Holds n b c) : Stage extra c
  | gone {c : Self X} (h : Gone c) : Stage extra c

theorem step_made {extra : X} {a : Use Copying FrameEvent}
    (hStep : (screencopyLibrary X).step (tracker extra) a = some t) :
    Stage extra t ∧ (a.session = .opens → Connects ScreencopyUses (tracker extra) t) := by
  cases a with
  | connect connecting closing =>
      obtain ⟨b, hHolds⟩ := holds_of_connect (returned_eq_some.mp hStep)
      exact ⟨.holds hHolds, fun _ => ⟨⟨0, hHolds.owned.current, uses_of_holds hHolds⟩, fun h => absurd rfl h⟩⟩
  | disconnect closing =>
      have hRun : (Screencopy.disconnect closing).run (tracker extra) = .ok () t := returned_eq_some.mp hStep
      rw [screencopy_disconnect_run, if_neg (fun h => h rfl)] at hRun
      cases hRun
      exact ⟨.made, fun h => by cases h⟩
  | turn a =>
      obtain rfl := Option.some.inj hStep
      exact ⟨.made, fun h => by cases h⟩
  | roundtrip reply => cases hStep

/-- A connected tracker stays so until it is disconnected, and does not connect again. -/
theorem step_holds {extra : X} {a : Use Copying FrameEvent} (hHolds : Holds n b s)
    (hStep : (screencopyLibrary X).step s a = some t) :
    Stage extra t ∧ (a.session = .opens → Connects ScreencopyUses s t) := by
  have hMapped := hHolds.owned.mapped (by simp [hHolds.buffer])
  cases a with
  | connect connecting closing =>
      have hRun := (screencopy_connect_of_mapped hMapped).symm.trans (returned_eq_some.mp hStep)
      cases hRun
      exact ⟨.holds hHolds, fun _ => ⟨⟨n, hHolds.owned.current, uses_of_holds hHolds⟩, fun _ => rfl⟩⟩
  | disconnect closing =>
      have hRun : (Screencopy.disconnect closing).run s = .ok () t := returned_eq_some.mp hStep
      rw [screencopy_disconnect_run, if_pos hMapped] at hRun
      exact ⟨.gone (gone_of_disconnect hHolds hRun), fun h => by cases h⟩
  | turn a =>
      cases hStep
      refine ⟨.holds ((capturing_holds.turn (fun c writers ⟨h, hBuffer⟩ => ⟨?_, hBuffer⟩)
        fun event _ => handle_holds event) s hHolds), fun h => by cases h⟩
      exact h.of_same rfl rfl rfl rfl rfl
  | roundtrip reply =>
      obtain ⟨-, rfl⟩ := ClientLibrary.roundtrip_eq_some.mp hStep
      exact ⟨.holds (capturing_holds.receive (fun event _ => handle_holds event) s hHolds), fun h => by cases h⟩

/-- A tracker whose connection is gone stays so: its frame is refused wherever one is asked for. -/
theorem step_gone {extra : X} {a : Use Copying FrameEvent} (hGone : Gone s) (hExpires : Expires s a)
    (hStep : (screencopyLibrary X).step s a = some t) :
    Stage extra t ∧ (a.session = .opens → Connects ScreencopyUses s t) := by
  have hRefused := hExpires hGone.stale
  cases a with
  | connect connecting closing =>
      exact absurd (returned_eq_some.mp hStep)
        (gone_not_connected hGone (hRefused connecting.connected (List.mem_singleton_self _)))
  | disconnect closing =>
      have hRun : (Screencopy.disconnect closing).run s = .ok () t := returned_eq_some.mp hStep
      rw [screencopy_disconnect_run, if_neg (fun h => h hGone.shmData)] at hRun
      cases hRun
      exact ⟨.gone hGone, fun h => by cases h⟩
  | turn a =>
      cases hStep
      have hHandle : ∀ event ∈ a.dispatch.events, Keeps (Gone : Self X → Prop) (handle event) :=
        fun event hEvent => gone_handle event fun copying hCopying =>
          hRefused copying (List.mem_filterMap.mpr ⟨event, hEvent, hCopying⟩)
      exact ⟨.gone (unaffected_gone.turn (fun _ _ h => ⟨h.current, h.stale, h.buffer, h.shmData⟩) hHandle s hGone),
        fun h => by cases h⟩
  | roundtrip reply =>
      obtain ⟨hConnected, -⟩ := ClientLibrary.roundtrip_eq_some.mp hStep
      exact absurd hGone.current hConnected

/-- A step leads from stage to stage, and a `connect` that returns leaves a tracker that works. -/
theorem stage_step {extra : X} {a : Use Copying FrameEvent} (hStage : Stage extra s) (hExpires : Expires s a)
    (hStep : (screencopyLibrary X).step s a = some t) :
    Stage extra t ∧ (a.session = .opens → Connects ScreencopyUses s t) := by
  cases hStage with
  | made => exact step_made hStep
  | holds hHolds => exact step_holds hHolds hStep
  | gone hGone => exact step_gone hGone hExpires hStep

/-- Every run of a tracker goes through these stages. -/
theorem stage_run {extra : X} {uses : List (Use Copying FrameEvent)}
    (run : Runs (screencopyLibrary X).step Expires (tracker extra) uses t) : Stage extra t :=
  run.invariant (Stage extra) .made fun _ _ _ hStage hExpires hStep => (stage_step hStage hExpires hStep).1

/-- Each `connect` of a tracker that returns leaves it on a connection with all that it uses. -/
theorem screencopy_connects {extra : X} {uses : List (Use Copying FrameEvent)}
    (run : Runs (screencopyLibrary X).step Expires (tracker extra) uses t)
    {before after : List (Use Copying FrameEvent)} {a : Use Copying FrameEvent} {u : Self X}
    (hUses : uses = before ++ a :: after) (hOpens : a.session = .opens)
    (hBefore : Runs (screencopyLibrary X).step Expires (tracker extra) before s)
    (hStep : (screencopyLibrary X).step s a = some u) : Connects ScreencopyUses s u := by
  subst hUses
  obtain ⟨middle, hFirst, hLast⟩ := run.split
  obtain rfl := hFirst.unique hBefore
  obtain ⟨_, hExpires, -, -⟩ := hLast.cons_inv
  exact (stage_step (stage_run hBefore) hExpires hStep).2 hOpens

end Screencopy

section WaylandHid

open VirtualPointer

variable {F : Type} {A : Arithmetic F} {c s t : WaylandHid.Self F} {n : ℕ} {p : Proxy}
  {connecting : Connecting Outputs} {closing : Closing PointerEvent}

def waylandHidLibrary (A : Arithmetic F) :
    ClientLibrary (VirtualPointer F (Option Position)) PointerEvent Outputs where
  methods := VirtualPointer.methods A
  connect := WaylandHid.connect A
  disconnect := WaylandHid.disconnect A

/-- The pointer, the first output and the one whose size is cached were made on this connection. -/
structure WaylandHidUses (n : ℕ) (a : VirtualPointer F (Option Position)) : Prop where
  pointer : ∃ pointer, a.pointer = some pointer ∧ pointer.connection = some n
  wlOutput : ∃ output, a.wlOutputs.head? = some output ∧ output.connection = some n
  xdgOutput : ∀ output ∈ a.xdgOutputs.head?, output.connection = some n

/-- A hand as it is made. -/
def hid (outputScale : F) : WaylandHid.Self F where
  attributes := { outputScale, extra := none }

theorem hidUses_of_holds (h : Holds n p c) : WaylandHidUses n c.attributes where
  pointer := ⟨p, h.pointer, h.connection⟩
  wlOutput := by
    obtain ⟨output, hOutput⟩ := Option.ne_none_iff_exists'.mp
      (fun hNone => h.wlOutputs (List.head?_eq_none_iff.mp hNone))
    exact ⟨output, hOutput, h.owned.wlOutputs output (List.mem_of_mem_head? hOutput)⟩
  xdgOutput output hOutput := h.owned.xdgOutputs output (List.mem_of_mem_head? hOutput)

theorem holds_of_first_connect {outputScale : F}
    (h : (WaylandHid.connect A connecting closing).run (hid outputScale) = .ok () t) : ∃ p, Holds 0 p t := by
  rw [waylandHid_connect_run rfl] at h
  have hEstablish : Triple (Owned 0 : WaylandHid.Self F → Prop) ((methods A).establish connecting)
      (fun _ c => ∃ p, Holds 0 p c) fun _ => True := by
    refine Methods.triple_establish_of following_owned.toUnaffected
      (fun _ _ h => ⟨h.current, h.wlOutputs, h.xdgOutputs⟩) (fun event => following_owned.registryGlobal event)
      (triple_connected_owned _) fun _ _ ⟨p, h⟩ => ⟨p, ?_, h.pointer, h.connection, h.wlOutputs⟩
    exact ⟨h.owned.current, h.owned.wlOutputs, h.owned.xdgOutputs⟩
  exact hEstablish.of_ok ⟨rfl, by simp [hid, Client.opened], by simp [hid, Client.opened]⟩
    (Methods.connect_run_ok h)

/-- The pointer outlives the connection. -/
theorem left_of_disconnect (hPointer : s.attributes.pointer ≠ none)
    (h : ((methods A).disconnect closing).run s = .ok () t) : Left t := by
  have hDisconnect : Triple (fun c : WaylandHid.Self F => c.attributes.pointer ≠ none)
      ((methods A).disconnect closing) (fun _ => Left) fun _ => True :=
    Methods.triple_disconnect_of unmoved_pointer.toUnaffected (fun _ _ h => h) (keeps_handle unmoved_pointer)
      (fun _ h => ⟨h, rfl⟩) (triple_pure () fun _ h => h)
  exact hDisconnect.of_ok hPointer h

theorem not_connects_of_left (h : Left t) : ¬ Connects WaylandHidUses s t := by
  rintro ⟨⟨n, hCurrent, -⟩, -⟩
  rw [h.left] at hCurrent
  cases hCurrent

/-- A hand works on its first connection, and never connects again. -/
def waylandHidSessions (A : Arithmetic F) (outputScale : F) :
    Sessions (waylandHidLibrary A).step Use.session (hid outputScale) (Connects WaylandHidUses) where
  Live c := ∃ n p, Holds n p c
  Dead := Left
  start_opens a t hKind hStep := by
    cases a with
    | connect connecting closing =>
        obtain ⟨p, hHolds⟩ := holds_of_first_connect (returned_eq_some.mp hStep)
        exact ⟨⟨⟨0, hHolds.owned.current, hidUses_of_holds hHolds⟩, fun h => absurd rfl h⟩, 0, p, hHolds⟩
    | disconnect | turn | roundtrip => cases hKind
  start_stays a t hKind hStep := by
    cases a with
    | connect => exact absurd rfl hKind
    | disconnect closing =>
        have hRun : (WaylandHid.disconnect A closing).run (hid outputScale) = .ok () t :=
          returned_eq_some.mp hStep
        rw [waylandHid_disconnect_run, if_neg (fun h => h rfl)] at hRun
        cases hRun
        rfl
    | turn a => exact (Option.some.inj hStep).symm
    | roundtrip reply => cases hStep
  live_opens s a t hLive hKind hStep := by
    obtain ⟨n, p, hHolds⟩ := hLive
    cases a with
    | connect connecting closing =>
        have hPointer : s.attributes.pointer ≠ none := by simp [hHolds.pointer]
        have hRun := (WaylandHid.connect_run_of_pointer hPointer).symm.trans (returned_eq_some.mp hStep)
        cases hRun
        exact ⟨⟨⟨n, hHolds.owned.current, hidUses_of_holds hHolds⟩, fun _ => rfl⟩, n, p, hHolds⟩
    | disconnect | turn | roundtrip => cases hKind
  live_closes s a t hLive hKind hStep := by
    obtain ⟨n, p, hHolds⟩ := hLive
    cases a with
    | disconnect closing =>
        have hPointer : s.attributes.pointer ≠ none := by simp [hHolds.pointer]
        have hRun : (WaylandHid.disconnect A closing).run s = .ok () t := returned_eq_some.mp hStep
        rw [waylandHid_disconnect_run, if_pos hPointer] at hRun
        exact left_of_disconnect hPointer hRun
    | connect | turn | roundtrip => cases hKind
  live_within s a t hLive hKind hStep := by
    obtain ⟨n, p, hHolds⟩ := hLive
    refine ⟨n, p, ?_⟩
    cases a with
    | connect | disconnect => cases hKind
    | turn a =>
        cases hStep
        refine (following_holds.turn (fun c writers h => ⟨?_, h.pointer, h.connection, h.wlOutputs⟩)
          fun event _ => following_holds.handle event) s hHolds
        exact ⟨h.owned.current, h.owned.wlOutputs, h.owned.xdgOutputs⟩
    | roundtrip reply =>
        obtain ⟨-, rfl⟩ := ClientLibrary.roundtrip_eq_some.mp hStep
        exact following_holds.receive (fun event _ => following_holds.handle event) s hHolds
  dead_opens s a t hLeft hKind hStep := by
    cases a with
    | connect connecting closing =>
        have hRun := (WaylandHid.connect_run_of_pointer hLeft.pointer).symm.trans (returned_eq_some.mp hStep)
        cases hRun
        exact ⟨not_connects_of_left hLeft, hLeft⟩
    | disconnect | turn | roundtrip => cases hKind
  dead_stays s a t hLeft hKind hStep := by
    cases a with
    | connect => exact absurd rfl hKind
    | disconnect closing =>
        have hRun : (WaylandHid.disconnect A closing).run s = .ok () t := returned_eq_some.mp hStep
        rw [waylandHid_disconnect_run, if_pos hLeft.pointer] at hRun
        exact left_of_disconnect hLeft.pointer hRun
    | turn a =>
        cases hStep
        exact (following_left.turn (fun _ _ h => ⟨h.pointer, h.left⟩) fun event _ => following_left.handle event)
          s hLeft
    | roundtrip reply =>
        obtain ⟨hConnected, -⟩ := ClientLibrary.roundtrip_eq_some.mp hStep
        exact absurd hLeft.left hConnected

end WaylandHid

/-- In every run of one instance, each `connect` that returns leaves the client on a connection with all
that it uses: of a tracker in every run, of a hand just when none of them comes behind a `disconnect`
that comes behind another `connect`. -/
theorem reconnects_iff {F : Type} (A : Arithmetic F) (outputScale : F) {X : Type} (extra : X) :
    (∀ uses t, Runs (screencopyLibrary X).step Expires (tracker extra) uses t →
      ∀ before a after s u, uses = before ++ a :: after → a.session = .opens →
        Runs (screencopyLibrary X).step Expires (tracker extra) before s →
        (screencopyLibrary X).step s a = some u → Connects ScreencopyUses s u) ∧
    ∀ uses t, Runs (waylandHidLibrary A).step Any (hid outputScale) uses t →
      ((∀ before a after s u, uses = before ++ a :: after → a.session = .opens →
          Runs (waylandHidLibrary A).step Any (hid outputScale) before s →
          (waylandHidLibrary A).step s a = some u → Connects WaylandHidUses s u) ↔
        ¬ [.opens, .closes, .opens] <+ uses.map Use.session) :=
  ⟨fun _ _ run _ _ _ _ _ hUses hOpens hBefore hStep => screencopy_connects run hUses hOpens hBefore hStep,
    fun _ _ run => (waylandHidSessions A outputScale).good_iff run⟩

/-- What a tracker connects to. -/
def mappedCopy : Connecting Copying :=
  { refusedCopy with connected := { refusedCopy.connected with copy := none } }

/-- What a hand connects to. -/
def oneOutput : Connecting VirtualPointer.Outputs where
  roundtrip := {
    events := [⟨1, "zwlr_virtual_pointer_manager_v1", 2, none⟩, ⟨2, "zxdg_output_manager_v1", 3, none⟩,
      ⟨3, "wl_output", 3, none⟩] }
  connected := {}

/-- `reconnects_iff` for a single connect of each. -/
theorem reconnects_iff_once :
    Connects ScreencopyUses (tracker ())
      (state (((screencopyLibrary Unit).connect mappedCopy {}).run (tracker ()))) ∧
    Connects WaylandHidUses (hid (Double.round 1))
      (state (((waylandHidLibrary (doubles wholeSqrt)).connect oneOutput {}).run (hid (Double.round 1)))) := by
  have hTracker := (screencopyLibrary Unit).step_connect (c := tracker ())
    (show (value (((screencopyLibrary Unit).connect mappedCopy {}).run _)).isSome = true by decide +kernel)
  have hHand := (waylandHidLibrary (doubles wholeSqrt)).step_connect (c := hid (Double.round 1))
    (show (value (((waylandHidLibrary (doubles wholeSqrt)).connect oneOutput {}).run _)).isSome = true by
      decide +kernel)
  have hExpires : Expires (tracker ()) (.connect mappedCopy {}) := fun hStale => absurd rfl hStale.has_frame
  constructor
  · exact (reconnects_iff (doubles wholeSqrt) (Double.round 1) ()).1 [.connect mappedCopy {}] _
      (.single hExpires hTracker) [] _ [] _ _ rfl rfl (.nil _) hTracker
  · exact ((reconnects_iff (doubles wholeSqrt) (Double.round 1) ()).2 [.connect oneOutput {}] _
      (.single trivial hHand)).mpr (by decide) [] _ [] _ _ rfl rfl (.nil _) hHand

/-- Connected, disconnected and connected again, a hand has no connection. -/
theorem not_reconnected :
    ∃ s u, Runs (waylandHidLibrary (doubles wholeSqrt)).step Any (hid (Double.round 1))
        [.connect oneOutput {}, .disconnect {}] s ∧
      (waylandHidLibrary (doubles wholeSqrt)).step s (.connect oneOutput {}) = some u ∧
      u.display.current = none :=
  ⟨_, _, (Runs.single trivial (ClientLibrary.step_connect (by decide +kernel))).snoc trivial
    (ClientLibrary.step_disconnect (by decide +kernel)), ClientLibrary.step_connect (by decide +kernel),
    by decide +kernel⟩

end MirCi.Robot
