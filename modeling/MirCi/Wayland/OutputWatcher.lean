import MirCi.Wayland.Client

/-! `OutputWatcher`: it keeps the first mode that an output advertises, where the current
mode is the last one received with the current flag set. -/
namespace MirCi.Wayland

open Python Semantics Effect

/-- Width, height and refresh rate. -/
abbrev OutputMode := ℤ × ℤ × ℤ

structure OutputWatcher where
  wlOutputs : List Proxy := []
  /-- Whether there is a callback for `mode`. -/
  hasCallback : Bool
  mode : Option OutputMode := none
  doneEvent : Bool := false

/-- What an output sends, with what the caller's callback for it raises if there is one. What a roundtrip
inside a handler dispatches comes next in order. -/
inductive OutputEvent where
  | global (event : Global) (roundtrip : Option Exc)
  | mode (output : Proxy) (flags : ℕ) (width height refresh : ℤ) (callback : Option Exc)
  | done (output : Proxy)
  /-- `geometry`, `scale` or `name` -/
  | property (output : Proxy) (callback : Option Exc)

namespace OutputWatcher

abbrev Self := Client OutputWatcher

def registryGlobal (g : Global) (roundtrip : Option Exc) : Method Self Unit :=
  when (g.ifaceName = "wl_output") do
    let output ← create g.bind
    assign fun a => { a with wlOutputs := a.wlOutputs ++ [output] }
    outside roundtrip

/-- `on_mode`. The flags go to the callback only. -/
def onMode (width height refresh : ℤ) (callback : Option Exc) : Method Self Unit := do
  when ((← get).attributes.hasCallback) (outside callback)
  when ((← get).attributes.mode = none) (assign fun a => { a with mode := some (width, height, refresh) })

def onDone : Method Self Unit := assign fun a => { a with doneEvent := true }

def handle : OutputEvent → Method Self Unit
  | .global event roundtrip => registryGlobal event roundtrip
  | .mode _ _ width height refresh callback => onMode width height refresh callback
  | .done _ => onDone
  | .property _ callback => outside callback

/-- A watcher that has received nothing. -/
def fresh (hasCallback : Bool) : Self := { attributes := { hasCallback } }

end OutputWatcher

namespace OutputEvent

/-- The mode that an event advertises as the current one. -/
def current? : OutputEvent → Option OutputMode
  | .mode _ flags width height refresh _ => if flags.testBit 0 then some (width, height, refresh) else none
  | _ => none

/-- The mode that an event advertises, unless a callback raises on it. -/
def advertised? (hasCallback : Bool) : OutputEvent → Option OutputMode
  | .mode _ _ width height refresh callback =>
      if hasCallback = true ∧ callback ≠ none then none else some (width, height, refresh)
  | _ => none

end OutputEvent

/-- The last mode that was received with the current flag set. -/
def currentMode (events : List OutputEvent) : Option OutputMode :=
  (events.filterMap OutputEvent.current?).getLast?

/-- The first mode that was received. -/
def firstMode (hasCallback : Bool) (events : List OutputEvent) : Option OutputMode :=
  (events.filterMap (OutputEvent.advertised? hasCallback)).head?

namespace OutputWatcher

variable {c : Self} {hasCallback : Bool}

/-- What an event that is no mode leaves alone. -/
theorem keeps_handle {P : OutputWatcher → Prop} (event : OutputEvent)
    (hMode : ∀ output flags width height refresh callback, event ≠ .mode output flags width height refresh callback)
    (hOutputs : ∀ a outputs, P a → P { a with wlOutputs := outputs })
    (hDone : ∀ a, P a → P { a with doneEvent := true }) :
    Keeps (fun c : Self => P c.attributes) (handle event) := by
  cases event with
  | global g roundtrip =>
      refine keeps_when (keeps_bind keeps_create fun output => ?_)
      exact keeps_bind (keeps_assign fun c => hOutputs c.attributes _) fun _ => keeps_outside
  | mode output flags width height refresh callback => exact absurd rfl (hMode _ _ _ _ _ _)
  | done output => exact fun c => hDone c.attributes
  | property output callback => exact keeps_outside

/-- A mode is kept if none was before, unless the callback raises. -/
theorem deliver_mode (output : Proxy) (flags : ℕ) (width height refresh : ℤ) (callback : Option Exc) (c : Self) :
    (state ((deliver handle (.mode output flags width height refresh callback)).run c)).attributes =
      if c.attributes.hasCallback = true ∧ callback ≠ none then c.attributes
      else { c.attributes with mode := c.attributes.mode.or (some (width, height, refresh)) } := by
  obtain ⟨display, registry, writers, printed, wlOutputs, callsBack, mode, doneEvent⟩ := c
  cases callsBack <;> cases callback <;> cases mode <;> rfl

/-- One event. -/
theorem deliver_handle (hCallback : c.attributes.hasCallback = hasCallback) (event : OutputEvent) :
    (state ((deliver handle event).run c)).attributes.hasCallback = hasCallback ∧
      (state ((deliver handle event).run c)).attributes.mode =
        c.attributes.mode.or (event.advertised? hasCallback) := by
  by_cases hMode : ∃ output flags width height refresh callback,
      event = .mode output flags width height refresh callback
  · obtain ⟨output, flags, width, height, refresh, callback, rfl⟩ := hMode
    rw [deliver_mode, OutputEvent.advertised?, hCallback]
    split
    · exact ⟨hCallback, (Option.or_none ..).symm⟩
    · exact ⟨hCallback, rfl⟩
  · have hNone : event.advertised? hasCallback = none := by
      cases event with
      | mode output flags width height refresh callback => exact absurd ⟨_, _, _, _, _, _, rfl⟩ hMode
      | _ => rfl
    let P : OutputWatcher → Prop := fun a => a.hasCallback = hasCallback ∧ a.mode = c.attributes.mode
    have hKeeps : Keeps (fun d : Self => P d.attributes) (handle event) :=
      keeps_handle event (fun _ _ _ _ _ _ hEq => hMode ⟨_, _, _, _, _, _, hEq⟩) (fun _ _ h => h) fun _ h => h
    rw [hNone, Option.or_none]
    exact (unaffected_attributes (P := P)).deliver hKeeps c ⟨hCallback, rfl⟩

/-- The events so far. -/
theorem mode_handled (events : List OutputEvent) :
    (handled handle (fresh hasCallback) events).attributes.hasCallback = hasCallback ∧
      (handled handle (fresh hasCallback) events).attributes.mode = firstMode hasCallback events := by
  induction events using List.reverseRecOn with
  | nil => exact ⟨rfl, rfl⟩
  | append_singleton events event ih =>
      rw [handled_append, handled_singleton]
      obtain ⟨hCallback, hMode⟩ := deliver_handle ih.1 event
      refine ⟨hCallback, ?_⟩
      rw [hMode, ih.2, firstMode, firstMode, List.filterMap_append, List.head?_append]
      cases hEvent : event.advertised? hasCallback <;> simp [hEvent]

/-- The watcher reports the current mode just when it was the first to be advertised, or neither was. -/
theorem mode_current_iff (hasCallback : Bool) (events : List OutputEvent) :
    (handled handle (fresh hasCallback) events).attributes.mode = currentMode events ↔
      firstMode hasCallback events = currentMode events := by
  rw [(mode_handled events).2]

/-- A mode that is not the current one comes first. -/
theorem mode_of_preferred : ∃ events : List OutputEvent, .done ⟨some 0, 0⟩ ∈ events ∧
    currentMode events = some (1280, 1024, 60000) ∧
    (handled handle (fresh false) events).attributes.mode = some (1920, 1080, 60000) :=
  ⟨[.mode ⟨some 0, 0⟩ 2 1920 1080 60000 none, .mode ⟨some 0, 0⟩ 1 1280 1024 60000 none, .done ⟨some 0, 0⟩],
    by simp, by decide, by decide⟩

end OutputWatcher

end MirCi.Wayland
