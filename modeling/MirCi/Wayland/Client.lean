import MirCi.Python.Method

/-! `WaylandClient`. What the compositor, the binding and the system answer to a
call is an argument: the exception the call raises, and the events it dispatches
before it returns. -/
namespace MirCi.Wayland

open Python Semantics Effect

/-- An object of the compositor, with the connection it was created on. -/
structure Proxy where
  connection : Option ℕ
  serial : ℕ
  deriving DecidableEq, Repr

/-- `pywayland.client.Display`. Connections are numbered in the order they are opened. -/
structure Display where
  current : Option ℕ := none
  opened : ℕ := 0
  created : ℕ := 0
  deriving DecidableEq, Repr

/-- A client with the attributes of its subclass. `writers` lists the connections the
event loop watches with `_dispatch`, `printed` what event handlers raised: the
binding prints that and goes on. -/
structure Client (A : Type) where
  display : Display := {}
  registry : Option Proxy := none
  writers : List ℕ := []
  printed : List Exc := []
  attributes : A

/-- The event `global` of the registry, and the answer to `bind`. -/
structure Global where
  idNum : ℕ
  ifaceName : String
  version : ℕ
  bind : Option Exc := none

/-- What a call that dispatches events comes to. -/
structure Reply (Event : Type) where
  events : List Event := []
  raises : Option Exc := none

variable {A Event Q : Type}

/-- Assign attributes of the subclass. -/
def assign (f : A → A) : Method (Client A) Unit :=
  modify fun c => { c with attributes := f c.attributes }

@[simp] theorem assign_run (f : A → A) (c : Client A) :
    (assign f).run c = .ok () { c with attributes := f c.attributes } := rfl

/-- A request that creates an object. -/
def create (raises : Option Exc) : Method (Client A) Proxy := do
  outside raises
  modifyGet fun c => (⟨c.display.current, c.display.created⟩,
    { c with display := { c.display with created := c.display.created + 1 } })

/-- An event is handled. -/
def deliver (handler : Event → Method (Client A) Unit) (event : Event) : Method (Client A) Unit :=
  tryCatch (handler event) fun e => modify fun c => { c with printed := c.printed ++ [e] }

/-- A call that dispatches events, as `display.roundtrip()` and `display.dispatch()` do. -/
def receive (handler : Event → Method (Client A) Unit) (reply : Reply Event) :
    Method (Client A) Unit := do
  forM reply.events (deliver handler)
  outside reply.raises

/-- `display.connect()`. -/
def Client.opened (c : Client A) : Client A :=
  { c with display :=
      { c.display with current := some c.display.opened, opened := c.display.opened + 1 } }

/-- `display.disconnect()`. -/
def Client.closed (c : Client A) : Client A :=
  { c with display := { c.display with current := none } }

/-- `add_writer(self.display.get_fd(), self._dispatch)`. -/
def Client.watched (c : Client A) : Client A :=
  { c with writers := c.display.current.toList ++ c.writers }

/-- `remove_writer(self.display.get_fd())`. -/
def Client.unwatched (c : Client A) : Client A :=
  { c with writers := c.writers.filter fun n => some n ≠ c.display.current }

/-- The methods of a subclass, `connected` with the answers to its calls. -/
structure Methods (A Event Q : Type) where
  registryGlobal : Global → Method (Client A) Unit
  handle : Event → Method (Client A) Unit
  connected : Q → Method (Client A) Unit
  disconnected : Method (Client A) Unit

/-- The answers to the calls of `connect`. -/
structure Connecting (Q : Type) where
  display : Option Exc := none
  getRegistry : Option Exc := none
  roundtrip : Reply Global := {}
  connected : Q
  addWriter : Option Exc := none

/-- The answers to the calls of `disconnect`. -/
structure Closing (Event : Type) where
  getFd : Option Exc := none
  roundtrip : Reply Event := {}

/-- The answers to the calls of `_dispatch`. -/
structure Dispatching (Event : Type) where
  read : Option Exc := none
  dispatch : Reply Event := {}
  getFd : Option Exc := none

/-- A sleep of the caller: the turns of the event loop meanwhile, and how it ends. -/
structure Sleep (Event : Type) where
  turns : List (Dispatching Event) := []
  raises : Option Exc := none

namespace Methods

variable (m : Methods A Event Q)

def dispatch (a : Dispatching Event) : Method (Client A) Unit :=
  tryCatch (do
    outside a.read
    receive m.handle a.dispatch)
  fun e => do
    when (e.isa .exception) do
      outside a.getFd
      modify Client.unwatched
    throw e

/-- A turn of the event loop. It logs what its callbacks raise. -/
def turn (a : Dispatching Event) : Method (Client A) Unit := do
  when ((← get).writers ≠ []) (deliver m.dispatch a)

/-- `asyncio.sleep`. -/
def sleep (a : Sleep Event) : Method (Client A) Unit := do
  forM a.turns m.turn
  outside a.raises

/-- `disconnect`, as `WaylandClient` has it. -/
def disconnect (a : Closing Event) : Method (Client A) Unit := do
  outside a.getFd
  modify Client.unwatched
  receive m.handle a.roundtrip
  modify Client.closed
  m.disconnected

/-- The steps of `connect` once the display is connected. -/
def establish (a : Connecting Q) : Method (Client A) Unit := do
  let registry ← create a.getRegistry
  modify fun c => { c with registry := some registry }
  receive m.registryGlobal a.roundtrip
  m.connected a.connected
  outside a.addWriter
  modify Client.watched

/-- `connect`. A subclass may override the `disconnect` it calls. -/
def connect (disconnect : Method (Client A) Unit) (a : Connecting Q) : Method (Client A) Unit :=
  tryCatch (do
    outside a.display
    modify Client.opened
    m.establish a)
  fun e => do
    when (e.isa .exception) disconnect
    throw e

end Methods

/-! ### Events -/

section Handled

variable {handler : Event → Method (Client A) Unit}

/-- Handling an event does not raise. -/
theorem deliver_run (event : Event) (c : Client A) :
    (deliver handler event).run c = .ok () (state ((deliver handler event).run c)) := by
  rw [deliver, run_tryCatch]
  cases (handler event).run c <;> rfl

/-- The client after events were handled. -/
def handled (handler : Event → Method (Client A) Unit) (c : Client A) (events : List Event) :
    Client A :=
  state ((forM events (deliver handler)).run c)

theorem forM_deliver_run (events : List Event) (c : Client A) :
    (forM events (deliver handler)).run c = .ok () (handled handler c events) := by
  induction events generalizing c with
  | nil => rfl
  | cons event rest ih =>
      rw [handled, List.forM_cons, EStateM.run_bind, deliver_run]
      exact ih _

theorem handled_append (events later : List Event) (c : Client A) :
    handled handler c (events ++ later) = handled handler (handled handler c events) later := by
  rw [handled, List.forM_append, EStateM.run_bind, forM_deliver_run]
  rfl

theorem handled_singleton (c : Client A) (event : Event) :
    handled handler c [event] = state ((deliver handler event).run c) := by
  rw [handled, List.forM_cons, EStateM.run_bind, deliver_run]
  rfl

/-- What every handler keeps is kept. -/
theorem handled_keeps {Inv : Client A → Prop} {events : List Event} {c : Client A}
    (h : ∀ event ∈ events, Keeps Inv (deliver handler event)) (hInv : Inv c) :
    Inv (handled handler c events) := keeps_forM h c hInv

/-- Events that keep what the rest relies on go before it. -/
theorem triple_handled_bind {α : Type} {Inv : Client A → Prop} {events : List Event}
    {x : Method (Client A) α} {Post : α → Client A → Prop} {Stop : Client A → Prop}
    (h : ∀ event ∈ events, Keeps Inv (deliver handler event)) (hNext : Triple Inv x Post Stop) :
    Triple Inv (forM events (deliver handler) >>= fun _ => x) Post Stop := by
  intro c hInv
  rw [EStateM.run_bind, forM_deliver_run]
  exact hNext _ (handled_keeps h hInv)

end Handled

/-! ### What methods leave alone -/

section Keeps

variable {P : Client A → Prop}

/-- What neither objects created nor exceptions printed change. -/
structure Unaffected (P : Client A → Prop) : Prop where
  created : ∀ c n, P c → P { c with display := { c.display with created := n } }
  printed : ∀ c es, P c → P { c with printed := es }

theorem keeps_assign {f : A → A} (h : ∀ c, P c → P { c with attributes := f c.attributes }) :
    Keeps P (assign f) := keeps_modify h

/-- Creating an object leaves the attributes of the subclass alone. -/
theorem keeps_create {P : A → Prop} {raises : Option Exc} :
    Keeps (fun c : Client A => P c.attributes) (create raises) :=
  keeps_bind keeps_outside fun _ _ h => h

/-- Creating an object and storing it. -/
theorem keeps_create_assign {raises : Option Exc} {f : Proxy → A → A}
    (h : ∀ c, P c → P { c with
      display := { c.display with created := c.display.created + 1 }
      attributes := f ⟨c.display.current, c.display.created⟩ c.attributes }) :
    Keeps P (create raises >>= fun proxy => assign (f proxy)) := by
  cases raises with
  | none => exact fun c hKept => h c hKept
  | some e => exact fun c hKept => hKept

variable (hP : Unaffected P)
include hP

/-- What is created belongs to the connection that is open. -/
theorem Unaffected.triple_create {raises : Option Exc} :
    Triple P (create raises) (fun proxy c => P c ∧ proxy.connection = c.display.current) fun _ => True := by
  cases raises with
  | none => exact fun c hKept => ⟨hP.created c _ hKept, rfl⟩
  | some e => exact fun _ _ => trivial

theorem Unaffected.create {raises : Option Exc} : Keeps P (create raises) :=
  keeps_bind keeps_outside fun _ c h => hP.created c _ h

theorem Unaffected.deliver {handler : Event → Method (Client A) Unit} {event : Event}
    (h : Keeps P (handler event)) : Keeps P (deliver handler event) :=
  keeps_tryCatch h fun _ => keeps_modify fun c => hP.printed c _

theorem Unaffected.receive {handler : Event → Method (Client A) Unit}
    {reply : Reply Event} (h : ∀ event ∈ reply.events, Keeps P (handler event)) :
    Keeps P (receive handler reply) :=
  keeps_bind (keeps_forM fun event hEvent => hP.deliver (h event hEvent)) fun _ => keeps_outside

/-- Nothing but the writers is changed by a turn of the event loop, save by its events. -/
theorem Unaffected.turn {m : Methods A Event Q} {a : Dispatching Event}
    (hWriters : ∀ c writers, P c → P { c with writers := writers })
    (h : ∀ event ∈ a.dispatch.events, Keeps P (m.handle event)) : Keeps P (m.turn a) := by
  refine keeps_get_bind fun _ => keeps_when (hP.deliver (keeps_tryCatch ?_ fun e => ?_))
  · exact keeps_bind keeps_outside fun _ => hP.receive h
  · refine keeps_bind (keeps_when ?_) fun _ => keeps_throw e
    exact keeps_bind keeps_outside fun _ => keeps_modify fun c => hWriters c _

end Keeps

section Attributes

variable {P : A → Prop}

theorem unaffected_attributes : Unaffected fun c : Client A => P c.attributes :=
  ⟨fun _ _ h => h, fun _ _ h => h⟩

namespace Methods

variable {m : Methods A Event Q}

theorem keeps_dispatch {a : Dispatching Event}
    (h : ∀ event ∈ a.dispatch.events, Keeps (fun c => P c.attributes) (m.handle event)) :
    Keeps (fun c => P c.attributes) (m.dispatch a) := by
  refine keeps_tryCatch (keeps_bind keeps_outside fun _ => unaffected_attributes.receive h) fun e => ?_
  refine keeps_bind (keeps_when ?_) fun _ => keeps_throw e
  exact keeps_bind keeps_outside fun _ => keeps_modify fun c hKept => hKept

theorem keeps_sleep {a : Sleep Event}
    (h : ∀ turn ∈ a.turns, ∀ event ∈ turn.dispatch.events,
      Keeps (fun c => P c.attributes) (m.handle event)) :
    Keeps (fun c => P c.attributes) (m.sleep a) := by
  refine keeps_bind (keeps_forM fun turn hTurn => keeps_get_bind fun _ => ?_) fun _ => keeps_outside
  exact keeps_when (unaffected_attributes.deliver (keeps_dispatch (h turn hTurn)))

/-- Only the caller of a sleep can interrupt it. -/
theorem triple_sleep {a : Sleep Event}
    (h : ∀ turn ∈ a.turns, ∀ event ∈ turn.dispatch.events,
      Keeps (fun c => P c.attributes) (m.handle event)) :
    Triple (fun c => P c.attributes) (m.sleep a) (fun _ c => a.raises = none ∧ P c.attributes)
      fun c => a.raises ≠ none ∧ P c.attributes := by
  refine triple_bind (triple_forM fun turn hTurn => triple_get_bind fun c => ?_) fun _ => ?_
  · unfold when
    split
    · intro c hKept
      rw [deliver_run]
      exact unaffected_attributes.deliver (keeps_dispatch (h turn hTurn)) c hKept
    · exact triple_pure () fun c hKept => hKept
  · exact triple_outside (fun hRaises c hKept => ⟨hRaises, hKept⟩) fun hNone c hKept => ⟨hNone, hKept⟩

theorem keeps_disconnect {a : Closing Event}
    (hHandle : ∀ event, Keeps (fun c => P c.attributes) (m.handle event))
    (hDisconnected : Keeps (fun c => P c.attributes) m.disconnected) :
    Keeps (fun c => P c.attributes) (m.disconnect a) := by
  refine keeps_bind keeps_outside fun _ => keeps_bind (keeps_modify fun c h => h) fun _ => ?_
  refine keeps_bind (unaffected_attributes.receive fun event _ => hHandle event) fun _ => ?_
  exact keeps_bind (keeps_modify fun c h => h) fun _ => hDisconnected

/-- A method of the subclass at each stage, and a cleanup, keep what `connect` keeps. -/
theorem keeps_connect {disconnect : Method (Client A) Unit} {a : Connecting Q}
    (hGlobal : ∀ event, Keeps (fun c => P c.attributes) (m.registryGlobal event))
    (hConnected : Keeps (fun c => P c.attributes) (m.connected a.connected))
    (hDisconnect : Keeps (fun c => P c.attributes) disconnect) :
    Keeps (fun c => P c.attributes) (m.connect disconnect a) := by
  refine keeps_tryCatch ?_ fun e => keeps_bind (keeps_when hDisconnect) fun _ => keeps_throw e
  refine keeps_bind keeps_outside fun _ => keeps_bind (keeps_modify fun c h => h) fun _ => ?_
  refine keeps_bind keeps_create fun _ => keeps_bind (keeps_modify fun c h => h) fun _ => ?_
  refine keeps_bind (unaffected_attributes.receive fun event _ => hGlobal event) fun _ => ?_
  refine keeps_bind hConnected fun _ => keeps_bind keeps_outside fun _ => ?_
  exact keeps_modify fun c h => h

end Methods

end Attributes

/-! ### What methods raise -/

section Throws

variable {P : Exc → Prop}

theorem throws_create {raises : Option Exc} (h : ∀ e ∈ raises, P e) :
    Throws P (create raises : Method (Client A) Proxy) := by
  refine throws_bind (throws_outside h) fun _ s e t hRun => ?_
  cases hRun

/-- What a handler raises goes no further. -/
theorem throws_receive {handler : Event → Method (Client A) Unit} {reply : Reply Event}
    (h : ∀ e ∈ reply.raises, P e) : Throws P (receive handler reply) := by
  intro c e c' hRun
  rw [receive, EStateM.run_bind, forM_deliver_run] at hRun
  exact throws_outside h _ e c' hRun

namespace Methods

variable {m : Methods A Event Q}

theorem throws_turn (a : Dispatching Event) : Throws P (m.turn a) := by
  refine throws_get_bind fun _ => throws_when fun _ c e c' hRun => ?_
  rw [deliver_run] at hRun
  cases hRun

theorem throws_disconnect {a : Closing Event} (hFd : ∀ e ∈ a.getFd, P e)
    (hRoundtrip : ∀ e ∈ a.roundtrip.raises, P e) (hDisconnected : Throws P m.disconnected) :
    Throws P (m.disconnect a) := by
  refine throws_bind (throws_outside hFd) fun _ => throws_bind (throws_modify _) fun _ => ?_
  refine throws_bind (throws_receive hRoundtrip) fun _ => ?_
  exact throws_bind (throws_modify _) fun _ => hDisconnected

theorem throws_connect {disconnect : Method (Client A) Unit} {a : Connecting Q}
    (hDisplay : ∀ e ∈ a.display, P e) (hRegistry : ∀ e ∈ a.getRegistry, P e)
    (hRoundtrip : ∀ e ∈ a.roundtrip.raises, P e) (hWriter : ∀ e ∈ a.addWriter, P e)
    (hConnected : Throws P (m.connected a.connected)) (hDisconnect : Throws P disconnect) :
    Throws P (m.connect disconnect a) := by
  refine throws_tryCatch ?_ fun e he => throws_bind (throws_when fun _ => hDisconnect) fun _ => throws_throw he
  refine throws_bind (throws_outside hDisplay) fun _ => throws_bind (throws_modify _) fun _ => ?_
  refine throws_bind (throws_create hRegistry) fun _ => throws_bind (throws_modify _) fun _ => ?_
  refine throws_bind (throws_receive hRoundtrip) fun _ => throws_bind hConnected fun _ => ?_
  exact throws_bind (throws_outside hWriter) fun _ => throws_modify _

end Methods

end Throws

/-! ### What methods come to when they return -/

section Returns

variable {m : Methods A Event Q} {P S R : Client A → Prop} {c t : Client A}

namespace Methods

/-- A `connect` that returns went through all of its steps. -/
theorem connect_run_ok {disconnect : Method (Client A) Unit} {a : Connecting Q}
    (h : (m.connect disconnect a).run c = .ok () t) : (m.establish a).run c.opened = .ok () t := by
  rw [Methods.connect, run_tryCatch] at h
  cases hRun : (do outside a.display; modify Client.opened; m.establish a : Method (Client A) Unit).run c with
  | ok u s =>
      rw [hRun] at h
      obtain rfl : s = t := by simpa using h
      obtain ⟨_, _, hDisplay, hRest⟩ := run_bind_ok.mp hRun
      obtain ⟨-, rfl⟩ := outside_run_ok.mp hDisplay
      obtain ⟨_, _, hOpened, hEstablish⟩ := run_bind_ok.mp hRest
      cases hOpened
      exact hEstablish
  | error e s =>
      rw [hRun] at h
      obtain ⟨_, _, -, hThrow⟩ := run_bind_ok.mp h
      cases hThrow

/-- What the steps before it keep, `connected` can rely on. -/
theorem triple_establish_of {a : Connecting Q} (hP : Unaffected P)
    (hRegistry : ∀ c registry, P c → P { c with registry := registry })
    (hGlobal : ∀ event, Keeps P (m.registryGlobal event))
    (hConnected : Triple P (m.connected a.connected) (fun _ => R) fun _ => True)
    (hWriters : ∀ c writers, R c → R { c with writers := writers }) :
    Triple P (m.establish a) (fun _ => R) fun _ => True := by
  refine triple_after_keeps hP.create (fun _ _ => trivial) fun registry => ?_
  refine triple_after_modify (fun c => hRegistry c _) ?_
  refine triple_after_keeps (hP.receive fun event _ => hGlobal event) (fun _ _ => trivial) fun _ => ?_
  refine triple_bind hConnected fun _ => triple_outside_bind (fun _ _ _ => trivial) fun _ => ?_
  exact triple_modify fun c => hWriters c _

/-- A `disconnect` that returns has closed the display, and called `disconnected`. -/
theorem triple_disconnect_of {a : Closing Event} (hP : Unaffected P)
    (hWriters : ∀ c writers, P c → P { c with writers := writers })
    (hHandle : ∀ event, Keeps P (m.handle event)) (hClosed : ∀ c, P c → S c.closed)
    (hDisconnected : Triple S m.disconnected (fun _ => R) fun _ => True) :
    Triple P (m.disconnect a) (fun _ => R) fun _ => True := by
  refine triple_after_keeps keeps_outside (fun _ _ => trivial) fun _ => ?_
  refine triple_after_modify (fun c => hWriters c _) ?_
  refine triple_after_keeps (hP.receive fun event _ => hHandle event) (fun _ _ => trivial) fun _ => ?_
  exact triple_bind (triple_modify hClosed) fun _ => hDisconnected

end Methods

end Returns

/-- Which connection is open, how many were opened and which ones are watched. -/
def Client.link (c : Client A) : Option ℕ × ℕ × List ℕ :=
  (c.display.current, c.display.opened, c.writers)

theorem unaffected_link {link : Option ℕ × ℕ × List ℕ} :
    Unaffected fun c : Client A => c.link = link := ⟨fun _ _ h => h, fun _ _ h => h⟩

end MirCi.Wayland
