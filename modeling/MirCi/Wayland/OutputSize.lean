import MirCi.Wayland.VirtualPointer

/-! The size that a client takes its output to have. It is a function of the events that reach the
client and of how its turns of the event loop end, so that what a later call will find can be said
before the call is made. -/
namespace MirCi.Wayland.VirtualPointer

open Python Semantics Effect

variable {F X : Type} (A : Arithmetic F)

/-- What an event makes of the size. The width is assigned before the height is computed: a height
that cannot be scaled leaves the new width behind. -/
def Screen.resized (s : Screen F) : PointerEvent → Screen F
  | .global _ => s
  | .logicalSize output width height =>
      if s.output = some output then
        match scaled A s.scale width with
        | .error _ => s
        | .ok w =>
            match scaled A s.scale height with
            | .error _ => { s with width := w }
            | .ok h => { s with width := w, height := h }
      else s

/-- The size, and what decides whether the event loop gets to read any events: the connection that
is open, and those it watches. -/
structure Outlook (F : Type) where
  screen : Screen F
  current : Option ℕ
  writers : List ℕ

/-- The events are handled. -/
def Outlook.seen (o : Outlook F) (events : List PointerEvent) : Outlook F :=
  { o with screen := events.foldl (Screen.resized A) o.screen }

/-- `_dispatch` gave up. It stops watching the connection, unless it cannot get the descriptor. -/
def Outlook.gaveUp (o : Outlook F) (a : Dispatching PointerEvent) (e : Exc) : Outlook F :=
  if e.isa .exception ∧ a.getFd = none then
    { o with writers := o.writers.filter fun n => some n ≠ o.current }
  else o

/-- A turn of the event loop. Events that were handled before it raised were handled. -/
def Outlook.turned (o : Outlook F) (a : Dispatching PointerEvent) : Outlook F :=
  if o.writers = [] then o
  else
    match a.read with
    | some e => o.gaveUp a e
    | none =>
        match a.dispatch.raises with
        | some e => (o.seen A a.dispatch.events).gaveUp a e
        | none => o.seen A a.dispatch.events

/-- The turns during a sleep, which go by whether or not the sleep is then cancelled. -/
def Outlook.slept (o : Outlook F) (a : Sleep PointerEvent) : Outlook F := a.turns.foldl (Outlook.turned A) o

/-- All that a keyword reads of a client, and the motions it has sent. -/
structure Whereabouts (F X : Type) where
  outlook : Outlook F
  pointer : Option Proxy
  extra : X
  motions : List (ℤ × ℤ)

def whereabouts (c : Self F X) : Whereabouts F X where
  outlook := ⟨c.attributes.screen, c.display.current, c.writers⟩
  pointer := c.attributes.pointer
  extra := c.attributes.extra
  motions := motions c.attributes.sent

def Whereabouts.moved (s : Whereabouts F X) (p : ℤ × ℤ) : Whereabouts F X := { s with motions := s.motions ++ [p] }

def Whereabouts.seen (s : Whereabouts F X) (events : List PointerEvent) : Whereabouts F X :=
  { s with outlook := s.outlook.seen A events }

/-- The client is there, and what it knows of the output is as said. -/
def Stands (s : Whereabouts F X) (c : Self F X) : Prop := whereabouts c = s

variable {A} {s : Whereabouts F X}

theorem Stands.screen {c : Self F X} (h : Stands s c) : c.attributes.screen = s.outlook.screen :=
  congrArg (fun s => s.outlook.screen) h

theorem Stands.writers {c : Self F X} (h : Stands s c) : c.writers = s.outlook.writers :=
  congrArg (fun s => s.outlook.writers) h

theorem Stands.pointer {c : Self F X} (h : Stands s c) : c.attributes.pointer = s.pointer :=
  congrArg Whereabouts.pointer h

theorem Stands.extra {c : Self F X} (h : Stands s c) : c.attributes.extra = s.extra := congrArg Whereabouts.extra h

theorem Stands.motions {c : Self F X} (h : Stands s c) : VirtualPointer.motions c.attributes.sent = s.motions :=
  congrArg Whereabouts.motions h

theorem unaffected_stands : Unaffected (Stands s : Self F X → Prop) := ⟨fun _ _ h => h, fun _ _ h => h⟩

/-- The size of the output that is followed is scaled and stored, first the width; that of any other is
ignored. -/
theorem triple_logicalSize_stands (output : Proxy) (width height : ℤ) :
    Triple (Stands s : Self F X → Prop) (xdgOutputLogicalSize A output width height)
      (fun _ => Stands (s.seen A [.logicalSize output width height]))
      (Stands (s.seen A [.logicalSize output width height])) := by
  refine triple_get_bind_of fun c hc => ?_
  have hOutput : c.attributes.xdgOutputs.head? = s.outlook.screen.output := congrArg Screen.output hc.screen
  have hScale : c.attributes.outputScale = s.outlook.screen.scale := congrArg Screen.scale hc.screen
  dsimp only
  rw [hOutput, hScale]
  cases hFirst : s.outlook.screen.output with
  | none =>
      have hSame : s.seen A [.logicalSize output width height] = s := by
        simp [Whereabouts.seen, Outlook.seen, Screen.resized, hFirst]
      rw [hSame]
      exact triple_throw _ fun _ h => h
  | some first =>
      dsimp only
      by_cases hHere : output = first
      · subst hHere
        rw [when, if_pos rfl]
        refine triple_compute_bind (fun e he d hd => ?_) fun w hw => ?_
        · have hSame : s.seen A [.logicalSize output width height] = s := by
            simp [Whereabouts.seen, Outlook.seen, Screen.resized, hFirst, he]
          rwa [hSame]
        refine triple_bind (triple_modify fun d hd => ?_ : Triple _ _
          (fun _ => Stands { s with outlook := { s.outlook with screen :=
            { s.outlook.screen with width := w } } }) _) fun _ => ?_
        · subst hd
          rfl
        refine triple_compute_bind (fun e he d hd => ?_) fun h hh => triple_modify fun d hd => ?_
        · have hWidth : s.seen A [.logicalSize output width height] = { s with outlook :=
              { s.outlook with screen := { s.outlook.screen with width := w } } } := by
            simp [Whereabouts.seen, Outlook.seen, Screen.resized, hFirst, hw, he]
          rwa [hWidth]
        · have hBoth : s.seen A [.logicalSize output width height] = { s with outlook :=
              { s.outlook with screen := { s.outlook.screen with width := w, height := h } } } := by
            simp [Whereabouts.seen, Outlook.seen, Screen.resized, hFirst, hw, hh]
          rw [hBoth]
          have hLast : whereabouts { d with attributes := { d.attributes with outputHeight := h } } =
              { whereabouts d with outlook := { (whereabouts d).outlook with screen :=
                { (whereabouts d).outlook.screen with height := h } } } := rfl
          rw [Stands, hLast, show whereabouts d = _ from hd]
      · have hSame : s.seen A [.logicalSize output width height] = s := by
          simp [Whereabouts.seen, Outlook.seen, Screen.resized, hFirst, Ne.symm hHere]
        rw [hSame, when, if_neg hHere]
        exact triple_pure () fun _ h => h

/-- Whether the handler returns or raises, the event has done to the size what it does. -/
theorem triple_handle_stands (event : PointerEvent) :
    Triple (Stands s : Self F X → Prop) (handle A event) (fun _ => Stands (s.seen A [event]))
      (Stands (s.seen A [event])) := by
  cases event with
  | global event =>
      have hKeeps : Keeps (Stands s : Self F X → Prop) (registryGlobal event) := by
        refine keeps_registryGlobal_of unaffected_stands (fun _ _ h => h) (fun _ _ h => h) (fun _ => ?_) event
        exact keeps_bind unaffected_stands.create fun _ => keeps_assign fun _ h => h
      exact triple_of_keeps hKeeps (fun _ _ h => h) fun _ h => h
  | logicalSize output width height => exact triple_logicalSize_stands output width height

theorem stands_deliver (event : PointerEvent) {c : Self F X} (h : Stands s c) :
    Stands (s.seen A [event]) (state ((deliver (handle A) event).run c)) := by
  have hHandled := triple_handle_stands (A := A) event c h
  rw [deliver, run_tryCatch]
  cases hRun : (handle A event).run c <;> rw [hRun] at hHandled <;> exact hHandled

theorem stands_handled (events : List PointerEvent) {c : Self F X} (h : Stands s c) :
    Stands (s.seen A events) (handled (handle A) c events) := by
  induction events generalizing s c with
  | nil => exact h
  | cons event rest ih =>
      have hFirst := stands_deliver (A := A) event h
      rw [show event :: rest = [event] ++ rest from rfl, handled_append, handled_singleton]
      exact ih hFirst

/-- All events of the reply are handled, whether or not the call then raises. -/
theorem triple_receive_stands (reply : Reply PointerEvent) :
    Triple (Stands s : Self F X → Prop) (receive (handle A) reply)
      (fun _ c => reply.raises = none ∧ Stands (s.seen A reply.events) c)
      (fun c => reply.raises ≠ none ∧ Stands (s.seen A reply.events) c) := by
  intro c h
  rw [receive, EStateM.run_bind, forM_deliver_run]
  exact triple_outside (fun hRaises _ h => ⟨hRaises, h⟩) (fun hNone _ h => ⟨hNone, h⟩) _ (stands_handled _ h)

theorem triple_gaveUp (a : Dispatching PointerEvent) (e : Exc) :
    Triple (Stands s : Self F X → Prop)
      (do
        when (e.isa .exception) do
          outside a.getFd
          modify Client.unwatched
        throw e : Method (Self F X) Unit)
      (fun _ => Stands { s with outlook := s.outlook.gaveUp a e })
      (Stands { s with outlook := s.outlook.gaveUp a e }) := by
  by_cases hException : e.isa .exception = true
  · rw [when, if_pos hException, bind_assoc]
    refine triple_outside_bind (fun hRaises d hd => ?_) fun hFd => ?_
    · rwa [Outlook.gaveUp, if_neg fun h => hRaises h.2]
    · refine triple_bind (triple_modify fun d hd => ?_ : Triple _ _
        (fun _ => Stands { s with outlook := s.outlook.gaveUp a e }) _) fun _ => triple_throw e fun _ h => h
      rw [Outlook.gaveUp, if_pos ⟨hException, hFd⟩]
      subst hd
      rfl
  · rw [when, if_neg hException]
    refine triple_bind (triple_pure () fun d hd => ?_ : Triple _ _
      (fun _ => Stands { s with outlook := s.outlook.gaveUp a e }) _) fun _ => triple_throw e fun _ h => h
    rwa [Outlook.gaveUp, if_neg fun h => hException h.1]

theorem stands_dispatch (a : Dispatching PointerEvent) {c : Self F X} (h : Stands s c)
    (hWatched : s.outlook.writers ≠ []) :
    Stands { s with outlook := s.outlook.turned A a } (state (((methods A).dispatch a).run c)) := by
  rw [Methods.dispatch, run_tryCatch]
  cases hRead : a.read with
  | some e =>
      have hTurned : s.outlook.turned A a = s.outlook.gaveUp a e := by simp [Outlook.turned, hWatched, hRead]
      rw [hTurned]
      exact (triple_gaveUp a e).state h
  | none =>
      have hReceived := triple_receive_stands (A := A) a.dispatch c h
      have hBody : (do outside none; receive (methods A).handle a.dispatch : Method (Self F X) Unit).run c =
          (receive (handle A) a.dispatch).run c := rfl
      rw [hBody]
      cases hRun : (receive (handle A) a.dispatch).run c with
      | ok u t =>
          rw [hRun] at hReceived
          have hTurned : s.outlook.turned A a = s.outlook.seen A a.dispatch.events := by
            simp [Outlook.turned, hWatched, hRead, hReceived.1]
          rw [hTurned]
          exact hReceived.2
      | error e t =>
          rw [hRun] at hReceived
          have hRaised : a.dispatch.raises = some e := by
            rw [receive, EStateM.run_bind, forM_deliver_run] at hRun
            cases hRaises : a.dispatch.raises with
            | none => exact absurd hRaises hReceived.1
            | some other =>
                rw [hRaises] at hRun
                cases hRun
                rfl
          have hTurned : s.outlook.turned A a = (s.outlook.seen A a.dispatch.events).gaveUp a e := by
            simp [Outlook.turned, hWatched, hRead, hRaised]
          rw [hTurned]
          exact (triple_gaveUp (s := s.seen A a.dispatch.events) a e).state hReceived.2

/-- The event loop logs what a turn raises, and goes on. -/
theorem triple_turn_stands (a : Dispatching PointerEvent) :
    Triple (Stands s : Self F X → Prop) ((methods A).turn a)
      (fun _ => Stands { s with outlook := s.outlook.turned A a }) fun _ => False := by
  refine triple_get_bind_of fun c hc => ?_
  rw [hc.writers]
  by_cases hWatched : s.outlook.writers = []
  · rw [when, if_neg (by simpa using hWatched), Outlook.turned, if_pos hWatched]
    exact triple_pure () fun _ h => h
  · rw [when, if_pos hWatched]
    intro d h
    have hDispatched := stands_dispatch (A := A) a h hWatched
    rw [deliver_run, deliver, run_tryCatch]
    cases hRun : ((methods A).dispatch a).run d <;> rw [hRun] at hDispatched <;> exact hDispatched

theorem triple_turns_stands (turns : List (Dispatching PointerEvent)) :
    Triple (Stands s : Self F X → Prop) (forM turns (methods A).turn)
      (fun _ => Stands { s with outlook := turns.foldl (Outlook.turned A) s.outlook }) fun _ => False := by
  induction turns generalizing s with
  | nil => exact triple_pure () fun _ h => h
  | cons a rest ih =>
      rw [List.forM_cons]
      exact triple_bind (triple_turn_stands a) fun _ => ih

/-- A sleep, whichever way it ends. -/
theorem triple_sleep_stands (a : Sleep PointerEvent) :
    Triple (Stands s : Self F X → Prop) ((methods A).sleep a)
      (fun _ c => a.raises = none ∧ Stands { s with outlook := s.outlook.slept A a } c)
      (fun c => a.raises ≠ none ∧ Stands { s with outlook := s.outlook.slept A a } c) :=
  triple_bind ((triple_turns_stands a.turns).mono (fun _ _ h => h) fun _ => False.elim) fun _ =>
    triple_outside (fun hRaises _ h => ⟨hRaises, h⟩) fun hNone _ h => ⟨hNone, h⟩

theorem triple_sent_stands (r : PointerRequest) {Stop : Self F X → Prop} :
    Triple (Stands s : Self F X → Prop) (assign fun a => { a with sent := a.sent ++ [r] })
      (fun _ => Stands { s with motions := s.motions ++ VirtualPointer.motions [r] }) Stop := by
  refine triple_modify fun c h => ?_
  subst h
  simp [Stands, whereabouts, screen]

/-- The frame and the roundtrip after a motion. -/
theorem triple_frame_stands (a : Sending) :
    Triple (Stands s : Self F X → Prop) (do request .frame a.frame; receive (handle A) a.roundtrip)
      (fun _ c => a.Completes ∧ Stands (s.seen A a.roundtrip.events) c)
      (fun c => ¬a.Completes ∧ c.attributes.extra = s.extra ∧
        VirtualPointer.motions c.attributes.sent = s.motions) := by
  have hNone : { s with motions := s.motions ++ VirtualPointer.motions [PointerRequest.frame] } = s := by
    simp [VirtualPointer.motions]
  rw [request, bind_assoc]
  refine triple_outside_bind (fun hRaises c h => ⟨fun hDone => hRaises hDone.1, h.extra, h.motions⟩) fun hSent => ?_
  refine triple_bind (triple_sent_stands .frame) fun _ => ?_
  rw [hNone]
  refine (triple_receive_stands a.roundtrip).mono (fun _ c h => ⟨⟨hSent, h.1⟩, h.2⟩) fun c h => ?_
  exact ⟨fun hDone => h.1 hDone.2, h.2.extra, h.2.motions⟩

/-- A move sends its motion to where the size at the start of the call puts it, and then sees the
events of its roundtrip; or it sends nothing and leaves the client as it stood. -/
theorem triple_move_stands {x y : Number F} {a : Sending} (hPointer : s.pointer ≠ none) :
    Triple (Stands s : Self F X → Prop) (moveToAbsolute A x y a)
      (fun _ c => ∃ p, a.motion A s.outlook.screen x y = some p ∧ a.Completes ∧
        Stands ((s.moved p).seen A a.roundtrip.events) c)
      (fun c => a.motion A s.outlook.screen x y = none ∧ Stands s c ∨
        ∃ p, a.motion A s.outlook.screen x y = some p ∧ ¬a.Completes ∧ c.attributes.extra = s.extra ∧
          VirtualPointer.motions c.attributes.sent = s.motions ++ [p]) := by
  have hHere (c : Self F X) (hc : Stands s c) : c.attributes.pointer ≠ none := by
    rw [hc.pointer]
    exact hPointer
  exact triple_moveToAbsolute_of (fun _ hc => hc.screen) hHere fun p => triple_bind (triple_sent_stands _) fun _ =>
    triple_frame_stands (s := s.moved p) a

end MirCi.Wayland.VirtualPointer
