import MirCi.Wayland.ScreencopyTracker
import MirCi.Wayland.VirtualPointer

/-! What `connect` leaves behind when a step of it raises once the display is
connected. -/
namespace MirCi.Wayland

open Python Semantics Effect

variable {A Event Q : Type}

/-- What the attributes of a subclass do not matter to. -/
structure Attributeless (P : Client A → Prop) : Prop extends Unaffected P where
  attributes : ∀ c a, P c → P { c with attributes := a }

/-- What the methods of a subclass keep. -/
structure Methods.Keep (m : Methods A Event Q) (P : Client A → Prop) : Prop where
  registryGlobal : ∀ event, Keeps P (m.registryGlobal event)
  handle : ∀ event, Keeps P (m.handle event)
  connected : ∀ answers, Keeps P (m.connected answers)
  disconnected : Keeps P m.disconnected

theorem ScreencopyTracker.keep {X : Type} {P : Self X → Prop} (hP : Attributeless P) :
    methods.Keep P := by
  have hCapturing := (Uncaptured.of_attributes hP.toUnaffected hP.attributes).capturing
  constructor
  · exact hCapturing.registryGlobal
  · exact hCapturing.handle fun c _ _ _ _ _ => hP.attributes c _
  · exact hCapturing.copyFrame
  · exact keeps_assign (f := fun a => { a with shmData := none }) fun c => hP.attributes c _

theorem VirtualPointer.keep {F X : Type} {B : Arithmetic F} {P : Self F X → Prop} (hP : Attributeless P) :
    (methods B).Keep P := by
  have hUnmoved : Unmoved P := ⟨hP.toUnaffected, fun c a _ _ _ => hP.attributes c a⟩
  constructor
  · exact keeps_registryGlobal hUnmoved
  · exact keeps_handle hUnmoved
  · exact keeps_connected hUnmoved fun c _ => hP.attributes c _
  · exact keeps_pure ()

/-- The display is connected, the client has no writer, and then a step raises. -/
structure Fails (m : Methods A Event Q) (c : Client A) (connecting : Connecting Q) (e : Exc)
    (u : Client A) : Prop where
  writers : c.writers = []
  display : connecting.display = none
  step : (m.establish connecting).run c.opened = .error e u

/-- The exception goes on, the display is disconnected, no writer is registered, and
whatever the next `connect` gets to hear, it opens a connection. -/
def Recovers (connect : Connecting Q → Closing Event → Method (Client A) Unit) (e : Exc)
    (r : EStateM.Result Exc (Client A) Unit) : Prop :=
  ∃ t, r = .error e t ∧ t.display.current = none ∧ t.writers = [] ∧
    ∀ connecting closing, connecting.display = none →
      (state ((connect connecting closing).run t)).display.opened = t.display.opened + 1

/-- The calls of `disconnect` do not raise. -/
def Closing.Quiet (closing : Closing Event) : Prop :=
  closing.getFd = none ∧ closing.roundtrip.raises = none

section Methods

variable {m : Methods A Event Q} (hm : ∀ P, Attributeless P → m.Keep P) {c u : Client A} {e : Exc}
  {connecting : Connecting Q} {closing : Closing Event} {disconnect : Method (Client A) Unit}

theorem attributeless_link (link : Option ℕ × ℕ × List ℕ) :
    Attributeless fun c : Client A => c.link = link := ⟨unaffected_link, fun _ _ h => h⟩

theorem attributeless_opened {n : ℕ} : Attributeless fun c : Client A => c.display.opened = n :=
  ⟨⟨fun _ _ h => h, fun _ _ h => h⟩, fun _ _ h => h⟩

include hm

/-- Until the last step nothing changes the link. -/
theorem triple_establish (connecting : Connecting Q) {link : Option ℕ × ℕ × List ℕ} :
    Triple (fun c : Client A => c.link = link) (m.establish connecting) (fun _ _ => True)
      fun c => c.link = link := by
  have hLink := hm _ (attributeless_link link)
  have hReceive : Keeps (fun c : Client A => c.link = link)
      (receive m.registryGlobal connecting.roundtrip) :=
    unaffected_link.receive fun event _ => hLink.registryGlobal event
  refine triple_after_keeps unaffected_link.create (fun _ h => h) fun registry => ?_
  refine triple_after_modify (fun c h => h) ?_
  refine triple_after_keeps hReceive (fun _ h => h) fun _ => ?_
  refine triple_after_keeps (hLink.connected _) (fun _ h => h) fun _ => ?_
  exact triple_outside_bind (fun _ c h => h) fun _ => triple_modify fun _ _ => trivial

theorem Fails.link (h : Fails m c connecting e u) : u.link = (some c.display.opened, c.display.opened + 1, []) := by
  have hEnd := triple_establish hm connecting c.opened rfl
  rw [h.step] at hEnd
  exact hEnd.trans (by rw [← h.writers]; rfl)

/-- `disconnect` closes the connection, or stops before it does. -/
theorem triple_disconnect (closing : Closing Event) (hDisconnected : ∀ c, ∃ c', m.disconnected.run c = .ok () c')
    {n k : ℕ} :
    Triple (fun c : Client A => c.link = (some n, k, [])) (m.disconnect closing)
      (fun _ c => closing.Quiet ∧ c.link = (none, k, []))
      fun c => ¬closing.Quiet ∧ c.display.current = some n := by
  have hLink := hm _ (attributeless_link (some n, k, []))
  have hClosed := hm _ (attributeless_link (none, k, []))
  refine triple_outside_bind (fun hRaises c h => ⟨fun hQuiet => hRaises hQuiet.1, congrArg Prod.fst h⟩)
    fun hGetFd => ?_
  refine triple_after_modify (fun c h => ?_) ?_
  · have hWriters : c.writers = [] := congrArg (fun link => link.2.2) h
    rw [← h]
    simp [Client.link, Client.unwatched, hWriters]
  rw [receive, bind_assoc]
  refine triple_handled_bind (fun event _ => unaffected_link.deliver (hLink.handle event)) ?_
  refine triple_outside_bind (fun hRaises c h => ⟨fun hQuiet => hRaises hQuiet.2, congrArg Prod.fst h⟩)
    fun hRoundtrip => ?_
  refine triple_bind (?_ : Triple _ _ (fun _ c => c.link = (none, k, [])) _) fun _ => ?_
  · refine triple_modify fun c h => ?_
    have hOpened : c.display.opened = k := congrArg (fun link => link.2.1) h
    have hWriters : c.writers = [] := congrArg (fun link => link.2.2) h
    simp [Client.link, Client.closed, hOpened, hWriters]
  · intro c h
    obtain ⟨c', hRun⟩ := hDisconnected c
    have hEnd := hClosed.disconnected c h
    rw [hRun] at hEnd ⊢
    exact ⟨⟨hGetFd, hRoundtrip⟩, hEnd⟩

/-- A failed client is closed by its cleanup only, when that reaches its end. -/
theorem Fails.closed_iff (h : Fails m c connecting e u)
    (hDisconnected : ∀ c, ∃ c', m.disconnected.run c = .ok () c') {guard : Prop}
    (hGuard : guard → disconnect.run u = (m.disconnect closing).run u)
    (hElse : ¬guard → disconnect.run u = .ok () u) {t : Client A} :
    (m.connect disconnect connecting).run c = .error e t ∧ t.display.current = none ↔
      e.isa .exception = true ∧ guard ∧ (m.disconnect closing).run u = .ok () t := by
  have hOpen : u.display.current = some c.display.opened := congrArg Prod.fst (h.link hm)
  have hBody : (do outside connecting.display; modify Client.opened; m.establish connecting :
      Method (Client A) Unit).run c = .error e u := by
    rw [h.display]
    exact h.step
  have hStays : ¬((.error e u : EStateM.Result Exc (Client A) Unit) = .error e t ∧ t.display.current = none) := by
    rintro ⟨hSame, hClosed⟩
    cases hSame
    rw [hOpen] at hClosed
    cases hClosed
  rw [Methods.connect, run_tryCatch, hBody]
  by_cases hException : e.isa .exception = true
  · simp only [when, if_pos hException, EStateM.run_bind]
    by_cases hCloses : guard
    · have hEnd := triple_disconnect hm closing hDisconnected u (h.link hm)
      rw [hGuard hCloses]
      cases hRun : (m.disconnect closing).run u with
      | ok _ t' =>
          rw [hRun] at hEnd
          have hClosed : t'.display.current = none := congrArg Prod.fst hEnd.2
          change (.error e t' : EStateM.Result Exc (Client A) Unit) = .error e t ∧ _ ↔ _
          simp only [EStateM.Result.error.injEq, EStateM.Result.ok.injEq, true_and, hException, hCloses]
          exact ⟨fun hSame => hSame.1, fun hSame => ⟨hSame, hSame ▸ hClosed⟩⟩
      | error e' t' =>
          rw [hRun] at hEnd
          change (.error e' t' : EStateM.Result Exc (Client A) Unit) = .error e t ∧ _ ↔ _
          simp only [reduceCtorEq, and_false, iff_false]
          rintro ⟨hSame, hClosed⟩
          cases hSame
          rw [hEnd.2] at hClosed
          cases hClosed
    · rw [hElse hCloses]
      simpa [hCloses] using hStays
  · simp only [when, if_neg hException]
    simpa [hException] using hStays

/-- A client recovers when its cleanup runs, and to its end, provided that leaves it
free to connect again. -/
theorem Fails.recovers_iff (h : Fails m c connecting e u)
    (hDisconnected : ∀ c, ∃ c', m.disconnected.run c = .ok () c') {guard : Prop}
    (hGuard : guard → disconnect.run u = (m.disconnect closing).run u)
    (hElse : ¬guard → disconnect.run u = .ok () u)
    {connect : Connecting Q → Closing Event → Method (Client A) Unit}
    (hFresh : ∀ t, (m.disconnect closing).run u = .ok () t → ∀ next last, next.display = none →
      (state ((connect next last).run t)).display.opened = t.display.opened + 1) :
    Recovers connect e ((m.connect disconnect connecting).run c) ↔
      e.isa .exception = true ∧ guard ∧ closing.Quiet := by
  have hClosed {t : Client A} := h.closed_iff hm hDisconnected hGuard hElse (t := t)
  have hEnd := triple_disconnect hm closing hDisconnected u (h.link hm)
  constructor
  · rintro ⟨t, hRun, hCurrent, -, -⟩
    obtain ⟨hException, hCloses, hReturns⟩ := hClosed.mp ⟨hRun, hCurrent⟩
    rw [hReturns] at hEnd
    exact ⟨hException, hCloses, hEnd.1⟩
  · rintro ⟨hException, hCloses, hQuiet⟩
    cases hReturns : (m.disconnect closing).run u with
    | ok _ t =>
        rw [hReturns] at hEnd
        obtain ⟨hRun, hCurrent⟩ := hClosed.mpr ⟨hException, hCloses, hReturns⟩
        exact ⟨t, hRun, hCurrent, congrArg (fun link => link.2.2) hEnd.2, hFresh t hReturns⟩
    | error e' t =>
        rw [hReturns] at hEnd
        exact absurd hQuiet hEnd.1

/-- Nothing opens a connection but `display.connect()`. -/
theorem opened_connect (hDisconnect : ∀ n, Keeps (fun c : Client A => c.display.opened = n) disconnect)
    (h : connecting.display = none) :
    (state ((m.connect disconnect connecting).run c)).display.opened = c.display.opened + 1 := by
  have hKeep := hm _ (attributeless_opened (n := c.display.opened + 1))
  have hReceive : Keeps (fun t : Client A => t.display.opened = c.display.opened + 1)
      (receive m.registryGlobal connecting.roundtrip) :=
    attributeless_opened.receive fun event _ => hKeep.registryGlobal event
  have hEstablish : Keeps (fun t : Client A => t.display.opened = c.display.opened + 1)
      (m.establish connecting) := by
    refine keeps_bind attributeless_opened.create fun _ => keeps_bind (keeps_modify fun _ h => h) fun _ => ?_
    refine keeps_bind hReceive fun _ => keeps_bind (hKeep.connected _) fun _ => ?_
    exact keeps_bind keeps_outside fun _ => keeps_modify fun _ h => h
  have hAll : Keeps (fun t : Client A => t.display.opened = c.display.opened + 1)
      (tryCatch (m.establish connecting) fun e => do when (e.isa .exception) disconnect; throw e) :=
    keeps_tryCatch hEstablish fun e => keeps_bind (keeps_when (hDisconnect _)) fun _ => keeps_throw e
  have hRun : (m.connect disconnect connecting).run c =
      (tryCatch (m.establish connecting) fun e => do when (e.isa .exception) disconnect; throw e :
        Method (Client A) Unit).run c.opened := by
    rw [Methods.connect, run_tryCatch, run_tryCatch, h]
    rfl
  rw [hRun]
  exact hAll c.opened rfl

theorem keeps_opened {last : Closing Event} (n : ℕ) :
    Keeps (fun c : Client A => c.display.opened = n) (m.disconnect last) := by
  have hKeep := hm _ (attributeless_opened (n := n))
  refine keeps_bind keeps_outside fun _ => keeps_bind (keeps_modify fun _ h => h) fun _ => ?_
  refine keeps_bind (attributeless_opened.receive fun event _ => hKeep.handle event) fun _ => ?_
  exact keeps_bind (keeps_modify fun _ h => h) fun _ => hKeep.disconnected

/-- A client whose `disconnect` is the one of `WaylandClient`. -/
theorem Fails.recovers_iff_of_plain (h : Fails m c connecting e u)
    (hDisconnected : ∀ c, ∃ c', m.disconnected.run c = .ok () c') :
    Recovers (fun next last => m.connect (m.disconnect last) next) e
        ((m.connect (m.disconnect closing) connecting).run c) ↔
      e.isa .exception = true ∧ closing.Quiet := by
  have hIff : Recovers (fun next last => m.connect (m.disconnect last) next) e
      ((m.connect (m.disconnect closing) connecting).run c) ↔
        e.isa .exception = true ∧ True ∧ closing.Quiet :=
    h.recovers_iff hm hDisconnected (fun _ => rfl) (fun hNot => absurd trivial hNot)
      fun t _ next last hNext => opened_connect hm (keeps_opened hm) hNext
  simpa using hIff

end Methods

end MirCi.Wayland
