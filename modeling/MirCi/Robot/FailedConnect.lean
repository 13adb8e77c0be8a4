import MirCi.Robot.Screencopy
import MirCi.Robot.WaylandHid
import MirCi.Wayland.FailedConnect

/-! Failed connects of the two clients the suites use, and of the ones they extend. -/
namespace MirCi.Robot

open Python Semantics Effect Wayland

section Screencopy

open ScreencopyTracker

variable {X : Type} {c u : Self X} {e : Exc} {connecting : Connecting Copying}
  {closing : Closing FrameEvent}

theorem screencopy_disconnected (c : Self X) : ∃ c', methods.disconnected.run c = .ok () c' := ⟨_, rfl⟩

/-- A cleanup that returns forgets the shared memory. -/
theorem shmData_of_disconnect {t : Self X} (h : (methods.disconnect closing).run u = .ok () t) :
    t.attributes.shmData = none := by
  have hTriple : Triple (fun _ : Self X => True) (methods.disconnect closing)
      (fun _ c => c.attributes.shmData = none) fun _ => True := by
    refine triple_bind (triple_true _) fun _ => triple_bind (triple_true _) fun _ => ?_
    refine triple_bind (triple_true _) fun _ => triple_bind (triple_true _) fun _ => ?_
    exact triple_modify (f := fun c : Self X => { c with attributes := { c.attributes with shmData := none } })
      fun c _ => rfl
  exact hTriple.of_ok trivial h

theorem screencopy_connect_run (h : c.attributes.shmData = none) :
    (Screencopy.connect connecting closing).run c =
      (methods.connect (Screencopy.disconnect closing) connecting).run c := by
  change (when (c.attributes.shmData = none) _).run c = _
  rw [when, if_pos h]

theorem screencopy_disconnect_run :
    (Screencopy.disconnect closing).run c =
      if c.attributes.shmData ≠ none then (methods.disconnect closing).run c else .ok () c := by
  change (when (c.attributes.shmData ≠ none) _).run c = _
  unfold when
  split <;> rfl

/-- The guard in `disconnect` lets the cleanup through once the shared memory is mapped. -/
theorem screencopy_recovers_iff (hUnmapped : c.attributes.shmData = none)
    (h : Fails methods c connecting e u) :
    Recovers Screencopy.connect e ((Screencopy.connect connecting closing).run c) ↔
      e.isa .exception = true ∧ u.attributes.shmData ≠ none ∧ closing.Quiet := by
  rw [screencopy_connect_run hUnmapped]
  refine h.recovers_iff (fun _ => ScreencopyTracker.keep) screencopy_disconnected (fun hMapped => ?_)
    (fun hNone => ?_) fun t hReturns next last hNext => ?_
  · rw [screencopy_disconnect_run, if_pos hMapped]
  · rw [screencopy_disconnect_run, if_neg hNone]
  · rw [screencopy_connect_run (shmData_of_disconnect hReturns)]
    refine opened_connect (fun _ => ScreencopyTracker.keep) (fun n => keeps_get_bind fun _ => ?_) hNext
    exact keeps_when (keeps_opened (fun _ => ScreencopyTracker.keep) n)

end Screencopy

section WaylandHid

open VirtualPointer

variable {F : Type} {A : Arithmetic F} {c u : WaylandHid.Self F} {e : Exc}
  {connecting : Connecting Outputs} {closing : Closing PointerEvent}

theorem waylandHid_disconnected {X : Type} (c : VirtualPointer.Self F X) :
    ∃ c', (methods A).disconnected.run c = .ok () c' := ⟨c, rfl⟩

theorem unmoved_pointer : Unmoved fun c : WaylandHid.Self F => c.attributes.pointer ≠ none :=
  ⟨⟨fun _ _ h => h, fun _ _ h => h⟩, fun _ _ _ _ hSame h => hSame ▸ h⟩

theorem pointer_of_disconnect (h : u.attributes.pointer ≠ none) {t : WaylandHid.Self F}
    (hReturns : ((methods A).disconnect closing).run u = .ok () t) : t.attributes.pointer ≠ none := by
  have hKeeps : Keeps (fun c : WaylandHid.Self F => c.attributes.pointer ≠ none)
      ((methods A).disconnect closing) :=
    Methods.keeps_disconnect (P := fun a : VirtualPointer F (Option Position) => a.pointer ≠ none)
      (keeps_handle unmoved_pointer) (keeps_pure ())
  have hKept := hKeeps u h
  rw [hReturns] at hKept
  exact hKept

theorem waylandHid_connect_run (h : c.attributes.pointer = none) :
    (WaylandHid.connect A connecting closing).run c =
      ((methods A).connect (WaylandHid.disconnect A closing) connecting).run c := by
  change (when (c.attributes.pointer = none) _).run c = _
  rw [when, if_pos h]

theorem waylandHid_disconnect_run :
    (WaylandHid.disconnect A closing).run c =
      if c.attributes.pointer ≠ none then ((methods A).disconnect closing).run c else .ok () c := by
  change (when (c.attributes.pointer ≠ none) _).run c = _
  unfold when
  split <;> rfl

/-- The pointer is the last thing to be set, and never set back: a cleanup before is
skipped, and after one no connection is opened again. -/
theorem waylandHid_never_recovers (hPointer : c.attributes.pointer = none)
    (h : Fails (methods A) c connecting e u) :
    ¬Recovers (WaylandHid.connect A) e ((WaylandHid.connect A connecting closing).run c) := by
  rintro ⟨t, hRun, hCurrent, -, hFresh⟩
  rw [waylandHid_connect_run hPointer] at hRun
  obtain ⟨-, hCleaned, hReturns⟩ := (h.closed_iff (fun _ => VirtualPointer.keep) waylandHid_disconnected
    (fun hSet => by rw [waylandHid_disconnect_run, if_pos hSet])
    fun hUnset => by rw [waylandHid_disconnect_run, if_neg hUnset]).mp
      ⟨hRun, hCurrent⟩
  have hOpened := hFresh { connected := {} } {} rfl
  rw [WaylandHid.connect_run_of_pointer (pointer_of_disconnect hCleaned hReturns)] at hOpened
  simp at hOpened

end WaylandHid

/-- Which failed connects leave a client disconnected and able to connect again. -/
theorem failed_connects {F X : Type} (A : Arithmetic F) :
    (∀ (c u : ScreencopyTracker.Self X) e connecting closing,
      Fails ScreencopyTracker.methods c connecting e u →
        (Recovers (fun next last => ScreencopyTracker.methods.connect
            (ScreencopyTracker.methods.disconnect last) next) e
          ((ScreencopyTracker.methods.connect (ScreencopyTracker.methods.disconnect closing)
            connecting).run c) ↔
          e.isa .exception = true ∧ closing.Quiet)) ∧
    (∀ (c u : VirtualPointer.Self F X) e connecting closing,
      Fails (VirtualPointer.methods A) c connecting e u →
        (Recovers (fun next last => (VirtualPointer.methods A).connect
            ((VirtualPointer.methods A).disconnect last) next) e
          (((VirtualPointer.methods A).connect ((VirtualPointer.methods A).disconnect closing)
            connecting).run c) ↔
          e.isa .exception = true ∧ closing.Quiet)) ∧
    (∀ (c u : ScreencopyTracker.Self X) e connecting closing, c.attributes.shmData = none →
      Fails ScreencopyTracker.methods c connecting e u →
        (Recovers Screencopy.connect e ((Screencopy.connect connecting closing).run c) ↔
          e.isa .exception = true ∧ u.attributes.shmData ≠ none ∧ closing.Quiet)) ∧
    ∀ (c u : WaylandHid.Self F) e connecting closing, c.attributes.pointer = none →
      Fails (VirtualPointer.methods A) c connecting e u →
        ¬Recovers (WaylandHid.connect A) e ((WaylandHid.connect A connecting closing).run c) := by
  refine ⟨fun c u e connecting closing h => ?_, fun c u e connecting closing h => ?_,
    fun c u e connecting closing hUnmapped h => ?_, fun c u e connecting closing hPointer h => ?_⟩
  · exact h.recovers_iff_of_plain (fun _ => ScreencopyTracker.keep) screencopy_disconnected
  · exact h.recovers_iff_of_plain (fun _ => VirtualPointer.keep) waylandHid_disconnected
  · exact screencopy_recovers_iff hUnmapped h
  · exact waylandHid_never_recovers hPointer h

/-- A compositor that offers what a tracker needs, and refuses the copy. -/
def refusedCopy : Connecting Copying where
  roundtrip := {
    events := [⟨1, "wl_shm", 1, none⟩, ⟨2, "wl_output", 3, none⟩, ⟨3, "zwlr_screencopy_manager_v1", 3, none⟩] }
  connected := {
    roundtrip := { events := [.buffer ⟨1, 640, 480, 2560, ⟨1, 3, 0, ""⟩, none, none, none, none, none⟩] }
    copy := some { cls := .runtimeError, text := "" } }

/-- A tracker as it is made. -/
def newTracker : ScreencopyTracker.Self Unit where
  attributes := { extra := () }

theorem refusedCopy_fails :
    Fails ScreencopyTracker.methods newTracker refusedCopy { cls := .runtimeError, text := "" }
      (state ((ScreencopyTracker.methods.establish refusedCopy).run newTracker.opened)) :=
  ⟨rfl, rfl, run_of_raised (by decide +kernel)⟩

theorem failed_connects_refused :
    Recovers Screencopy.connect { cls := .runtimeError, text := "" }
      ((Screencopy.connect refusedCopy {}).run newTracker) :=
  ((failed_connects (doubles wholeSqrt)).2.2.1 newTracker _ _ refusedCopy {} rfl refusedCopy_fails).mpr
    ⟨by decide, by decide +kernel, rfl, rfl⟩

/-- A hand as it is made. -/
def newHid : WaylandHid.Self Double where
  attributes := { outputScale := Double.round 1, extra := none }

/-- Over a compositor that offers nothing, neither client recovers. -/
theorem failed_connects_fails :
    ¬Recovers Screencopy.connect { cls := .assertionError, text := "zwlr_screencopy_manager_v1 not supported" }
        ((Screencopy.connect { connected := {} } {}).run newTracker) ∧
      ¬Recovers (WaylandHid.connect (doubles wholeSqrt))
        { cls := .assertionError, text := "No XDG output manager" }
        ((WaylandHid.connect (doubles wholeSqrt) { connected := {} } {}).run newHid) := by
  have hTracker : Fails ScreencopyTracker.methods newTracker { connected := {} }
      { cls := .assertionError, text := "zwlr_screencopy_manager_v1 not supported" }
      (state ((ScreencopyTracker.methods.establish { connected := {} }).run newTracker.opened)) :=
    ⟨rfl, rfl, run_of_raised (by decide +kernel)⟩
  have hHid : Fails (VirtualPointer.methods (doubles wholeSqrt)) newHid { connected := {} }
      { cls := .assertionError, text := "No XDG output manager" }
      (state (((VirtualPointer.methods (doubles wholeSqrt)).establish { connected := {} }).run
        newHid.opened)) :=
    ⟨rfl, rfl, run_of_raised (by decide +kernel)⟩
  refine ⟨fun hRecovers => ?_, waylandHid_never_recovers rfl hHid⟩
  exact ((screencopy_recovers_iff rfl hTracker).mp hRecovers).2.1 (by decide +kernel)

end MirCi.Robot
