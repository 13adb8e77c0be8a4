import MirCi.Robot.Vnc
import MirCi.Robot.WaylandHid

/-! The two pointer libraries send the same motions, return the same positions and
track the same position. -/
namespace MirCi.Robot

open Python Semantics Effect Wayland VirtualPointer

variable {F : Type}

/-- Both clients are connected to outputs of one size, hold the same position and have
sent the same motions after `m` and `n`. -/
structure Alike (s : Screen F) (m n : List Position) (w : View F (Option Position)) (v : Vnc) :
    Prop where
  screen : w.screen = s
  pointer : w.pointer ≠ none
  position : w.extra = v.pointerPosition
  video : v.client.map VncClient.video = some ⟨s.width, s.height⟩
  motions : ∃ l, w.motions = m ++ l ∧ v.motions = n ++ l

namespace Alike

variable {s : Screen F} {m n : List Position} {w : View F (Option Position)} {v : Vnc}

theorem setPosition (h : Alike s m n w v) (p : Position) :
    Alike s m n { w with extra := some p } (v.setPosition p) :=
  ⟨h.screen, h.pointer, rfl, h.video, h.motions⟩

theorem move (h : Alike s m n w v) (p : Position) :
    ∃ v', (Vnc.mouseMove p.1 p.2 none).run v = .ok () v' ∧ Alike s m n (w.moved p) v' := by
  obtain ⟨l, hFirst, hSecond⟩ := h.motions
  cases hClient : v.client with
  | none =>
      have hVideo := h.video
      rw [hClient] at hVideo
      cases hVideo
  | some client =>
      refine ⟨_, rfl, h.screen, h.pointer, h.position, ?_, l ++ [p], ?_, ?_⟩
      · have hVideo := h.video
        rw [hClient] at hVideo
        simpa [hClient] using hVideo
      · simp [View.moved, hFirst]
      · have hSent : client.sent.map (fun mouse => (mouse.x, mouse.y)) = n ++ l := by
          simpa [Vnc.motions, hClient] using hSecond
        simp [Vnc.motions, hClient, hSent]

theorem client_ne_none (h : Alike s m n w v) : v.client ≠ none := by
  intro hNone
  have hVideo := h.video
  rw [hNone] at hVideo
  cases hVideo

theorem connect_run {answers : Vnc.Answers F} (h : Alike s m n w v) :
    (Vnc.connect answers).run v = .ok () v :=
  Vnc.connect_run_of_client h.client_ne_none

theorem requireClient_run (h : Alike s m n w v) : Vnc.requireClient.run v = .ok () v :=
  Vnc.requireClient_run_of_client h.client_ne_none

end Alike

section Follows

variable {A : Arithmetic F} {s : Screen F} {m n : List Position}

/-- The clients behind a view and a connection are alike. -/
def Related (s : Screen F) (m n : List Position) (c : WaylandHid.Self F) (v : Vnc) : Prop :=
  Alike s m n c.attributes.view v

theorem Related.screen_eq {c : WaylandHid.Self F} {v : Vnc} (h : Related s m n c v) :
    c.attributes.screen = s := h.screen

/-- A motion of the virtual pointer is sent in whole pixels, as the other library sends it. -/
theorem follows_move {x y : Number F} {a : Sending} (h : a.Steady A s) :
    Follows (Related s m n) (moveToAbsolute A x y a) (do
      let left ← compute (x.toInt A)
      let top ← compute (y.toInt A)
      Vnc.mouseMove left top none) := by
  intro c v hRelated _ c' hRun
  have hSteady : a.Steady A c.attributes.screen := hRelated.screen_eq ▸ h
  obtain ⟨p, hLands, hView⟩ := moveToAbsolute_ok hRelated.pointer hSteady hRun
  obtain ⟨-, hLeft, hTop⟩ := landing_eq_some.mp hLands
  obtain ⟨v', hMove, hAlike⟩ := hRelated.move p
  rw [hLeft, hTop]
  refine ⟨v', hMove, ?_⟩
  rw [Related, hView]
  exact hAlike

/-- The clients' sleeps leave them alike. -/
theorem follows_sleep {a : Sleep PointerEvent} (h : SteadySleep A s a) :
    Follows (Related s m n) ((methods A).sleep a) (outside none) := by
  intro c v hRelated _ c' hRun
  have hSteady : SteadySleep A c.attributes.screen a := hRelated.screen_eq ▸ h
  have hKept := keeps_sleep_view hSteady c rfl
  rw [hRun] at hKept
  refine ⟨v, rfl, ?_⟩
  rw [Related, show c'.attributes.view = c.attributes.view from hKept]
  exact hRelated

theorem follows_connect {connecting : Connecting Outputs} {closing : Closing PointerEvent}
    {answers : Vnc.Answers F} :
    Follows (Related s m n) (WaylandHid.connect A connecting closing) (Vnc.connect answers) := by
  intro c v hRelated _ c' hRun
  rw [WaylandHid.connect_run_of_pointer hRelated.pointer] at hRun
  cases hRun
  exact ⟨v, hRelated.connect_run, hRelated⟩

theorem follows_setPosition (p : Position) :
    Follows (Related s m n) (modify (WaylandHid.setPosition p) : Method (WaylandHid.Self F) Unit)
      (modify (Vnc.setPosition p) : Method Vnc Unit) :=
  follows_modify fun _ _ hRelated => hRelated.setPosition p

theorem follows_getAbsoluteFromProportional (x y : F) :
    Follows (Related s m n) (WaylandHid.getAbsoluteFromProportional A x y)
      (Vnc.getAbsoluteFromProportional A x y) := by
  refine follows_after (fun _ _ hRelated => hRelated.requireClient_run) ?_
  refine follows_get_bind fun c v hRelated => ?_
  have hWidth : c.attributes.outputWidth = s.width := congrArg Screen.width hRelated.screen
  have hHeight : c.attributes.outputHeight = s.height := congrArg Screen.height hRelated.screen
  rw [hRelated.video]
  dsimp only [Option.getD_some]
  rw [hWidth, hHeight]
  exact follows_absoluteFromProportional x y _ _

variable {wayland : WaylandHid.Answers F} {vnc : Vnc.Answers F} (hSteady : wayland.Steady A s)
  (hQuiet : vnc.Quiet)
include hSteady hQuiet

theorem follows_movePointerToAbsolute (p : Position) :
    Follows (Related s m n) (WaylandHid.movePointerToAbsolute A p wayland)
      (Vnc.movePointerToAbsolute p vnc) := by
  refine follows_bind follows_connect fun _ => ?_
  refine follows_after (fun _ _ hRelated => hRelated.requireClient_run) ?_
  have hMove := follows_move (x := .int p.1) (y := .int p.2) (m := m) (n := n) hSteady.move
  rw [hQuiet.move]
  exact follows_bind hMove fun _ => follows_setPosition p

theorem follows_walkPointerToAbsolute (q : Position) (stepDistance : ℤ) (delay : F) :
    Follows (Related s m n) (WaylandHid.walkPointerToAbsolute A q stepDistance delay wayland)
      (Vnc.walkPointerToAbsolute A q stepDistance delay vnc) := by
  refine follows_bind follows_connect fun _ => ?_
  refine follows_after (fun _ _ hRelated => hRelated.requireClient_run) ?_
  refine follows_walk (fun _ _ hRelated => hRelated.position)
    (fun _ _ p hRelated => hRelated.setPosition p) ?_ (fun k point => ?_) q stepDistance
  · have hOrigin := follows_move (x := .int 0) (y := .int 0) (m := m) (n := n) hSteady.move
    dsimp only [Vnc.hand]
    rw [hQuiet.move]
    exact hOrigin
  · have hMove := follows_move (x := .float point.1) (y := .float point.2) (m := m) (n := n)
      (hSteady.send k)
    dsimp only [Vnc.hand]
    rw [hQuiet.write, hQuiet.sleep]
    have hStep := follows_bind hMove fun _ => follows_sleep (hSteady.sleep delay k)
    simp only [bind_assoc] at hStep
    exact hStep

theorem follows_walkPointerToProportional (x y : F) (stepDistance : ℤ) (delay : F) :
    Follows (Related s m n) (WaylandHid.walkPointerToProportional A x y stepDistance delay wayland)
      (Vnc.walkPointerToProportional A x y stepDistance delay vnc) := by
  refine follows_bind follows_connect fun _ => ?_
  refine follows_bind (follows_getAbsoluteFromProportional x y) fun q => ?_
  refine follows_bind (follows_walkPointerToAbsolute hSteady hQuiet q stepDistance delay) fun _ => ?_
  exact follows_pure q

/-- The order differs here: one library moves and then computes the position, the other
computes it first. -/
theorem follows_movePointerToProportional (x y : F) :
    Follows (Related s m n) (WaylandHid.movePointerToProportional A x y wayland)
      (Vnc.movePointerToProportional A x y vnc) := by
  refine follows_bind follows_connect fun _ => ?_
  intro c v hRelated p c' hRun
  have hWidth : c.attributes.outputWidth = s.width := congrArg Screen.width hRelated.screen
  have hHeight : c.attributes.outputHeight = s.height := congrArg Screen.height hRelated.screen
  have hSteadyHere : wayland.move.Steady A c.attributes.screen := hRelated.screen_eq ▸ hSteady.move
  -- what the first library did
  obtain ⟨_, c₁, hMove, hRun⟩ := run_bind_ok.mp hRun
  obtain ⟨p', c₂, hAbsolute, hRun⟩ := run_bind_ok.mp hRun
  obtain ⟨_, _, hGet, hMove⟩ := run_bind_ok.mp hMove
  cases hGet
  obtain ⟨left, _, hCompute, hMove⟩ := run_bind_ok.mp hMove
  obtain ⟨hLeft, rfl⟩ := compute_run_ok.mp hCompute
  obtain ⟨top, _, hCompute', hMove⟩ := run_bind_ok.mp hMove
  obtain ⟨hTop, rfl⟩ := compute_run_ok.mp hCompute'
  obtain ⟨q, hLands, hView⟩ := moveToAbsolute_ok hRelated.pointer hSteadyHere hMove
  obtain ⟨_, _, hGet, hAbsolute⟩ := run_bind_ok.mp hAbsolute
  cases hGet
  obtain ⟨hRange, ⟨left', hLeft', hFirst⟩, ⟨top', hTop', hSecond⟩, rfl⟩ :=
    absoluteFromProportional_ok.mp hAbsolute
  have hScreen : c₁.attributes.screen = c.attributes.screen := congrArg View.screen hView
  have hWidth₁ : c₁.attributes.outputWidth = s.width := (congrArg Screen.width hScreen).trans hWidth
  have hHeight₁ : c₁.attributes.outputHeight = s.height := (congrArg Screen.height hScreen).trans hHeight
  rw [hWidth₁] at hLeft'
  rw [hHeight₁] at hTop'
  rw [hWidth] at hLeft
  rw [hHeight] at hTop
  obtain rfl := Except.ok.inj (hLeft.symm.trans hLeft')
  obtain rfl := Except.ok.inj (hTop.symm.trans hTop')
  obtain ⟨-, hLands₁, hLands₂⟩ := landing_eq_some.mp hLands
  obtain rfl : p' = q := Prod.ext (Except.ok.inj (hFirst.symm.trans hLands₁))
    (Except.ok.inj (hSecond.symm.trans hLands₂))
  cases hRun
  -- the second library computes the same position and sends it
  obtain ⟨v', hSent, hAlike⟩ := hRelated.move p
  have hComputed : (Vnc.getAbsoluteFromProportional A x y).run v = .ok p v := by
    refine run_bind_ok.mpr ⟨(), v, hRelated.requireClient_run, run_bind_ok.mpr ⟨v, v, rfl, ?_⟩⟩
    rw [hRelated.video]
    rw [hWidth₁, hHeight₁] at hRange
    exact absoluteFromProportional_ok.mpr ⟨hRange, ⟨left, hLeft, hFirst⟩, ⟨top, hTop, hSecond⟩, rfl⟩
  have hMoved : (Vnc.movePointerToAbsolute p vnc).run v = .ok () (v'.setPosition p) := by
    refine run_bind_ok.mpr ⟨(), v, hRelated.connect_run, ?_⟩
    refine run_bind_ok.mpr ⟨(), v, hRelated.requireClient_run, run_bind_ok.mpr ⟨(), v', ?_, rfl⟩⟩
    rw [hQuiet.move]
    exact hSent
  refine ⟨v'.setPosition p, run_bind_ok.mpr ⟨p, v, hComputed, run_bind_ok.mpr ⟨(), _, hMoved, rfl⟩⟩, ?_⟩
  rw [← hView] at hAlike
  exact hAlike.setPosition p

theorem follows_call (k : PointerCall F) :
    Follows (Related s m n) (WaylandHid.call A wayland k) (Vnc.call A vnc k) := by
  cases k with
  | moveToAbsolute p =>
      exact follows_bind (follows_movePointerToAbsolute hSteady hQuiet p) fun _ => follows_pure none
  | moveToProportional x y =>
      exact follows_bind (follows_movePointerToProportional hSteady hQuiet x y) fun p => follows_pure (some p)
  | walkToAbsolute p stepDistance delay =>
      exact follows_bind (follows_walkPointerToAbsolute hSteady hQuiet p stepDistance delay) fun _ =>
        follows_pure none
  | walkToProportional x y stepDistance delay =>
      exact follows_bind (follows_walkPointerToProportional hSteady hQuiet x y stepDistance delay) fun p =>
        follows_pure (some p)

end Follows

/-! ### A whole run -/

/-- A keyword call with the answers that either library gets. -/
structure Call (F : Type) where
  keyword : PointerCall F
  wayland : WaylandHid.Answers F
  vnc : Vnc.Answers F

/-- The calls one after the other, and what they return. -/
def WaylandHid.suite (A : Arithmetic F) (calls : List (Call F)) :
    Method (Self F) (List (Option Position)) :=
  calls.mapM fun k => call A k.wayland k.keyword

def Vnc.suite (A : Arithmetic F) (calls : List (Call F)) : Method Vnc (List (Option Position)) :=
  calls.mapM fun k => call A k.vnc k.keyword

/-- Once connected, as the first call connects them, both libraries see outputs of one size. -/
structure SameSize (A : Arithmetic F) (s : Screen F) (c : WaylandHid.Self F) (v : Vnc) (first : Call F) :
    Prop where
  wayland : ∀ c', (WaylandHid.connect A first.wayland.connecting first.wayland.closing).run c =
    .ok () c' → c'.attributes.screen = s
  vnc : ∃ v', (Vnc.connect first.vnc).run v = .ok () v' ∧
    v'.client.map VncClient.video = some ⟨s.width, s.height⟩

/-- Whatever the suite, the keywords the first library carries out the second carries out
too: it returns the same, sends the same motions and ends with the same position. -/
theorem pointers_agree (A : Arithmetic F) (s : Screen F) (c : WaylandHid.Self F) (v : Vnc)
    (hPosition : c.attributes.extra = v.pointerPosition) (calls : List (Call F))
    (hSize : ∀ first ∈ calls.head?, SameSize A s c v first)
    (hSteady : ∀ k ∈ calls, k.wayland.Steady A s) (hQuiet : ∀ k ∈ calls, k.vnc.Quiet)
    {results : List (Option Position)} {c' : WaylandHid.Self F}
    (hRun : (WaylandHid.suite A calls).run c = .ok results c') :
    ∃ v' l, (Vnc.suite A calls).run v = .ok results v' ∧
      motions c'.attributes.sent = motions c.attributes.sent ++ l ∧ v'.motions = v.motions ++ l ∧
      c'.attributes.extra = v'.pointerPosition := by
  cases calls with
  | nil =>
      cases hRun
      exact ⟨v, [], rfl, by simp, by simp, hPosition⟩
  | cons first rest =>
      obtain ⟨hScreen, v₁, hVnc, hVideo⟩ := hSize first (by simp)
      have hCalls := hRun
      rw [WaylandHid.suite, List.mapM_cons] at hCalls
      obtain ⟨r, c₂, hCall, -⟩ := run_bind_ok.mp hCalls
      obtain ⟨c₁, hConnect⟩ := WaylandHid.connect_of_call hCall
      -- connecting first changes nothing for the keywords
      have hFirst : (WaylandHid.suite A (first :: rest)).run c = (WaylandHid.suite A (first :: rest)).run c₁ := by
        rw [WaylandHid.suite, List.mapM_cons, EStateM.run_bind, EStateM.run_bind,
          WaylandHid.call_run_of_connect hConnect]
      have hSecond : (Vnc.suite A (first :: rest)).run v = (Vnc.suite A (first :: rest)).run v₁ := by
        rw [Vnc.suite, List.mapM_cons, EStateM.run_bind, EStateM.run_bind, Vnc.call_run_of_connect A hVnc]
      have hKept := WaylandHid.connect_unmoved (A := A) first.wayland.connecting first.wayland.closing c
      rw [hConnect, state_ok] at hKept
      obtain ⟨hExtra, hSent⟩ := hKept
      obtain ⟨hPosition₁, hMotions₁⟩ : v₁.pointerPosition = v.pointerPosition ∧ v₁.motions = v.motions := by
        rcases Vnc.connect_ok hVnc with ⟨rfl, -⟩ | ⟨hNone, video, rfl⟩
        · exact ⟨rfl, rfl⟩
        · simp [Vnc.motions, hNone]
      have hRelated : Related s (motions c.attributes.sent) v.motions c₁ v₁ := by
        refine ⟨hScreen c₁ hConnect, WaylandHid.pointer_of_connect hConnect, ?_, hVideo, [], ?_, ?_⟩
        · exact hExtra.trans (hPosition.trans hPosition₁.symm)
        · simp [view, hSent]
        · simp [hMotions₁]
      have hFollows : Follows (Related s (motions c.attributes.sent) v.motions)
          (WaylandHid.suite A (first :: rest)) (Vnc.suite A (first :: rest)) :=
        follows_mapM fun k hk => follows_call (hSteady k hk) (hQuiet k hk) k.keyword
      rw [hFirst] at hRun
      obtain ⟨v', hVncRun, hEnd⟩ := hFollows c₁ v₁ hRelated results c' hRun
      obtain ⟨l, hWaylandMotions, hVncMotions⟩ := hEnd.motions
      exact ⟨v', l, hSecond.trans hVncRun, hWaylandMotions, hVncMotions, hEnd.position⟩

/-- A walk to a point on which no call of either library raises. -/
def walkTo (q : Position) : Call Double where
  keyword := .walkToAbsolute q 20 (Double.round 0)
  wayland := {
    connecting := { connected := {} }
    closing := {}
    move := {}
    send := fun _ => {}
    sleep := fun _ _ => {} }
  vnc := { create := .ok ⟨640, 480⟩ }

theorem pointers_agree_walk :
    value ((WaylandHid.suite (doubles wholeSqrt) [walkTo (30, 40)]).run WaylandHid.vga) = some [none] ∧
      ∃ v' l, (Vnc.suite (doubles wholeSqrt) [walkTo (30, 40)]).run {} = .ok [none] v' ∧
        motions (state ((WaylandHid.suite (doubles wholeSqrt) [walkTo (30, 40)]).run
          WaylandHid.vga)).attributes.sent = [] ++ l ∧ v'.motions = [] ++ l ∧
        (state ((WaylandHid.suite (doubles wholeSqrt) [walkTo (30, 40)]).run
          WaylandHid.vga)).attributes.extra = v'.pointerPosition := by
  have hReturns : value ((WaylandHid.suite (doubles wholeSqrt) [walkTo (30, 40)]).run
      WaylandHid.vga) = some [none] := by decide +kernel
  have hQuietEvents : (walkTo (30, 40)).wayland.Steady (doubles wholeSqrt) WaylandHid.vga.attributes.screen :=
    ⟨by simp [Sending.Steady, walkTo], by simp [Sending.Steady, walkTo], by simp [SteadySleep, walkTo]⟩
  refine ⟨hReturns, pointers_agree (doubles wholeSqrt) WaylandHid.vga.attributes.screen WaylandHid.vga {}
    rfl [walkTo (30, 40)] ?_ ?_ ?_ (run_of_value hReturns)⟩
  · intro first hFirst
    obtain rfl : walkTo (30, 40) = first := by simpa using hFirst
    refine ⟨fun c' hConnect => ?_, _, rfl, rfl⟩
    rw [WaylandHid.connect_run_of_pointer (by simp [WaylandHid.vga])] at hConnect
    cases hConnect
    rfl
  · simpa using hQuietEvents
  · simpa using (⟨rfl, fun _ => rfl, fun _ _ => rfl⟩ : (walkTo (30, 40)).vnc.Quiet)

end MirCi.Robot
