import MirCi.Program.Crash

/-! What `wait` and `kill` tell their caller. A call that is not cancelled ends
with the output collected and `process_end` cleared, and the return code decides
what `wait` raises. Output that is no UTF-8 raises before `process_end` is cleared. -/
namespace MirCi.Program

open Python Semantics

/-- The call stays suspended on `communicate`, and nobody cancels it. -/
def Suspended (s : State) (a : Action) : Prop :=
  (∃ frame, s.caller = .awaiting frame) ∧ a ≠ .cancel

/-- The call `a` made in `s` has returned in `t`, to the body, with `raised`. -/
def Returned (s : State) (a : Action) (t : State) (raised : Option Exc) : Prop :=
  ∃ u actions, step s a = some u ∧ Runs step Suspended u actions t ∧ t.caller = .body raised

/-- The caller stands in the block without having been told of any failure, or
has left it so. -/
def Unharmed : Caller → Prop
  | .body raised | .left raised => raised = none
  | .sleeping _ => True
  | .awaiting _ => False

/-- What a call on a program that is over leaves alone. -/
def Idle (s t : State) : Prop :=
  t.tasks = s.tasks ∧ t.kills = s.kills ∧ t.output = s.output ∧ Unharmed t.caller

/-- From here on every call, and leaving the context, does nothing and raises nothing. -/
def Inert (s : State) : Prop :=
  ∀ later u, Runs step Any s later u → u.processEnd = none ∧
    ∀ a v, step u a = some v → a.timeouts.isSome = true → Idle u v

/-- The output has been collected and no call is under way. -/
structure Collected (s : State) : Prop where
  cleared : s.processEnd = none
  dead : s.isRunning = false
  free : ∀ frame, s.caller ≠ .awaiting frame

namespace Collected

/-- A call on a collected program returns at once. -/
theorem wait_eq {s : State} (h : Collected s) (frame : Frame) (timeout termTimeout : Time) :
    s.wait frame timeout termTimeout = s.finish frame none := by
  rw [State.wait_of_not_running h.dead]
  simp [State.awaitEnd, h.cleared]

theorem finish {s : State} (hCleared : s.processEnd = none) (hDead : s.isRunning = false)
    (frame : Frame) (raised : Option Exc) : Collected (s.finish frame raised) := by
  obtain ⟨caller, hEq, hFree⟩ := s.finish_eq frame raised
  rw [hEq]
  exact ⟨hCleared, hDead, hFree⟩

theorem wait {s : State} (h : Collected s) (frame : Frame) (timeout termTimeout : Time) :
    Collected (s.wait frame timeout termTimeout) ∧ Idle s (s.wait frame timeout termTimeout) := by
  rw [h.wait_eq]
  exact ⟨.finish h.cleared h.dead frame none, by cases frame <;> exact ⟨rfl, rfl, rfl, rfl⟩⟩

/-- Leaving the context of a collected program ends at once, or sleeps first. -/
theorem leave {s : State} (h : Collected s) : Collected s.leave ∧ Idle s s.leave := by
  unfold State.leave
  split
  · have hCleared : s.cancelCgroupsTask.processEnd = none := h.cleared
    simp only [State.programExit, hCleared]
    exact ⟨⟨rfl, h.dead, by simp⟩, rfl, rfl, rfl, rfl⟩
  · simp only [State.displayServerExit]
    split
    · exact ⟨⟨h.cleared, h.dead, by simp⟩, rfl, rfl, rfl, trivial⟩
    · exact h.wait .exitKill 0 defaultTermTimeout

/-- A collected program stays so, and no call does anything to it. -/
theorem step {s t : State} {a : Action} (h : Collected s) (hStep : step s a = some t) :
    Collected t ∧ (a.timeouts.isSome = true → Idle s t) := by
  cases a with
  | wait timeout termTimeout =>
      simp only [Program.step] at hStep
      split at hStep <;> cases hStep
      obtain ⟨hCollected, hIdle⟩ := h.wait .wait timeout termTimeout
      exact ⟨hCollected, fun _ => hIdle⟩
  | kill timeout =>
      simp only [Program.step] at hStep
      split at hStep <;> cases hStep
      obtain ⟨hCollected, hIdle⟩ := h.wait .kill 0 timeout
      exact ⟨hCollected, fun _ => hIdle⟩
  | leave =>
      simp only [Program.step] at hStep
      split at hStep <;> cases hStep
      exact ⟨h.leave.1, fun _ => h.leave.2⟩
  | wake =>
      simp only [Program.step] at hStep
      split at hStep
      · split at hStep <;> cases hStep
        obtain ⟨hCollected, hIdle⟩ := h.wait .exitKill 0 defaultTermTimeout
        exact ⟨hCollected, fun _ => hIdle⟩
      · cases hStep
  | cancel =>
      simp only [Program.step] at hStep
      split at hStep <;> rename_i hAwait <;> first | exact absurd hAwait (h.free _) | cases hStep
  | communicate =>
      simp only [Program.step] at hStep
      split at hStep
      · rename_i hAwait
        exact absurd hAwait (h.free _)
      · cases hStep
  | resume i delivered =>
      obtain ⟨stage, kills, sigkillSent, rfl⟩ := State.step_resume_frame hStep
      exact ⟨⟨h.cleared, h.dead, h.free⟩, by simp [Action.timeouts]⟩
  | record =>
      simp only [Program.step] at hStep
      split at hStep <;> cases hStep
      rename_i hRecord
      have hDead := h.dead
      simp_all [State.isRunning]
  | tick _ | exit _ | cgroupFound =>
      simp only [Program.step] at hStep
      split at hStep <;> cases hStep
      exact ⟨⟨h.cleared, h.dead, h.free⟩, by simp [Action.timeouts]⟩

theorem inert {s : State} (h : Collected s) : Inert s := by
  intro later u hRun
  have hCollected := hRun.invariant Collected h fun _ _ _ hInv _ hStep => (hInv.step hStep).1
  exact ⟨hCollected.cleared, fun a v hStep hCall => (hCollected.step hStep).2 hCall⟩

end Collected

/-- While calls can still be made, `process_end` is not spent. -/
def Usable (s : State) : Prop :=
  s.processEnd = some .spent → ∃ raised, s.caller = .left raised

theorem State.awaitEnd_unspent {s : State} (h : s.processEnd ≠ some .spent) (frame : Frame) :
    (s.awaitEnd frame).processEnd ≠ some .spent := by
  unfold State.awaitEnd
  split
  · obtain ⟨caller, hEq, -⟩ := s.finish_eq frame none
    rwa [hEq]
  · simp
  · obtain ⟨caller, hEq, -⟩ := s.finish_eq frame _
    rwa [hEq]
  · rename_i hSpent
    exact absurd hSpent h

theorem State.wait_unspent {s : State} (h : s.processEnd ≠ some .spent) (frame : Frame)
    (timeout termTimeout : Time) : (s.wait frame timeout termTimeout).processEnd ≠ some .spent := by
  unfold State.wait
  split
  · exact State.awaitEnd_unspent (s := s.createSignalsTask timeout termTimeout) h frame
  · exact State.awaitEnd_unspent h frame

theorem State.leave_unspent {s : State} (h : s.processEnd ≠ some .spent) :
    s.leave.processEnd ≠ some .spent := by
  have hSame : s.cancelCgroupsTask.processEnd ≠ some .spent := h
  unfold State.leave
  split
  · simp only [State.programExit]
    split
    · exact hSame
    · split
      · exact State.wait_unspent hSame .exitKill 0 defaultTermTimeout
      · exact State.awaitEnd_unspent hSame .exitDead
  · simp only [State.displayServerExit]
    split
    · exact h
    · exact State.wait_unspent h .exitKill 0 defaultTermTimeout

/-- What becomes of a call when `communicate` has ended on output that can be decoded. -/
theorem State.communicated_decoded {s : State} {text : String}
    (hDecode : decodeUtf8 s.rawOutput = some text) (frame : Frame) :
    s.communicated frame =
      { s.cancelSignalsTask with processEnd := some .spent, output := strip text }.ended frame := by
  simp [State.communicated, hDecode]

/-- Only `Program.__aexit__` itself leaves `process_end` as it found it. -/
theorem State.usable_ended (s : State) (frame : Frame) : Usable (s.ended frame) := by
  cases frame with
  | exitDead => exact fun _ => ⟨_, rfl⟩
  | wait | kill | exitKill => simp [Usable, State.ended, State.finish]

theorem Usable.unspent {s : State} (h : Usable s) (hCaller : ∀ raised, s.caller ≠ .left raised) :
    s.processEnd ≠ some .spent := by
  intro hSpent
  obtain ⟨raised, hLeft⟩ := h hSpent
  exact hCaller raised hLeft

theorem Usable.step {s t : State} {a : Action} (h : Usable s)
    (hDecode : (decodeUtf8 s.rawOutput).isSome = true) (hCancel : Uncancelled s a)
    (hStep : step s a = some t) : Usable t := by
  have hUnspent : ∀ t : State, t.processEnd ≠ some .spent → Usable t :=
    fun t hEnd hSpent => absurd hSpent hEnd
  cases a with
  | cancel => exact absurd rfl hCancel
  | wait timeout termTimeout =>
      cases hCaller : s.caller <;> simp only [Program.step, hCaller] at hStep <;> cases hStep
      exact hUnspent _ (State.wait_unspent (h.unspent (by simp [hCaller])) _ _ _)
  | kill timeout =>
      cases hCaller : s.caller <;> simp only [Program.step, hCaller] at hStep <;> cases hStep
      exact hUnspent _ (State.wait_unspent (h.unspent (by simp [hCaller])) _ _ _)
  | leave =>
      cases hCaller : s.caller <;> simp only [Program.step, hCaller] at hStep <;> cases hStep
      exact hUnspent _ (State.leave_unspent (h.unspent (by simp [hCaller])))
  | wake =>
      cases hCaller : s.caller <;> simp only [Program.step, hCaller] at hStep <;>
        first | cases hStep | skip
      split at hStep <;> cases hStep
      exact hUnspent _ (State.wait_unspent (h.unspent (by simp [hCaller])) _ _ _)
  | communicate =>
      simp only [Program.step] at hStep
      split at hStep
      · split at hStep <;> cases hStep
        obtain ⟨text, hText⟩ := Option.isSome_iff_exists.mp hDecode
        rw [State.communicated_decoded hText]
        exact State.usable_ended _ _
      · cases hStep
  | resume i delivered =>
      obtain ⟨stage, kills, sigkillSent, rfl⟩ := State.step_resume_frame hStep
      exact h
  | tick _ | exit _ | record | cgroupFound =>
      simp only [Program.step] at hStep
      split at hStep <;> cases hStep
      exact h

/-- A suspended call only moves on when `communicate` ends. -/
theorem awaiting_step {s t : State} {a : Action} {frame : Frame}
    (hCaller : s.caller = .awaiting frame) (hCancel : a ≠ .cancel) (hStep : step s a = some t) :
    t.caller = .awaiting frame ∨ s.returncode.isSome = true ∧ t = s.communicated frame := by
  cases a with
  | cancel => exact absurd rfl hCancel
  | wait _ _ | kill _ | leave | wake => simp [step, hCaller] at hStep
  | communicate =>
      simp only [step, hCaller] at hStep
      split at hStep <;> cases hStep
      exact .inr ⟨by assumption, rfl⟩
  | resume i delivered =>
      obtain ⟨stage, kills, sigkillSent, rfl⟩ := State.step_resume_frame hStep
      exact .inl hCaller
  | tick _ | exit _ | record | cgroupFound =>
      simp only [step] at hStep
      split at hStep <;> cases hStep
      exact .inl hCaller

theorem State.communicated_free (s : State) (frame f : Frame) :
    (s.communicated frame).caller ≠ .awaiting f := by
  obtain ⟨processEnd, output, raised, hEq, -⟩ := s.communicated_eq frame
  rw [hEq]
  obtain ⟨caller, hFinish, hFree⟩ :=
    { s.cancelSignalsTask with processEnd := processEnd, output := output }.finish_eq frame raised
  rw [hFinish]
  exact hFree f

/-- The run of a suspended call: it still waits, or `communicate` was its last step. -/
theorem suspended_run {s t : State} {actions : List Action} {frame : Frame}
    (hRun : Runs step Suspended s actions t) (hCaller : s.caller = .awaiting frame) :
    t.caller = .awaiting frame ∨
      ∃ before u, Runs step Suspended s before u ∧ u.returncode.isSome = true ∧
        t = u.communicated frame := by
  induction hRun with
  | nil => exact .inl hCaller
  | snoc prior admitted last ih =>
      obtain hAwaiting | ⟨before, u, -, -, rfl⟩ := ih
      · obtain hStill | ⟨hRecorded, hEnd⟩ := awaiting_step hAwaiting admitted.2 last
        · exact .inl hStill
        · exact .inr ⟨_, _, prior, hRecorded, hEnd⟩
      · obtain ⟨f, hAwaiting⟩ := admitted.1
        exact absurd hAwaiting (u.communicated_free frame f)

/-- A call that has come back takes no step of its own. -/
theorem suspended_nil {s t : State} {actions : List Action}
    (hRun : Runs step Suspended s actions t) (hFree : ∀ f, s.caller ≠ .awaiting f) : t = s := by
  cases actions with
  | nil => exact hRun.eq_of_nil
  | cons a rest =>
      obtain ⟨-, ⟨⟨f, hAwaiting⟩, -⟩, -⟩ := hRun.cons_inv
      exact absurd hAwaiting (hFree f)

/-- What `wait` makes of the return code. -/
def State.verdict (s : State) : Option Exc :=
  if s.returncode = some 0 then none
  else if s.sigkillSent then some ⟨.programError, s.name ++ " refused to terminate"⟩
  else some ⟨.programError, s.name ++ " closed with exit code " ++
    (s.returncode.map toString).getD "None"⟩

theorem State.verdict_eq_none (s : State) : s.verdict = none ↔ s.returncode = some 0 := by
  unfold State.verdict
  split
  · simp_all
  · split <;> simp_all

theorem closed_ne_refused (name code : String) :
    name ++ " closed with exit code " ++ code ≠ name ++ " refused to terminate" := by
  intro h
  have hChars := congrArg String.toList h
  simp only [String.append_assoc, String.toList_append] at hChars
  have hTail := List.append_cancel_left hChars
  simp at hTail

theorem State.verdict_eq_some {s : State} {e : Exc} (h : s.verdict = some e) :
    e.isa .programError = true ∧
      (e.text = s.name ++ " refused to terminate" ↔ s.sigkillSent = true) := by
  unfold State.verdict at h
  split at h
  · cases h
  · split at h <;> cases h
    · rename_i hSent
      exact ⟨rfl, fun _ => hSent, fun _ => rfl⟩
    · rename_i hSent
      exact ⟨rfl, fun hText => absurd hText (closed_ne_refused _ _), fun hSent' => absurd hSent' hSent⟩

/-- The await of a call that the body makes. -/
def Action.frame : Action → Option Frame
  | .wait _ _ => some .wait
  | .kill _ => some .kill
  | _ => none

/-- A call in the body is one of `wait`, with the timeouts it has. -/
theorem step_call {s t : State} {a : Action} {frame : Frame} (hFrame : a.frame = some frame)
    (hStep : step s a = some t) :
    (∃ raised, s.caller = .body raised) ∧
      ∃ timeout termTimeout, t = s.wait frame timeout termTimeout := by
  cases a with
  | wait timeout termTimeout =>
      cases hFrame
      simp only [step] at hStep
      split at hStep <;> cases hStep
      exact ⟨⟨_, by assumption⟩, _, _, rfl⟩
  | kill timeout =>
      cases hFrame
      simp only [step] at hStep
      split at hStep <;> cases hStep
      exact ⟨⟨_, by assumption⟩, _, _, rfl⟩
  | _ => cases hFrame

/-- A call is suspended on `communicate`, or has come back at once. -/
theorem State.wait_caller (s : State) (frame : Frame) (timeout termTimeout : Time) :
    (s.wait frame timeout termTimeout).caller = .awaiting frame ∨
      ∀ f, (s.wait frame timeout termTimeout).caller ≠ .awaiting f := by
  have hFinish : ∀ (t : State) raised, ∀ f, (t.finish frame raised).caller ≠ .awaiting f := by
    intro t raised
    obtain ⟨caller, hEq, hFree⟩ := t.finish_eq frame raised
    rwa [hEq]
  change ((s.called timeout termTimeout).awaitEnd frame).caller = _ ∨
    ∀ f, ((s.called timeout termTimeout).awaitEnd frame).caller ≠ _
  unfold State.awaitEnd
  split
  · exact .inr (hFinish _ _)
  · exact .inl rfl
  · exact .inr (hFinish _ _)
  · exact .inr (hFinish _ _)

theorem State.wait_fresh {s : State} (h : s.processEnd = some .fresh) (frame : Frame)
    (timeout termTimeout : Time) : (s.wait frame timeout termTimeout).caller = .awaiting frame := by
  unfold State.wait
  split
  · rw [State.awaitEnd_fresh (by simpa [State.createSignalsTask] using h)]
  · rw [State.awaitEnd_fresh h]

/-- The output of `s` has been collected in `t`, which is otherwise as `s` was. -/
structure Collects (s t : State) : Prop where
  dead : s.returncode.isSome = true
  cleared : t.processEnd = none
  returncode : t.returncode = s.returncode
  name : t.name = s.name
  kills : t.kills = s.kills

/-- The end of `communicate` collects the output and lets the call judge the return code. -/
theorem communicated_call {s : State} {a : Action} {frame : Frame}
    (hDecode : (decodeUtf8 s.rawOutput).isSome = true) (hDead : s.returncode.isSome = true)
    (hFrame : a.frame = some frame) :
    ∃ t : State, Collects s t ∧ s.communicated frame = t.finish frame s.verdict := by
  obtain ⟨text, hText⟩ := Option.isSome_iff_exists.mp hDecode
  obtain ⟨tasks, hTasks⟩ : ∃ tasks, s.cancelSignalsTask = { s with tasks := tasks } := by
    unfold State.cancelSignalsTask
    split
    · exact ⟨s.tasks, rfl⟩
    · exact ⟨_, rfl⟩
  rw [State.communicated_decoded hText, hTasks]
  cases a with
  | wait _ _ | kill _ =>
      cases hFrame
      exact ⟨{ s with tasks := tasks, processEnd := none, output := strip text },
        ⟨hDead, rfl, rfl, rfl, rfl⟩, rfl⟩
  | _ => cases hFrame

section Returned

variable {context : Context} {name : String} {rawOutput : List UInt8} {now : Time} {cgroupV2 : Bool}
  {actions : List Action} {s t : State} {a : Action} {frame : Frame} {raised : Option Exc}

/-- How a call comes back: at once, where the output was collected before, or with the
verdict on the return code that the loop has recorded. -/
theorem returned_cases
    (hRun : Runs step Uncancelled (entered context name rawOutput now cgroupV2) actions s)
    (hDecode : (decodeUtf8 rawOutput).isSome = true) (hFrame : a.frame = some frame)
    (hReturned : Returned s a t raised) :
    (Collected s ∧ t = s.finish frame none) ∨
    (s.processEnd = some .fresh ∧ ∃ before u v,
      Runs step Uncancelled (entered context name rawOutput now cgroupV2) before u ∧
        Collects u v ∧ t = v.finish frame u.verdict) := by
  obtain ⟨first, later, hCall, hLater, hBody⟩ := hReturned
  obtain ⟨⟨told, hCaller⟩, timeout, termTimeout, rfl⟩ := step_call hFrame hCall
  obtain ⟨hSound, -⟩ := sound_laddered_of_run hRun
  have hFree : ∀ f, s.caller ≠ .awaiting f := by simp [hCaller]
  have hUsable : Usable s ∧ s.rawOutput = rawOutput :=
    hRun.invariant (fun s => Usable s ∧ s.rawOutput = rawOutput) ⟨by simp [Usable, entered], rfl⟩
      fun _ _ _ ⟨hUsable, hRaw⟩ hCancel hStep =>
        ⟨hUsable.step (by rwa [hRaw]) hCancel hStep, (step_same hStep).2.2.trans hRaw⟩
  have hUnspent := hUsable.1.unspent (by simp [hCaller])
  by_cases hOver : s.Over
  · have hCleared : s.processEnd = none := hOver.resolve_right hUnspent
    have hCollected : Collected s := ⟨hCleared, (hSound.settled hOver).1, hFree⟩
    obtain ⟨hNext, -⟩ := hCollected.wait frame timeout termTimeout
    exact .inl ⟨hCollected,
      (suspended_nil hLater hNext.free).trans (hCollected.wait_eq frame timeout termTimeout)⟩
  · have hFresh := hSound.fresh_of_not_over hFree hOver
    obtain hStill | ⟨before, u, hBefore, hRecorded, hEnd⟩ :=
      suspended_run hLater (State.wait_fresh hFresh frame timeout termTimeout)
    · rw [hBody] at hStill
      cases hStill
    · have hUncancelled : Runs step Uncancelled (s.wait frame timeout termTimeout) before u :=
        hBefore.mono fun _ _ h => h.2
      have hCallStep : Uncancelled s a := by
        rintro rfl
        cases hFrame
      have hWhole := (hRun.trans (.single hCallStep hCall)).trans hUncancelled
      have hRaw : (decodeUtf8 u.rawOutput).isSome = true := by
        rwa [(sameProgram_of_run hWhole).2.2]
      obtain ⟨v, hCollects, hVerdict⟩ := communicated_call hRaw hRecorded hFrame
      exact .inr ⟨hFresh, _, u, v, hWhole, hCollects, hEnd.trans hVerdict⟩

/-- Either way the output is collected and the program is at rest. -/
theorem returned_collected
    (hRun : Runs step Uncancelled (entered context name rawOutput now cgroupV2) actions s)
    (hDecode : (decodeUtf8 rawOutput).isSome = true) (hFrame : a.frame = some frame)
    (hReturned : Returned s a t raised) : Collected t := by
  obtain ⟨hCollected, rfl⟩ | ⟨-, before, u, v, -, hCollects, rfl⟩ :=
    returned_cases hRun hDecode hFrame hReturned
  · exact .finish hCollected.cleared hCollected.dead frame none
  · have hDead := hCollects.dead
    rw [← hCollects.returncode] at hDead
    exact .finish hCollects.cleared (by simpa [State.isRunning] using hDead) frame u.verdict

theorem State.suppress_verdict (s : State) : State.suppressProgramError s.verdict = none := by
  cases hVerdict : s.verdict with
  | none => rfl
  | some e => simp [State.suppressProgramError, (State.verdict_eq_some hVerdict).1]

end Returned

/-- What `wait` and `kill` owe the callers of a program, from its start on. A call whose
process has exited comes back, and then as the last two fields say. -/
structure Verdicts (start : State) : Prop where
  completes : ∀ actions s a u later v, Runs step Uncancelled start actions s →
    a.frame.isSome = true → step s a = some u → Runs step Suspended u later v →
    (∃ frame, v.caller = .awaiting frame) → v.returncode.isSome = true →
      ∃ t raised, step v .communicate = some t ∧ Returned s a t raised
  wait : ∀ actions s timeout termTimeout t raised, Runs step Uncancelled start actions s →
    Returned s (.wait timeout termTimeout) t raised →
      (s.processEnd = none → raised = none) ∧
      (s.processEnd ≠ none → (raised = none ↔ t.returncode = some 0)) ∧
      (∀ e, raised = some e → e.isa .programError = true ∧
        (e.text = t.name ++ " refused to terminate" ↔ .SIGKILL ∈ t.kills.map KillCall.signal)) ∧
      t.processEnd = none ∧ Inert t
  kill : ∀ actions s timeout t raised, Runs step Uncancelled start actions s →
    Returned s (.kill timeout) t raised → raised = none ∧ t.processEnd = none ∧ Inert t

/-- The end of the output brings a suspended call back, whatever the output is. -/
theorem completes_of_recorded {s u v : State} {a : Action} {later : List Action}
    (hFrame : a.frame.isSome = true) (hCall : step s a = some u)
    (hLater : Runs step Suspended u later v) (hAwaiting : ∃ frame, v.caller = .awaiting frame)
    (hRecorded : v.returncode.isSome = true) :
    ∃ t raised, step v .communicate = some t ∧ Returned s a t raised := by
  obtain ⟨frame, hFrame⟩ := Option.isSome_iff_exists.mp hFrame
  obtain ⟨f, hAwaiting⟩ := hAwaiting
  have hStep : step v .communicate = some (v.communicated f) := by
    simp [step, hAwaiting, hRecorded]
  obtain ⟨⟨told, hBody⟩, timeout, termTimeout, rfl⟩ := step_call hFrame hCall
  -- The await is the one of this very call: nothing else can have been called meanwhile.
  have hSame : f = frame := by
    obtain hBegun | hBack := s.wait_caller frame timeout termTimeout
    · obtain hStill | ⟨before, w, -, -, rfl⟩ := suspended_run hLater hBegun
      · exact Caller.awaiting.inj (hAwaiting.symm.trans hStill)
      · exact absurd hAwaiting (w.communicated_free frame f)
    · obtain rfl := suspended_nil hLater hBack
      exact absurd hAwaiting (hBack f)
  subst hSame
  obtain ⟨processEnd, output, raised, hEq, -⟩ := v.communicated_eq f
  have hReturns : ∃ raised, (v.communicated f).caller = .body raised := by
    rw [hEq]
    cases a with
    | wait _ _ | kill _ =>
        cases hFrame
        exact ⟨_, rfl⟩
    | _ => cases hFrame
  obtain ⟨raised, hBack⟩ := hReturns
  have hLast : Runs step Suspended v [.communicate] (v.communicated f) :=
    .single ⟨⟨f, hAwaiting⟩, by simp⟩ hStep
  exact ⟨_, raised, hStep, _, _, hCall, hLater.trans hLast, hBack⟩

/-- Output that is no UTF-8 makes `wait` raise on a return code of zero. -/
theorem decodes_of_verdicts {context : Context} {name : String} {rawOutput : List UInt8} {now : Time}
    {cgroupV2 : Bool} (h : Verdicts (entered context name rawOutput now cgroupV2)) :
    (decodeUtf8 rawOutput).isSome = true := by
  by_contra hDecode
  have hNone : decodeUtf8 rawOutput = none := by simpa using hDecode
  let first := (entered context name rawOutput now cgroupV2).wait .wait 0 0
  let exited : State := { first with exited := some 0 }
  let dead : State := { exited with returncode := some 0 }
  have hAwaiting : first.caller = .awaiting .wait := rfl
  have hExit : step first (.exit 0) = some exited := rfl
  have hRecord : step exited .record = some dead := rfl
  have hWaits : Runs step Suspended first [.exit 0, .record] dead :=
    (Runs.single ⟨⟨.wait, hAwaiting⟩, by simp⟩ hExit).trans
      (.single ⟨⟨.wait, hAwaiting⟩, by simp⟩ hRecord)
  have hEnd : step dead .communicate = some (dead.communicated .wait) := rfl
  have hRaised : (dead.communicated .wait).caller =
      .body (some ⟨.unicodeDecodeError, "'utf-8' codec can't decode"⟩) := by
    have hRaw : decodeUtf8 dead.rawOutput = none := hNone
    simp [State.communicated, hRaw, State.finish]
  have hReturned : Returned (entered context name rawOutput now cgroupV2) (.wait 0 0)
      (dead.communicated .wait) _ :=
    ⟨first, _, rfl, hWaits.trans (.single ⟨⟨.wait, hAwaiting⟩, by simp⟩ hEnd), hRaised⟩
  have hClass := ((h.wait [] _ 0 0 _ _ (.nil _) hReturned).2.2.1 _ rfl).1
  cases hClass

/-- `wait` and `kill` keep what they owe on every run exactly when the output is UTF-8. -/
theorem verdicts_iff (context : Context) (name : String) (rawOutput : List UInt8) (now : Time)
    (cgroupV2 : Bool) :
    Verdicts (entered context name rawOutput now cgroupV2) ↔
      (decodeUtf8 rawOutput).isSome = true := by
  constructor
  · exact decodes_of_verdicts
  · intro hDecode
    refine ⟨?_, ?_, ?_⟩
    · intro actions s a u later v _ hFrame hCall hLater hAwaiting hRecorded
      exact completes_of_recorded hFrame hCall hLater hAwaiting hRecorded
    · intro actions s timeout termTimeout t raised hRun hReturned
      have hBody := hReturned.choose_spec.choose_spec.2.2
      have hCollected := returned_collected hRun hDecode rfl hReturned
      obtain ⟨hBefore, rfl⟩ | ⟨hFresh, before, u, v, hBefore, hCollects, rfl⟩ :=
        returned_cases hRun hDecode rfl hReturned
      · cases hBody
        exact ⟨fun _ => rfl, fun hEnd => absurd hBefore.cleared hEnd, by simp,
          hCollected.cleared, hCollected.inert⟩
      · cases hBody
        obtain ⟨hSound, hLadder⟩ := sound_laddered_of_run hBefore
        refine ⟨by simp [hFresh], fun _ => ?_, ?_, hCollected.cleared, hCollected.inert⟩
        · rw [u.verdict_eq_none, ← hCollects.returncode]
          rfl
        · intro e hVerdict
          obtain ⟨hClass, hText⟩ := State.verdict_eq_some hVerdict
          rw [hLadder.sigkill_iff hSound, ← hCollects.kills, ← hCollects.name] at hText
          exact ⟨hClass, hText⟩
    · intro actions s timeout t raised hRun hReturned
      have hBody := hReturned.choose_spec.choose_spec.2.2
      have hCollected := returned_collected hRun hDecode rfl hReturned
      refine ⟨?_, hCollected.cleared, hCollected.inert⟩
      obtain ⟨-, rfl⟩ | ⟨-, -, u, v, -, -, rfl⟩ := returned_cases hRun hDecode rfl hReturned
      · cases hBody
        rfl
      · cases hBody
        exact u.suppress_verdict

/-- A program that exits with 0 but writes a byte that is no UTF-8: `wait` raises. -/
theorem wait_raises_on_bad_output :
    ¬∀ context name rawOutput now cgroupV2,
      Verdicts (entered context name rawOutput now cgroupV2) := by
  intro h
  have hDecode := decodes_of_verdicts (h .program "app" [0xff] 0 true)
  revert hDecode
  decide +kernel

end MirCi.Program
