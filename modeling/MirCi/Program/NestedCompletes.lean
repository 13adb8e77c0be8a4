import MirCi.Program.Nested

/-! No state that a test gets into is a dead end: its programs may still exit, the loop may take notice
of it, and the blocks may then be left one after another. -/
namespace MirCi.Program.Nested

open Python Semantics Semantics.Nesting

/-- No call of the program is suspended. -/
def settled : Caller → Bool
  | .body _ | .left _ => true
  | .awaiting _ | .sleeping _ => false

/-- A program stands where it did. -/
def Stands (m k : Member) : Prop := k.state.caller = m.state.caller ∧ k.failed = m.failed

/-- The tests differ in the program at the index, and otherwise no program stands elsewhere. -/
structure Elsewhere (i : ℕ) (n n' : Test) : Prop where
  stack : n'.stack = n.stack
  others : ∀ j ≠ i, ∀ m, n.members[j]? = some m → ∃ k, n'.members[j]? = some k ∧ Stands m k

theorem Elsewhere.refl (i : ℕ) (n : Test) : Elsewhere i n n := ⟨rfl, fun _ _ m hm => ⟨m, hm, rfl, rfl⟩⟩

theorem Elsewhere.trans {i : ℕ} {n₀ n₁ n₂ : Test} (h : Elsewhere i n₀ n₁) (h' : Elsewhere i n₁ n₂) :
    Elsewhere i n₀ n₂ := by
  refine ⟨h'.stack.trans h.stack, fun j hj m hm => ?_⟩
  obtain ⟨k, hk, hCaller, hFailed⟩ := h.others j hj m hm
  obtain ⟨l, hl, hCaller', hFailed'⟩ := h'.others j hj k hk
  exact ⟨l, hl, hCaller'.trans hCaller, hFailed'.trans hFailed⟩

section Moves

variable {n : Test} {i : ℕ} {m : Member} {s : State} {a : Action}

/-- Nothing cancels a call. -/
def Undisturbed (_ : Test) (move : Move Entry Action) : Prop := ∀ i, move ≠ .acts i .cancel

/-- Moves of the program at the index lead from one test to the other. -/
def Leads (i : ℕ) (n n' : Test) : Prop :=
  (∃ moves, Runs (Nesting.step programs) Undisturbed n moves n') ∧ Elsewhere i n n'

theorem Leads.refl (i : ℕ) (n : Test) : Leads i n n := ⟨⟨[], .nil n⟩, .refl i n⟩

theorem Leads.trans {n₀ n₁ n₂ : Test} (h : Leads i n₀ n₁) (h' : Leads i n₁ n₂) : Leads i n₀ n₂ := by
  obtain ⟨⟨moves, hRun⟩, hElse⟩ := h
  obtain ⟨⟨later, hLater⟩, hElse'⟩ := h'
  exact ⟨⟨moves ++ later, hRun.trans hLater⟩, hElse.trans hElse'⟩

theorem own_move (hRole : role a = .own) (hm : n.members[i]? = some m)
    (hStep : Program.step m.state a = some s) :
    a ≠ .cancel → ∃ n', Leads i n n' ∧ n'.members[i]? = some ⟨s, m.failed⟩ := by
  intro hQuiet
  have hMember : programs.step m a = some ⟨s, m.failed⟩ := by
    simp [programs, Member.step, hRole, hStep]
  have hOwn : programs.role a = .own := hRole
  let n' : Test := { n with members := n.members.set i ⟨s, m.failed⟩ }
  have hMove : Nesting.step programs n (.acts i a) = some n' := by
    simp [Nesting.step, hOwn, act, hm, hMember, n']
  refine ⟨n', ⟨⟨_, .single (by simp [Undisturbed, hQuiet]) hMove⟩, rfl, fun j hj k hk => ⟨k, ?_, rfl, rfl⟩⟩, ?_⟩
  · simpa [n', List.getElem?_set_ne hj.symm] using hk
  · exact List.getElem?_set_self (List.getElem?_eq_some_iff.mp hm).1

theorem tick_move {elapsed : Time} (hElapsed : 0 ≤ elapsed) (hm : n.members[i]? = some m) :
    ∃ n', Leads i n n' ∧ n'.members[i]? = some ⟨{ m.state with now := m.state.now + elapsed }, m.failed⟩ := by
  let later (k : Member) : Member := ⟨{ k.state with now := k.state.now + elapsed }, k.failed⟩
  have hStep (k : Member) : programs.step k (.tick elapsed) = some (later k) := by
    simp [programs, Member.step, role, Program.step, hElapsed, later]
  have hShared : programs.role (.tick elapsed) = .shared := rfl
  have hMove : Nesting.step programs n (.acts i (.tick elapsed)) =
      some { n with members := n.members.map later } := by
    simp [Nesting.step, hShared, hStep]
  refine ⟨_, ⟨⟨_, .single (by simp [Undisturbed]) hMove⟩, rfl, fun j _ k hk => ⟨later k, ?_, rfl, rfl⟩⟩, ?_⟩
  · simp [hk]
  · simp [hm, later]

/-- The process may exit, and the loop take notice of it. -/
theorem leads_recorded (hm : n.members[i]? = some m) : ∃ n' s, Leads i n n' ∧
    n'.members[i]? = some ⟨s, m.failed⟩ ∧ s.caller = m.state.caller ∧ s.returncode.isSome = true := by
  have hRecord {n₁ : Test} {s₁ : State} (hn : Leads i n n₁) (hs : n₁.members[i]? = some ⟨s₁, m.failed⟩)
      (hExited : s₁.exited.isSome = true) (hCaller : s₁.caller = m.state.caller) :
      ∃ n' s, Leads i n n' ∧ n'.members[i]? = some ⟨s, m.failed⟩ ∧ s.caller = m.state.caller ∧
        s.returncode.isSome = true := by
    by_cases hNone : s₁.returncode = none
    · obtain ⟨n₂, hLeads, hState⟩ := own_move (a := .record) (s := { s₁ with returncode := s₁.exited }) rfl hs
        (by simp [Program.step, hExited, hNone]) (by simp)
      exact ⟨n₂, _, hn.trans hLeads, hState, hCaller, hExited⟩
    · exact ⟨n₁, s₁, hn, hs, hCaller, Option.isSome_iff_ne_none.mpr hNone⟩
  by_cases hRunning : m.state.exited = none
  · obtain ⟨n₁, hLeads, hState⟩ := own_move (a := .exit 0) (s := { m.state with exited := some 0 }) rfl hm
      (by simp [Program.step, hRunning]) (by simp)
    exact hRecord hLeads hState rfl rfl
  · exact hRecord (.refl i n) hm (Option.isSome_iff_ne_none.mpr hRunning) rfl

/-- A call that is suspended may return. -/
theorem leads_returned {frame : Frame} (hm : n.members[i]? = some m)
    (hAwaiting : m.state.caller = .awaiting frame) : ∃ n' s raised, Leads i n n' ∧
      n'.members[i]? = some ⟨s, m.failed⟩ ∧ s.caller = back raised frame := by
  obtain ⟨n₁, s, hLeads, hs, hCaller, hRecorded⟩ := leads_recorded hm
  obtain ⟨⟨raised, hBack⟩, -⟩ := communicated_caller s frame
  obtain ⟨n₂, hLater, hState⟩ := own_move (a := .communicate) (s := s.communicated frame) rfl hs
    (by simp [Program.step, hCaller.trans hAwaiting, hRecorded]) (by simp)
  exact ⟨n₂, _, raised, hLeads.trans hLater, hState, hBack⟩

theorem settled_back (raised : Option Exc) (frame : Frame) : settled (back raised frame) = true := by
  cases frame <;> rfl

/-- A sleep may be over. -/
theorem leads_awake {due : Time} (hm : n.members[i]? = some m) (hSleeping : m.state.caller = .sleeping due) :
    ∃ n' s, Leads i n n' ∧ n'.members[i]? = some ⟨s, m.failed⟩ ∧
      (s.caller = .awaiting .exitKill ∨ ∃ raised, s.caller = .left raised) := by
  obtain ⟨n₁, hLeads, hs⟩ := tick_move (abs_nonneg (due - m.state.now)) hm
  have hDue : due ≤ m.state.now + |due - m.state.now| := by
    have hAbs := le_abs_self (due - m.state.now)
    linarith
  obtain ⟨n₂, hLater, hState⟩ := own_move (a := .wake) rfl hs
    (by simp only [Program.step, hSleeping, if_pos hDue]; rfl) (by simp)
  exact ⟨n₂, _, hLeads.trans hLater, hState, awaitEnd_caller _ .exitKill⟩

/-- Whatever call is suspended may come to its end. -/
theorem leads_settled (hm : n.members[i]? = some m) : ∃ n' s, Leads i n n' ∧
    n'.members[i]? = some ⟨s, m.failed⟩ ∧ settled s.caller = true ∧ inside s.caller = inside m.state.caller := by
  cases hCaller : m.state.caller with
  | body raised | left raised => exact ⟨n, m.state, .refl i n, hm, by rw [hCaller]; rfl, by rw [hCaller]⟩
  | awaiting frame =>
      obtain ⟨n', s, raised, hLeads, hs, hBack⟩ := leads_returned hm hCaller
      exact ⟨n', s, hLeads, hs, by rw [hBack, settled_back], by rw [hBack, inside_back]⟩
  | sleeping due =>
      obtain ⟨n₁, s, hLeads, hs, hAwake⟩ := leads_awake hm hCaller
      rcases hAwake with hAwaiting | ⟨raised, hLeft⟩
      · obtain ⟨n₂, t, raised, hLater, ht, hBack⟩ := leads_returned hs hAwaiting
        exact ⟨n₂, t, hLeads.trans hLater, ht, by rw [hBack, settled_back], by rw [hBack]; rfl⟩
      · exact ⟨n₁, s, hLeads, hs, by rw [hLeft]; rfl, by rw [hLeft]; rfl⟩

end Moves

/-! ### Leaving every block -/

section Completes

variable {n : Test}

/-- A program whose block is as open as it was, and no call of which was started. -/
structure Calmer (m k : Member) : Prop where
  failed : k.failed = m.failed
  inside : inside k.state.caller = inside m.state.caller
  settled : settled m.state.caller = true → settled k.state.caller = true

theorem leads_calmer {i : ℕ} {n' : Test} {m : Member} {s : State} (h : Leads i n n')
    (hm : n.members[i]? = some m) (hs : n'.members[i]? = some ⟨s, m.failed⟩) (hSettled : settled s.caller = true)
    (hInside : inside s.caller = inside m.state.caller) :
    ∀ (j : ℕ) k, n.members[j]? = some k → ∃ l : Member, n'.members[j]? = some l ∧ Calmer k l := by
  intro j k hk
  by_cases hSame : j = i
  · subst hSame
    obtain rfl := Option.some.inj (hm.symm.trans hk)
    exact ⟨_, hs, rfl, hInside, fun _ => hSettled⟩
  · obtain ⟨l, hl, hCaller, hFailed⟩ := h.2.others j hSame k hk
    exact ⟨l, hl, hFailed, by rw [hCaller], by rw [hCaller]; exact id⟩

/-- All calls that are suspended may come to their end. -/
theorem runs_settled (indices : List ℕ) (n : Test) : ∃ n' moves, Runs (Nesting.step programs) Undisturbed n moves n' ∧
    n'.stack = n.stack ∧ (∀ (j : ℕ) k, n.members[j]? = some k → ∃ l : Member, n'.members[j]? = some l ∧ Calmer k l) ∧
    ∀ j ∈ indices, ∀ l, n'.members[j]? = some l → j < n.members.length → settled l.state.caller = true := by
  induction indices generalizing n with
  | nil => exact ⟨n, [], .nil n, rfl, fun j k hk => ⟨k, hk, rfl, rfl, id⟩, by simp⟩
  | cons i indices ih =>
      by_cases hBound : i < n.members.length
      · obtain ⟨n₁, s, hLeads, hs, hSettled, hInside⟩ := leads_settled (List.getElem?_eq_getElem hBound)
        have hCalmer := leads_calmer hLeads (List.getElem?_eq_getElem hBound) hs hSettled hInside
        obtain ⟨n₂, moves, hRun, hStack, hLater, hRest⟩ := ih n₁
        obtain ⟨⟨first, hFirst⟩, hElse⟩ := hLeads
        refine ⟨n₂, first ++ moves, hFirst.trans hRun, hStack.trans hElse.stack, fun j k hk => ?_, ?_⟩
        · obtain ⟨l, hl, hOne⟩ := hCalmer j k hk
          obtain ⟨o, ho, hTwo⟩ := hLater j l hl
          exact ⟨o, ho, hTwo.failed.trans hOne.failed, hTwo.inside.trans hOne.inside,
            fun h => hTwo.settled (hOne.settled h)⟩
        · intro j hj l hl hStart
          obtain ⟨k, hk⟩ : ∃ k, n.members[j]? = some k := ⟨_, List.getElem?_eq_getElem hStart⟩
          obtain ⟨o, ho, -⟩ := hCalmer j k hk
          rcases List.mem_cons.mp hj with rfl | hTail
          · obtain ⟨l', hl', hTwo⟩ := hLater j _ hs
            obtain rfl := Option.some.inj (hl'.symm.trans hl)
            exact hTwo.settled hSettled
          · exact hRest j hTail l hl (List.getElem?_eq_some_iff.mp ho).1
      · obtain ⟨n₂, moves, hRun, hStack, hLater, hRest⟩ := ih n
        refine ⟨n₂, moves, hRun, hStack, hLater, fun j hj l hl hStart => ?_⟩
        rcases List.mem_cons.mp hj with rfl | hTail
        · exact absurd hStart hBound
        · exact hRest j hTail l hl hStart

/-- The block of a program that is out may be closed. -/
theorem runs_closes {i : ℕ} {rest : List ℕ} {m : Member} (hStack : n.stack = i :: rest)
    (hm : n.members[i]? = some m) (hOut : programs.out m = true) :
    Runs (Nesting.step programs) Undisturbed n [.closes] { n with stack := rest } :=
  .single (by simp [Undisturbed]) (by simp [Nesting.step, hStack, hm, hOut])

theorem body_of_settled {c : Caller} (hSettled : settled c = true) (hInside : inside c = true) :
    idle c = true := by
  cases c <;> simp_all [settled, inside, idle]

theorem left_of_settled {c : Caller} (hSettled : settled c = true) (hInside : inside c = false) :
    ∃ raised, c = .left raised := by
  cases c <;> simp_all [settled, inside]

/-- The innermost block may be left. -/
theorem runs_left {i : ℕ} {rest : List ℕ} (h : WellNested programs n) (hStack : n.stack = i :: rest) :
    ∃ n' moves, Runs (Nesting.step programs) Undisturbed n moves n' ∧ n'.stack = rest := by
  obtain ⟨n₁, moves, hRun, hStack₁, hCalmer, hSettled⟩ := runs_settled n.stack n
  have hNested₁ : WellNested programs n₁ :=
    hRun.invariant (WellNested programs) h fun _ _ _ h _ hMove => h.step programs_lawful hMove
  have hMember (j : ℕ) (hj : j ∈ n.stack) : ∃ k, n₁.members[j]? = some k ∧ settled k.state.caller = true := by
    obtain ⟨k, hk, -⟩ := hCalmer j _ (List.getElem?_eq_getElem (h.bounded j hj))
    exact ⟨k, hk, hSettled j hj k hk (h.bounded j hj)⟩
  rw [hStack] at hStack₁ hMember
  obtain ⟨m, hm, hTop⟩ := hMember i (by simp)
  cases hInside : programs.inside m with
  | true =>
      -- the block has not begun to be left, and no call is suspended in any block
      have hIdle {k : Member} (hSettled : settled k.state.caller = true) (hInside : programs.inside k = true) :
          programs.idle k = true := by
        obtain ⟨hEntered, hBody⟩ := inside_iff.mp hInside
        simp [programs, hEntered, body_of_settled hSettled hBody]
      have hFree : free programs n₁ = true := by
        rw [free_iff, hStack₁]
        intro j hj
        obtain ⟨k, hk, hQuiet⟩ := hMember j hj
        refine ⟨k, hk, ?_⟩
        rcases List.mem_cons.mp hj with rfl | hBelow
        · obtain rfl := Option.some.inj (hm.symm.trans hk)
          exact hIdle hTop hInside
        · exact hIdle hQuiet (hNested₁.below j (by simpa [hStack₁] using hBelow) k hk)
      obtain ⟨hEntered, hIn⟩ := inside_iff.mp hInside
      obtain ⟨raised, hBody⟩ : ∃ raised, m.state.caller = .body raised := by
        cases hCaller : m.state.caller <;> simp_all [settled, Nested.inside]
      have hLeave : programs.step m .leave = some ⟨m.state.leave, m.failed⟩ := by
        simp [programs, Member.step, hEntered, Program.step, hBody]
      have hRole : programs.role .leave = .leave := rfl
      have hMove : Nesting.step programs n₁ (.acts i .leave) =
          some { n₁ with members := n₁.members.set i ⟨m.state.leave, m.failed⟩ } := by
        simp [Nesting.step, hRole, hFree, hStack₁, act, hm, hLeave]
      obtain ⟨n₃, s, ⟨⟨later, hLater⟩, hElse⟩, hs, hQuiet, hOut⟩ := leads_settled
        (n := { n₁ with members := n₁.members.set i ⟨m.state.leave, m.failed⟩ }) (i := i)
        (List.getElem?_set_self (List.getElem?_eq_some_iff.mp hm).1)
      obtain ⟨after, hLeft⟩ := left_of_settled hQuiet (hOut.trans (leave_inside m.state))
      have hClosed := runs_closes (hElse.stack.trans hStack₁) hs (out_iff.mpr (.inl ⟨after, hLeft⟩))
      exact ⟨_, _, ((hRun.trans (.single (by simp [Undisturbed]) hMove)).trans hLater).trans hClosed, rfl⟩
  | false =>
      have hOut : programs.out m = true := by
        rw [out_iff]
        cases hCaller : m.state.caller with
        | body raised =>
            refine .inr ⟨?_, raised, rfl⟩
            cases hFailed : m.failed with
            | true => rfl
            | false => simp [programs, hFailed, hCaller, Nested.inside] at hInside
        | left raised => exact .inl ⟨raised, rfl⟩
        | awaiting | sleeping =>
            rw [hCaller] at hTop
            cases hTop
      exact ⟨_, _, hRun.trans (runs_closes hStack₁ hm hOut), rfl⟩

theorem runs_empty (h : WellNested programs n) :
    ∃ n' moves, Runs (Nesting.step programs) Undisturbed n moves n' ∧ n'.stack = [] := by
  induction hStack : n.stack generalizing n with
  | nil => exact ⟨n, [], .nil n, hStack⟩
  | cons i rest ih =>
      obtain ⟨n₁, first, hFirst, hRest⟩ := runs_left h hStack
      have hNested : WellNested programs n₁ :=
        hFirst.invariant (WellNested programs) h fun _ _ _ h _ hMove => h.step programs_lawful hMove
      obtain ⟨n₂, later, hLater, hEmpty⟩ := ih hNested hRest
      exact ⟨n₂, first ++ later, hFirst.trans hLater, hEmpty⟩

theorem harmless_of_undisturbed (n : Test) (move : Move Entry Action) (h : Undisturbed n move) :
    Harmless n move := by
  cases move with
  | acts i a =>
      intro m _ hCancel
      exact absurd (by rw [hCancel]) (h i)
  | opens | closes => trivial

/-- Whatever state a test has got into, it may come to its end with every block left, and every program it
has started has exited then. -/
theorem can_finish {moves : List (Move Entry Action)} (hRun : Runs (Nesting.step programs) Harmless {} moves n) :
    ∃ later n', Runs (Nesting.step programs) Harmless n later n' ∧ n'.stack = [] ∧
      ∀ m ∈ n'.members, m.state.Clean := by
  obtain ⟨n', later, hLater, hEmpty⟩ := runs_empty (wellNested_of_run programs_lawful hRun)
  have hHarmless := hLater.mono harmless_of_undisturbed
  refine ⟨later, n', hHarmless, hEmpty, fun m hm => ?_⟩
  obtain ⟨i, hIndex⟩ := List.getElem?_of_mem hm
  have hWhole := hRun.trans hHarmless
  have hOut := (wellNested_of_run programs_lawful hWhole).outside i m hIndex (by simp [hEmpty])
  exact ((kept_of_run hWhole hIndex).settled hOut).2

theorem can_finish_teardown : ∃ n, Runs (Nesting.step programs) Harmless {} teardown n ∧
    ∃ later n', Runs (Nesting.step programs) Harmless n later n' ∧ n'.stack = [] ∧
      ∀ m ∈ n'.members, m.state.Clean := by
  obtain ⟨n, hn, -⟩ := Option.map_eq_some_iff.mp teardown_runs
  have hRun : Runs (Nesting.step programs) Harmless {} teardown n := runs_of_execute hn harmless_teardown
  exact ⟨n, hRun, can_finish hRun⟩

end Completes

end MirCi.Program.Nested
