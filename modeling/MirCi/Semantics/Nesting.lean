import MirCi.Semantics.Run

/-! Blocks that one thread of control opens one inside another, around components that
also take steps of their own. A component that has been left goes on taking such steps. -/
namespace Semantics.Nesting

/-- Who takes an action: the code inside a block, which calls the component or leaves its
block, the component by itself, or all components together. -/
inductive Role where
  | call
  | leave
  | own
  | shared
  deriving DecidableEq

/-- What the thread needs to know of a component: whether its block has not begun to be left, whether
moreover no call of it is suspended, and whether its block has been left. -/
structure Component (Entry State Action : Type*) where
  enter : Entry → State
  step : State → Action → Option State
  role : Action → Role
  inside : State → Bool
  idle : State → Bool
  out : State → Bool

/-- All components there ever were, in the order they were opened, and the blocks that are
open, the innermost first. -/
structure Nest (State : Type*) where
  members : List State := []
  stack : List ℕ := []

inductive Move (Entry Action : Type*) where
  | opens (entry : Entry)
  | acts (index : ℕ) (action : Action)
  /-- the thread goes on after the innermost block -/
  | closes

variable {Entry State Action : Type*} (C : Component Entry State Action)

/-- No call is suspended in an open block, so that the thread runs. -/
def free (n : Nest State) : Bool :=
  n.stack.all fun i => (n.members[i]?.map C.idle).getD false

/-- What the component at the index does. -/
def act (n : Nest State) (i : ℕ) (a : Action) : Option (Nest State) :=
  n.members[i]?.bind fun s => (C.step s a).map fun t => { n with members := n.members.set i t }

def step (n : Nest State) : Move Entry Action → Option (Nest State)
  | .opens entry =>
      if free C n then
        some { members := n.members ++ [C.enter entry], stack := n.members.length :: n.stack }
      else none
  | .acts i a =>
      match C.role a with
      | .own => act C n i a
      | .call => if free C n ∧ i ∈ n.stack then act C n i a else none
      | .leave => if free C n ∧ n.stack.head? = some i then act C n i a else none
      | .shared =>
          if n.members.all fun s => (C.step s a).isSome then
            some { n with members := n.members.map fun s => (C.step s a).getD s }
          else none
  | .closes =>
      match n.stack with
      | [] => none
      | i :: rest => if (n.members[i]?.map C.out).getD false then some { n with stack := rest } else none

/-- Only leaving a block gets out of it, and a component that is out stays out. -/
structure Component.Lawful : Prop where
  idle : ∀ {s}, C.idle s = true → C.inside s = true
  inside : ∀ {s t a}, C.role a ≠ .leave → C.inside s = true → C.step s a = some t → C.inside t = true
  out : ∀ {s t a}, C.out s = true → C.step s a = some t → C.out t = true

/-- Only the innermost block is ever being left, and what is not open is out. -/
structure WellNested (n : Nest State) : Prop where
  bounded : ∀ i ∈ n.stack, i < n.members.length
  sorted : n.stack.Pairwise (· > ·)
  outside : ∀ i s, n.members[i]? = some s → i ∉ n.stack → C.out s = true
  below : ∀ j ∈ n.stack.tail, ∀ s, n.members[j]? = some s → C.inside s = true

section Invariant

variable {C} {n m : Nest State} {i : ℕ} {a : Action}

theorem free_iff : free C n = true ↔ ∀ i ∈ n.stack, ∃ s, n.members[i]? = some s ∧ C.idle s = true := by
  rw [free, List.all_eq_true]
  refine forall₂_congr fun i _ => ?_
  cases n.members[i]? <;> simp

/-- All that a component does by itself. -/
theorem act_cases (h : act C n i a = some m) :
    ∃ s t, n.members[i]? = some s ∧ C.step s a = some t ∧ m = { n with members := n.members.set i t } := by
  obtain ⟨s, hs, hMap⟩ := Option.bind_eq_some_iff.mp h
  obtain ⟨t, ht, rfl⟩ := Option.map_eq_some_iff.mp hMap
  exact ⟨s, t, hs, ht, rfl⟩

/-- All that an action of a component can do. -/
theorem acts_cases (h : step C n (.acts i a) = some m) :
    (∃ s t, n.members[i]? = some s ∧ C.step s a = some t ∧ m = { n with members := n.members.set i t } ∧
      (C.role a = .own ∨
        C.role a = .call ∧ free C n = true ∧ i ∈ n.stack ∨
        C.role a = .leave ∧ free C n = true ∧ n.stack.head? = some i)) ∨
    (C.role a = .shared ∧ (∀ s ∈ n.members, (C.step s a).isSome = true) ∧
      m = { n with members := n.members.map fun s => (C.step s a).getD s }) := by
  cases hRole : C.role a with
  | own =>
      simp only [step, hRole] at h
      obtain ⟨s, t, hs, ht, rfl⟩ := act_cases h
      exact .inl ⟨s, t, hs, ht, rfl, .inl rfl⟩
  | call =>
      simp only [step, hRole] at h
      split at h
      · rename_i hGuard
        obtain ⟨s, t, hs, ht, rfl⟩ := act_cases h
        exact .inl ⟨s, t, hs, ht, rfl, .inr (.inl ⟨rfl, hGuard⟩)⟩
      · cases h
  | leave =>
      simp only [step, hRole] at h
      split at h
      · rename_i hGuard
        obtain ⟨s, t, hs, ht, rfl⟩ := act_cases h
        exact .inl ⟨s, t, hs, ht, rfl, .inr (.inr ⟨rfl, hGuard⟩)⟩
      · cases h
  | shared =>
      simp only [step, hRole] at h
      split at h
      · rename_i hAll
        cases h
        exact .inr ⟨rfl, by simpa using hAll, rfl⟩
      · cases h

/-- A shared action is a step of every component. -/
theorem shared_cases {u : State} (hAll : ∀ s ∈ n.members, (C.step s a).isSome = true)
    (hu : (n.members.map fun s => (C.step s a).getD s)[i]? = some u) :
    ∃ s, n.members[i]? = some s ∧ C.step s a = some u := by
  rw [List.getElem?_map] at hu
  obtain ⟨s, hs, rfl⟩ := Option.map_eq_some_iff.mp hu
  obtain ⟨t, ht⟩ := Option.isSome_iff_exists.mp (hAll s (List.mem_of_getElem? hs))
  exact ⟨s, hs, by rw [ht, Option.getD_some]⟩

/-- Whatever holds of a component when it is opened and is kept by its steps holds of it ever after. -/
theorem members_invariant (Inv : ℕ → State → Prop) {ok : Nest State → Move Entry Action → Prop}
    {moves : List (Move Entry Action)} (hRun : Runs (step C) ok {} moves n)
    (hEnter : ∀ i entry, Inv i (C.enter entry))
    (hStep : ∀ n i a s t, (∃ k, ok n (.acts k a) ∧ (k = i ∨ C.role a = .shared)) → n.members[i]? = some s →
      Inv i s → C.step s a = some t → Inv i t) :
    ∀ i s, n.members[i]? = some s → Inv i s := by
  refine hRun.invariant (fun n => ∀ i s, n.members[i]? = some s → Inv i s) (by simp)
    fun n move m hInv hOk hMove => ?_
  cases move with
  | opens entry =>
      simp only [step] at hMove
      split at hMove <;> cases hMove
      intro i s hs
      rw [List.getElem?_append] at hs
      split at hs
      · exact hInv i s hs
      · obtain rfl := List.mem_singleton.mp (List.mem_of_getElem? hs)
        exact hEnter i entry
  | acts k a =>
      rcases acts_cases hMove with ⟨s, t, hs, ht, rfl, -⟩ | ⟨hRole, hAll, rfl⟩
      · intro i u hu
        by_cases hSame : k = i
        · subst hSame
          rw [List.getElem?_set_self (List.getElem?_eq_some_iff.mp hs).1] at hu
          cases hu
          exact hStep n k a s t ⟨k, hOk, .inl rfl⟩ hs (hInv k s hs) ht
        · rw [List.getElem?_set_ne hSame] at hu
          exact hInv i u hu
      · intro i u hu
        obtain ⟨s, hs, ht⟩ := shared_cases hAll hu
        exact hStep n i a s u ⟨k, hOk, .inr hRole⟩ hs (hInv i s hs) ht
  | closes =>
      simp only [step] at hMove
      split at hMove
      · cases hMove
      · split at hMove <;> cases hMove
        exact hInv

theorem wellNested_empty : WellNested C {} where
  bounded := by simp
  sorted := .nil
  outside := by simp
  below := by simp

theorem WellNested.opens (hLawful : C.Lawful) (h : WellNested C n) (entry : Entry) (hFree : free C n = true) :
    WellNested C { members := n.members ++ [C.enter entry], stack := n.members.length :: n.stack } := by
  have hIdle := free_iff.mp hFree
  refine ⟨?_, ?_, ?_, ?_⟩
  · intro i hi
    rw [List.length_append]
    rcases List.mem_cons.mp hi with rfl | hOld
    · exact Nat.lt_succ_self _
    · exact Nat.lt_succ_of_lt (h.bounded i hOld)
  · exact .cons (fun j hj => h.bounded j hj) h.sorted
  · intro i s hs hClosed
    rw [List.mem_cons, not_or] at hClosed
    rw [List.getElem?_append] at hs
    split at hs
    · exact h.outside i s hs hClosed.2
    · rename_i hLate
      have hLength := (List.getElem?_eq_some_iff.mp hs).1
      exact absurd (by simp at hLength; omega) hClosed.1
  · intro j hj s hs
    obtain ⟨t, ht, hOpen⟩ := hIdle j hj
    rw [List.getElem?_append_left (h.bounded j hj), ht] at hs
    cases hs
    exact hLawful.idle hOpen

/-- A step of one component keeps the nesting when it keeps what is known of that component. -/
theorem WellNested.set {s t : State} (h : WellNested C n) (hs : n.members[i]? = some s)
    (hOut : C.out s = true → C.out t = true) (hInside : i ∈ n.stack.tail → C.inside t = true) :
    WellNested C { n with members := n.members.set i t } := by
  have hSelf : (n.members.set i t)[i]? = some t :=
    List.getElem?_set_self (List.getElem?_eq_some_iff.mp hs).1
  refine ⟨?_, h.sorted, ?_, ?_⟩
  · simpa using h.bounded
  · intro j u hu hClosed
    by_cases hSame : i = j
    · subst hSame
      obtain rfl := Option.some.inj (hSelf.symm.trans hu)
      exact hOut (h.outside i s hs hClosed)
    · rw [List.getElem?_set_ne hSame] at hu
      exact h.outside j u hu hClosed
  · intro j hj u hu
    by_cases hSame : i = j
    · subst hSame
      obtain rfl := Option.some.inj (hSelf.symm.trans hu)
      exact hInside hj
    · rw [List.getElem?_set_ne hSame] at hu
      exact h.below j hj u hu

theorem WellNested.shared (hLawful : C.Lawful) (h : WellNested C n) (hRole : C.role a = .shared)
    (hAll : ∀ s ∈ n.members, (C.step s a).isSome = true) :
    WellNested C { n with members := n.members.map fun s => (C.step s a).getD s } := by
  refine ⟨by simpa using h.bounded, h.sorted, ?_, ?_⟩
  · intro j u hu hClosed
    obtain ⟨s, hs, ht⟩ := shared_cases hAll hu
    exact hLawful.out (h.outside j s hs hClosed) ht
  · intro j hj u hu
    obtain ⟨s, hs, ht⟩ := shared_cases hAll hu
    exact hLawful.inside (by simp [hRole]) (h.below j hj s hs) ht

theorem WellNested.step {move : Move Entry Action} (hLawful : C.Lawful) (h : WellNested C n)
    (hMove : Nesting.step C n move = some m) : WellNested C m := by
  cases move with
  | opens entry =>
      simp only [Nesting.step] at hMove
      split at hMove <;> cases hMove
      rename_i hFree
      exact h.opens hLawful entry hFree
  | acts i a =>
      rcases acts_cases hMove with ⟨s, t, hs, ht, rfl, hGuard⟩ | ⟨hRole, hAll, rfl⟩
      · refine h.set hs (fun hOut => hLawful.out hOut ht) fun hBelow => ?_
        refine hLawful.inside (fun hLeave => ?_) (h.below i hBelow s hs) ht
        -- the block that is left is the innermost one, and so not below
        have hHead : n.stack.head? = some i := by
          rcases hGuard with hOwn | ⟨hCall, -⟩ | ⟨-, -, hHead⟩
          · rw [hLeave] at hOwn
            cases hOwn
          · rw [hLeave] at hCall
            cases hCall
          · exact hHead
        have hSorted := h.sorted
        rw [List.eq_cons_of_mem_head? hHead, List.pairwise_cons] at hSorted
        exact absurd (hSorted.1 i hBelow) (lt_irrefl i)
      · exact h.shared hLawful hRole hAll
  | closes =>
      simp only [Nesting.step] at hMove
      split at hMove
      · cases hMove
      · rename_i i rest hStack
        split at hMove <;> cases hMove
        rename_i hOut
        have hSorted := h.sorted
        rw [hStack, List.pairwise_cons] at hSorted
        refine ⟨fun j hj => h.bounded j (by simp [hStack, hj]), hSorted.2, ?_, ?_⟩
        · intro j s hs hClosed
          by_cases hSame : j = i
          · subst hSame
            simpa [hs] using hOut
          · exact h.outside j s hs (by simp [hStack, hSame, hClosed])
        · intro j hj s hs
          exact h.below j (by simpa [hStack] using List.mem_of_mem_tail hj) s hs

/-- Blocks are well nested all along a run. -/
theorem wellNested_of_run (hLawful : C.Lawful) {ok : Nest State → Move Entry Action → Prop}
    {moves : List (Move Entry Action)} (hRun : Runs (Nesting.step C) ok {} moves n) : WellNested C n :=
  hRun.invariant (WellNested C) wellNested_empty fun _ _ _ h _ hMove => h.step hLawful hMove

/-- What was opened inside of a block that is being left is out. -/
theorem WellNested.out_of_leaving {s t : State} {j : ℕ} (h : WellNested C n) (hOpen : i ∈ n.stack)
    (hs : n.members[i]? = some s) (hLeaving : C.inside s = false) (hLater : i < j)
    (ht : n.members[j]? = some t) : C.out t = true := by
  obtain ⟨top, rest, hStack⟩ := List.exists_cons_of_ne_nil (List.ne_nil_of_mem hOpen)
  have hSorted := h.sorted
  rw [hStack, List.pairwise_cons] at hSorted
  have hTop : i = top := by
    rcases List.mem_cons.mp (hStack ▸ hOpen) with hHead | hBelow
    · exact hHead
    · have hInside := h.below i (by simpa [hStack] using hBelow) s hs
      rw [hLeaving] at hInside
      cases hInside
  refine h.outside j t ht fun hStill => ?_
  rcases List.mem_cons.mp (hStack ▸ hStill) with hHead | hBelow
  · omega
  · have hEarlier := hSorted.1 j hBelow
    omega

end Invariant

end Semantics.Nesting
