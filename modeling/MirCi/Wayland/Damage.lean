import MirCi.Wayland.BufferGeometry
import MirCi.Wayland.FrameAccounting

/-! The area of a frame's damage. The protocol takes the total damage to be the union
of the reported rectangles; the tracker adds up their areas, which is more as soon as
two of them overlap. -/
namespace MirCi.Wayland

open Python Semantics Effect

/-! ### Sizes of unions -/

section Union

variable {α : Type} [DecidableEq α]

/-- The union of the sets of a list. -/
def unionAll (sets : List (Finset α)) : Finset α := sets.foldr (· ∪ ·) ∅

theorem disjoint_unionAll {s : Finset α} {sets : List (Finset α)} :
    Disjoint s (unionAll sets) ↔ ∀ t ∈ sets, Disjoint s t := by
  induction sets with
  | nil => simp [unionAll]
  | cons t rest ih =>
      have hCons : unionAll (t :: rest) = t ∪ unionAll rest := rfl
      rw [hCons, Finset.disjoint_union_right, ih, List.forall_mem_cons]

theorem card_unionAll_le (sets : List (Finset α)) : (unionAll sets).card ≤ (sets.map Finset.card).sum := by
  induction sets with
  | nil => simp [unionAll]
  | cons s rest ih =>
      calc (s ∪ unionAll rest).card ≤ s.card + (unionAll rest).card := Finset.card_union_le _ _
        _ ≤ s.card + (rest.map Finset.card).sum := Nat.add_le_add_left ih _

/-- Nothing is counted twice exactly when no two sets of the list overlap. -/
theorem sum_card_eq_iff (sets : List (Finset α)) :
    (sets.map Finset.card).sum = (unionAll sets).card ↔ sets.Pairwise Disjoint := by
  induction sets with
  | nil => simp [unionAll]
  | cons s rest ih =>
      have hUnion : (unionAll (s :: rest)).card + (s ∩ unionAll rest).card =
          s.card + (unionAll rest).card := Finset.card_union_add_card_inter _ _
      have hRest := card_unionAll_le rest
      rw [List.pairwise_cons, ← ih, ← disjoint_unionAll, Finset.disjoint_iff_inter_eq_empty,
        ← Finset.card_eq_zero, List.map_cons, List.sum_cons]
      omega

theorem unionAll_subset {sets : List (Finset α)} {all : Finset α} (h : ∀ s ∈ sets, s ⊆ all) :
    unionAll sets ⊆ all := by
  induction sets with
  | nil => exact Finset.empty_subset all
  | cons s rest ih =>
      exact Finset.union_subset (h s (by simp)) (ih fun t ht => h t (by simp [ht]))

end Union

/-! ### Rectangles -/

/-- The pixels of a rectangle. -/
def rectangle (x y width height : ℕ) : Finset (ℕ × ℕ) :=
  Finset.Ico x (x + width) ×ˢ Finset.Ico y (y + height)

theorem card_rectangle (x y width height : ℕ) : (rectangle x y width height).card = width * height := by
  simp [rectangle]

namespace FrameEvent

/-- The pixels a damage event reports. -/
def region? : FrameEvent → Option (Finset (ℕ × ℕ))
  | .damage x y width height => some (rectangle x y width height)
  | _ => none

/-- A reported rectangle lies inside a buffer of this size. -/
def Inside (bufferWidth bufferHeight : ℕ) : FrameEvent → Prop
  | .damage x y width height => x + width ≤ bufferWidth ∧ y + height ≤ bufferHeight
  | _ => True

end FrameEvent

def regions (events : List FrameEvent) : List (Finset (ℕ × ℕ)) := events.filterMap FrameEvent.region?

theorem reportedArea_eq (events : List FrameEvent) :
    reportedArea events = ((regions events).map Finset.card).sum := by
  induction events with
  | nil => rfl
  | cons event rest ih =>
      rw [reportedArea] at ih
      cases event <;> simp [reportedArea, regions, FrameEvent.area, FrameEvent.region?, card_rectangle] <;>
        exact ih

theorem union_regions_le {events : List FrameEvent} {bufferWidth bufferHeight : ℕ}
    (h : ∀ event ∈ events, event.Inside bufferWidth bufferHeight) :
    (unionAll (regions events)).card ≤ bufferWidth * bufferHeight := by
  rw [← card_rectangle 0 0 bufferWidth bufferHeight]
  refine Finset.card_le_card (unionAll_subset fun region hRegion => ?_)
  obtain ⟨event, hEvent, hSome⟩ := List.mem_filterMap.mp hRegion
  have hInside := h event hEvent
  cases event with
  | damage x y width height =>
      obtain rfl := Option.some.inj hSome
      apply Finset.product_subset_product <;> apply Finset.Ico_subset_Ico <;>
        simp_all [FrameEvent.Inside]
  | early _ | flags _ | ready _ _ _ _ _ => cases hSome

namespace ScreencopyTracker

variable {X : Type}

/-! ### The buffer does not shrink -/

theorem uncaptured_atLeast {width height : ℕ} :
    Uncaptured fun c : Self X => width ≤ c.attributes.bufferWidth ∧ height ≤ c.attributes.bufferHeight where
  created _ _ h := h
  printed _ _ h := h
  manager _ _ h := h
  output _ _ h := h
  shm _ _ h := h
  frame _ _ h := h
  buffer _ _ h := h
  shmData _ _ h := h
  shmCounter _ _ h := h
  checkBuffer newWidth newHeight stride c h := by
    rw [checkBuffer_state, checkedBuffer]
    split_ifs <;> grind

theorem atLeast_handled {width height : ℕ} {c : Self X}
    (h : width ≤ c.attributes.bufferWidth ∧ height ≤ c.attributes.bufferHeight)
    (events : List FrameEvent) :
    width ≤ (handled handle c events).attributes.bufferWidth ∧
      height ≤ (handled handle c events).attributes.bufferHeight :=
  handled_keeps (fun event _ => uncaptured_atLeast.deliver
    (uncaptured_atLeast.capturing.handle (fun _ _ _ _ _ _ h => h) event)) h

/-- A dimension that was set stays, so later buffers are as large as earlier ones. -/
theorem pixels_take_le (c : Self X) (events : List FrameEvent) (i : ℕ) :
    pixels (handled handle c (events.take i)).attributes ≤ pixels (handled handle c events).attributes := by
  have hAppend : handled handle c (events.take i ++ events.drop i) = _ := handled_append _ _ c
  rw [List.take_append_drop] at hAppend
  rw [hAppend]
  obtain ⟨hWidth, hHeight⟩ := atLeast_handled ⟨le_rfl, le_rfl⟩ (events.drop i)
  exact Nat.mul_le_mul hWidth hHeight

/-! ### Damage counted once -/

/-- The rectangles of every frame that became ready lie inside its buffer. -/
def InsideBuffer (c : Self X) (events : List FrameEvent) : Prop :=
  ∀ i ∈ readyIndices events, ∀ event ∈ sinceReady (events.take i),
    event.Inside (handled handle c (events.take i)).attributes.bufferWidth
      (handled handle c (events.take i)).attributes.bufferHeight

/-- A frame that reported damage adds the area of the union of its rectangles, and the
total is no more than all frames' pixels. -/
structure CountedOnce (c : Self X) (events : List FrameEvent) : Prop where
  frames : ∀ i ∈ readyIndices events, 0 < reportedArea (sinceReady (events.take i)) →
    (handled handle c (events.take (i + 1))).attributes.totalDamage =
      (handled handle c (events.take i)).attributes.totalDamage +
        (unionAll (regions (sinceReady (events.take i)))).card
  bounded : (handled handle c events).attributes.totalDamage ≤
    (handled handle c events).attributes.frameCount * pixels (handled handle c events).attributes

/-- What a ready event adds. -/
theorem totalDamage_ready {c : Self X} (h : Uncounted c.attributes) {events : List FrameEvent} {i : ℕ}
    (hi : i ∈ readyIndices events) :
    (handled handle c (events.take (i + 1))).attributes.totalDamage =
      (handled handle c (events.take i)).attributes.totalDamage + frameArea c (events.take i) := by
  have hLess := lt_of_mem_readyIndices hi
  have hReady : events[i].isReady = true := by
    rw [readyIndices, List.mem_filter, List.getElem?_eq_getElem hLess] at hi
    exact hi.2
  have hArea := map_readyIndices_snoc (frameArea c) (events.take i) events[i]
  rw [hReady, if_pos rfl] at hArea
  rw [List.take_succ_eq_append_getElem hLess, (counted_run h _).damage, hArea, List.sum_append,
    (counted_run h (events.take i)).damage, List.sum_singleton]

/-- The damage is counted once exactly when no frame reports overlapping rectangles. -/
theorem countedOnce_iff (c : Self X) (h : Uncounted c.attributes) (events : List FrameEvent)
    (hInside : InsideBuffer c events) :
    CountedOnce c events ↔
      ∀ i ∈ readyIndices events, (regions (sinceReady (events.take i))).Pairwise Disjoint := by
  have hFrame (i : ℕ) (hi : i ∈ readyIndices events)
      (hPos : 0 < reportedArea (sinceReady (events.take i))) :
      frameArea c (events.take i) = ((regions (sinceReady (events.take i))).map Finset.card).sum := by
    rw [frameArea, if_pos hPos, reportedArea_eq]
  constructor
  · intro hOnce i hi
    rw [← sum_card_eq_iff]
    rcases Nat.eq_zero_or_pos (reportedArea (sinceReady (events.take i))) with hZero | hPos
    · have hUnion := card_unionAll_le (regions (sinceReady (events.take i)))
      rw [← reportedArea_eq] at hUnion ⊢
      omega
    · have hAdded := hOnce.frames i hi hPos
      rw [totalDamage_ready h hi, hFrame i hi hPos] at hAdded
      omega
  · intro hDisjoint
    refine ⟨fun i hi hPos => ?_, ?_⟩
    · rw [totalDamage_ready h hi, hFrame i hi hPos, (sum_card_eq_iff _).mpr (hDisjoint i hi)]
    · have hCounted := counted_run h events
      rw [hCounted.damage, hCounted.count, ← length_readyIndices]
      have hEach : ∀ area ∈ (readyIndices events).map fun i => frameArea c (events.take i),
          area ≤ pixels (handled handle c events).attributes := by
        intro area hArea
        obtain ⟨i, hi, rfl⟩ := List.mem_map.mp hArea
        refine le_trans ?_ (pixels_take_le c events i)
        by_cases hPos : 0 < reportedArea (sinceReady (events.take i))
        · rw [hFrame i hi hPos, (sum_card_eq_iff _).mpr (hDisjoint i hi)]
          exact union_regions_le (hInside i hi)
        · rw [frameArea, if_neg hPos]
      have hSum := List.sum_le_card_nsmul _ _ hEach
      rwa [List.length_map, smul_eq_mul] at hSum

theorem insideBuffer_fullHd (n : ℕ) :
    InsideBuffer tracker (List.replicate n (.damage 0 0 1920 1080) ++ [.ready 0 0 0 {} none]) := by
  intro i _ event hEvent
  have hSize : 1920 ≤ tracker.attributes.bufferWidth ∧ 1080 ≤ tracker.attributes.bufferHeight := by
    decide +kernel
  obtain ⟨hWidth, hHeight⟩ := atLeast_handled hSize
    ((List.replicate n (FrameEvent.damage 0 0 1920 1080) ++ [FrameEvent.ready 0 0 0 {} none]).take i)
  have hMem := List.mem_of_mem_take (List.mem_reverse.mp
    ((List.takeWhile_sublist _).subset (List.mem_reverse.mp hEvent)))
  rcases List.mem_append.mp hMem with hDamage | hReady
  · rw [List.eq_of_mem_replicate hDamage]
    exact ⟨by simpa using hWidth, by simpa using hHeight⟩
  · rw [List.mem_singleton.mp hReady]
    trivial

theorem countedOnce_iff_fullHd :
    CountedOnce tracker (oneRectangle 1920 1080) ↔
      ∀ i ∈ readyIndices (oneRectangle 1920 1080),
        (regions (sinceReady ((oneRectangle 1920 1080).take i))).Pairwise Disjoint :=
  countedOnce_iff tracker (by unfold Uncounted; decide +kernel) (oneRectangle 1920 1080)
    (insideBuffer_fullHd 1)

/-- The whole buffer, damaged twice before the frame is ready. -/
def twice : List FrameEvent :=
  [.damage 0 0 1920 1080, .damage 0 0 1920 1080, .ready 0 0 0 {} none]

theorem damage_counted_twice : InsideBuffer tracker twice ∧ ¬CountedOnce tracker twice := by
  refine ⟨insideBuffer_fullHd 2, fun h => ?_⟩
  have hDamage : (handled handle tracker twice).attributes.totalDamage = 4147200 := by decide +kernel
  have hPixels : (handled handle tracker twice).attributes.frameCount *
      pixels (handled handle tracker twice).attributes = 2073600 := by decide +kernel
  have hBounded := h.bounded
  rw [hDamage, hPixels] at hBounded
  omega

end ScreencopyTracker

end MirCi.Wayland
