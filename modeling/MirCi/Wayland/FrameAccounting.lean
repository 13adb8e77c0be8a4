import MirCi.Wayland.Percentage

/-! What the counters of a tracker say of the events it was delivered. A frame's
damage and flags are those of the events since the previous ready event; the events
that arrive while a frame is being requested count for nothing. -/
namespace MirCi.Wayland

open Python Semantics Effect

/-! ### The history of a tracker -/

namespace FrameEvent

def isReady : FrameEvent → Bool
  | .ready .. => true
  | _ => false

/-- The area of the rectangle, when the event reports one. -/
def area : FrameEvent → ℕ
  | .damage _ _ width height => width * height
  | _ => 0

def flags? : FrameEvent → Option ℕ
  | .flags value => some value
  | _ => none

end FrameEvent

/-- The events since the last ready event. -/
def sinceReady (events : List FrameEvent) : List FrameEvent :=
  (events.reverse.takeWhile fun event => !event.isReady).reverse

def reportedArea (events : List FrameEvent) : ℕ := (events.map FrameEvent.area).sum

/-- The flags that hold after the events: none are set when no event gave any. -/
def lastFlags (events : List FrameEvent) : ℕ := (events.filterMap FrameEvent.flags?).getLast?.getD 0

/-- The places of the ready events. -/
def readyIndices (events : List FrameEvent) : List ℕ :=
  (List.range events.length).filter fun i => events[i]?.any FrameEvent.isReady

theorem lt_of_mem_readyIndices {events : List FrameEvent} {i : ℕ} (h : i ∈ readyIndices events) :
    i < events.length := by
  rw [readyIndices, List.mem_filter, List.mem_range] at h
  exact h.1

theorem readyIndices_snoc (events : List FrameEvent) (event : FrameEvent) :
    readyIndices (events ++ [event]) =
      readyIndices events ++ if event.isReady then [events.length] else [] := by
  have hEarlier : (List.range events.length).filter
        (fun i => (events ++ [event])[i]?.any FrameEvent.isReady) = readyIndices events := by
    apply List.filter_congr
    intro i hi
    rw [List.getElem?_append_left (List.mem_range.mp hi)]
  rw [readyIndices, List.length_append, List.length_singleton, List.range_succ, List.filter_append,
    hEarlier]
  cases hReady : event.isReady <;> simp [hReady]

theorem sinceReady_snoc (events : List FrameEvent) (event : FrameEvent) :
    sinceReady (events ++ [event]) = if event.isReady then [] else sinceReady events ++ [event] := by
  cases hReady : event.isReady <;> simp [sinceReady, hReady]

theorem reportedArea_snoc (events : List FrameEvent) (event : FrameEvent) :
    reportedArea (events ++ [event]) = reportedArea events + event.area := by
  simp [reportedArea]

/-- What is said of each ready event's history, one event later. -/
theorem map_readyIndices_snoc {α : Type} (f : List FrameEvent → α) (events : List FrameEvent)
    (event : FrameEvent) :
    (readyIndices (events ++ [event])).map (fun i => f ((events ++ [event]).take i)) =
      (readyIndices events).map (fun i => f (events.take i)) ++
        if event.isReady then [f events] else [] := by
  have hEarlier : (readyIndices events).map (fun i => f ((events ++ [event]).take i)) =
      (readyIndices events).map fun i => f (events.take i) := by
    apply List.map_congr_left
    intro i hi
    rw [List.take_append_of_le_length (lt_of_mem_readyIndices hi).le]
  rw [readyIndices_snoc, List.map_append, hEarlier]
  cases event.isReady <;> simp

theorem length_readyIndices (events : List FrameEvent) :
    (readyIndices events).length = events.countP FrameEvent.isReady := by
  induction events using List.reverseRecOn with
  | nil => rfl
  | append_singleton events event ih =>
      rw [readyIndices_snoc, List.length_append, List.countP_append, ih]
      cases hReady : event.isReady <;> simp [hReady]

/-! ### One event -/

namespace ScreencopyTracker

variable {X : Type}

theorem uncaptured_counters {k : Counters} : Uncaptured fun c : Self X => counters c.attributes = k where
  created _ _ h := h
  printed _ _ h := h
  manager _ _ h := h
  output _ _ h := h
  shm _ _ h := h
  frame _ _ h := h
  buffer _ _ h := h
  shmData _ _ h := h
  shmCounter _ _ h := h
  checkBuffer := keeps_checkBuffer fun _ _ _ _ _ h => h

/-- What an event does to the counters, in a buffer of so many pixels. -/
def Counters.count (k : Counters) (pixels : ℕ) : FrameEvent → Counters
  | .early _ => k
  | .damage _ _ width height => { k with pendingDamage := k.pendingDamage + width * height }
  | .flags flags => { k with pendingFlags := flags }
  | .ready .. =>
      { frameCount := k.frameCount + 1
        totalDamage := k.totalDamage + if k.pendingDamage ≠ 0 then k.pendingDamage else pixels
        pendingDamage := 0
        frameFlags := k.pendingFlags
        pendingFlags := 0 }

def pixels (a : ScreencopyTracker X) : ℕ := a.bufferWidth * a.bufferHeight

theorem counters_deliver (c : Self X) (event : FrameEvent) :
    counters (state ((deliver handle event).run c)).attributes =
      (counters c.attributes).count (pixels c.attributes) event := by
  cases event with
  | early event => exact uncaptured_counters.deliver (uncaptured_counters.capturing.handleEarly event) c rfl
  | damage _ _ _ _ => rfl
  | flags _ => rfl
  | ready _ _ _ copying flush =>
      -- the counting is over before anything raises, and what follows counts nothing
      have hKeeps (k : Counters) : Keeps (fun c : Self X => counters c.attributes = k)
          (deliver (fun _ : Unit => requestFrame copying flush) ()) :=
        uncaptured_counters.deliver (uncaptured_counters.capturing.requestFrame copying flush)
      exact hKeeps _ { c with attributes := countFrame c.attributes } rfl

/-! ### A run -/

/-- No frame was counted yet, and nothing is pending. -/
def Uncounted (a : ScreencopyTracker X) : Prop := counters a = ⟨0, 0, 0, 0, 0⟩

/-- What a frame adds to the damage when its ready event comes after the events
`before`: the area of the rectangles reported for it, or the whole buffer. -/
def frameArea (c : Self X) (before : List FrameEvent) : ℕ :=
  if 0 < reportedArea (sinceReady before) then reportedArea (sinceReady before)
  else pixels (handled handle c before).attributes

/-- What the counters are after the events. -/
structure Accounted (c : Self X) (events : List FrameEvent) (a : ScreencopyTracker X) : Prop where
  count : a.frameCount = events.countP FrameEvent.isReady
  damage : a.totalDamage = ((readyIndices events).map fun i => frameArea c (events.take i)).sum
  flags : a.frameFlags =
    ((readyIndices events).map fun i => lastFlags (sinceReady (events.take i))).getLast?.getD 0

/-- The counters together with what is pending. -/
structure Counted (c : Self X) (events : List FrameEvent) (a : ScreencopyTracker X) : Prop
    extends Accounted c events a where
  pendingDamage : a.pendingDamage = reportedArea (sinceReady events)
  pendingFlags : a.pendingFlags = lastFlags (sinceReady events)

theorem counted_nil {c : Self X} (h : Uncounted c.attributes) : Counted c [] c.attributes := by
  injection h with hCount hDamage hPending hFlags hPendingFlags
  exact { count := hCount, damage := hDamage, flags := hFlags, pendingDamage := hPending,
          pendingFlags := hPendingFlags }

theorem Counted.snoc {c : Self X} {events : List FrameEvent}
    (h : Counted c events (handled handle c events).attributes) (event : FrameEvent) :
    Counted c (events ++ [event]) (handled handle c (events ++ [event])).attributes := by
  have hStep := counters_deliver (handled handle c events) event
  rw [← handled_singleton, ← handled_append, counters.eq_def (handled handle c events).attributes,
    h.count, h.damage, h.flags, h.pendingDamage, h.pendingFlags] at hStep
  have hCount := congrArg Counters.frameCount hStep
  have hDamage := congrArg Counters.totalDamage hStep
  have hFlags := congrArg Counters.frameFlags hStep
  have hPending := congrArg Counters.pendingDamage hStep
  have hPendingFlags := congrArg Counters.pendingFlags hStep
  simp only [counters] at hCount hDamage hFlags hPending hPendingFlags
  have hArea := map_readyIndices_snoc (frameArea c) events event
  have hLast := map_readyIndices_snoc (fun before => lastFlags (sinceReady before)) events event
  constructor
  · constructor
    · rw [hCount, List.countP_append]
      cases event <;> rfl
    · rw [hDamage, hArea]
      cases event <;> simp [Counters.count, FrameEvent.isReady, frameArea, Nat.pos_iff_ne_zero]
    · rw [hFlags, hLast]
      cases event <;> simp [Counters.count, FrameEvent.isReady]
  · rw [hPending, sinceReady_snoc]
    cases event <;> simp [Counters.count, FrameEvent.isReady, reportedArea_snoc, FrameEvent.area]
    all_goals rfl
  · rw [hPendingFlags, sinceReady_snoc]
    cases event <;> simp [Counters.count, FrameEvent.isReady, lastFlags, FrameEvent.flags?]

theorem counted_run {c : Self X} (h : Uncounted c.attributes) (events : List FrameEvent) :
    Counted c events (handled handle c events).attributes := by
  induction events using List.reverseRecOn with
  | nil => exact counted_nil h
  | append_singleton events event ih => exact ih.snoc event

/-- The report of a tracker is within range exactly when its totals allow it. -/
theorem in_percent_properties_iff (a : ScreencopyTracker X) :
    (∃ report, properties a = .ok report ∧ InPercent (.ok report.percentDamage)) ↔
      PercentFits (a.frameCount * pixels a) a.totalDamage := by
  rw [← percentDamage_iff, pixels, ← mul_assoc, properties]
  cases percentDamage a.totalDamage (max (max (a.frameCount * a.bufferWidth * a.bufferHeight)
    a.totalDamage) 1) with
  | ok figure => simp [bind, Except.bind, pure, Except.pure]
  | error e => simp [bind, Except.bind, InPercent]

/-- In every run the counts are those of the events, and the percentage lies between 0
and 100 exactly when the totals allow it. -/
theorem accounted_iff (c : Self X) (h : Uncounted c.attributes) (events : List FrameEvent) :
    Accounted c events (handled handle c events).attributes ∧
      ((∃ report, properties (handled handle c events).attributes = .ok report ∧
          InPercent (.ok report.percentDamage)) ↔
        PercentFits ((handled handle c events).attributes.frameCount *
            pixels (handled handle c events).attributes)
          (handled handle c events).attributes.totalDamage) :=
  ⟨(counted_run h events).toAccounted, in_percent_properties_iff _⟩

/-- What a server answers to a tracker whose first frame is 1920 by 1080 pixels. -/
def fullHd : Connecting Copying where
  roundtrip := {
    events := [⟨1, "zwlr_screencopy_manager_v1", 3, none⟩, ⟨2, "wl_shm", 1, none⟩,
      ⟨3, "wl_output", 4, none⟩] }
  connected := {
    roundtrip := {
      events := [.buffer {
        format := 1
        width := 1920
        height := 1080
        stride := 7680
        shmOpen := ⟨1, 3, 0, ""⟩ }] } }

/-- A new tracker that has connected. -/
def tracker : Self Unit :=
  state ((methods.connect (methods.disconnect {}) fullHd).run { attributes := { extra := () } })

/-- A frame on which one rectangle was damaged. -/
def oneRectangle (width height : ℕ) : List FrameEvent :=
  [.damage 0 0 width height, .ready 0 0 0 {} none]

theorem accounted_iff_fullHd :
    Accounted tracker (oneRectangle 1920 1080)
        (handled handle tracker (oneRectangle 1920 1080)).attributes ∧
      ((∃ report, properties (handled handle tracker (oneRectangle 1920 1080)).attributes = .ok report ∧
          InPercent (.ok report.percentDamage)) ↔
        PercentFits ((handled handle tracker (oneRectangle 1920 1080)).attributes.frameCount *
            pixels (handled handle tracker (oneRectangle 1920 1080)).attributes)
          (handled handle tracker (oneRectangle 1920 1080)).attributes.totalDamage) :=
  accounted_iff tracker (by unfold Uncounted; decide +kernel) (oneRectangle 1920 1080)

/-- No handler failed, and the percentage is not within 0 and 100. -/
theorem percent_above_hundred :
    tracker.display.current = some 0 ∧
      (handled handle tracker (oneRectangle 4294967295 83889)).printed = [] ∧
      ¬∃ report, properties (handled handle tracker (oneRectangle 4294967295 83889)).attributes =
        .ok report ∧ InPercent (.ok report.percentDamage) := by
  refine ⟨by decide +kernel, by decide +kernel, ?_⟩
  have hCount : (handled handle tracker (oneRectangle 4294967295 83889)).attributes.frameCount *
      pixels (handled handle tracker (oneRectangle 4294967295 83889)).attributes = 2073600 := by
    decide +kernel
  have hDamage : (handled handle tracker (oneRectangle 4294967295 83889)).attributes.totalDamage =
      360300511410255 := by
    decide +kernel
  rw [in_percent_properties_iff, hCount, hDamage]
  rintro ⟨-, -, hFits⟩
  exact hFits ⟨nearest_mono (by norm_num) (by norm_num), by decide +kernel⟩

end ScreencopyTracker

end MirCi.Wayland
