import Mindwtr.Lib.Intervals
import Mindwtr.Store.ProjectLifecycle
import Mindwtr.Store.TaskSorting

/-!
# Free slots of a day

`findFreeSlotForDay` and `isSlotFreeForDay` of `calendar-scheduling.ts`. What keeps a day busy are
its timed events and the tasks that start on it, clipped to the hours of the day, sorted and merged;
the search moves a cursor over them. `findFreeSlotForDay_first` compares it with the slots that are
free of every event and task as they stand, neither clipped nor merged.
-/

namespace Mindwtr.Calendar

open Mindwtr.Js Mindwtr.Sync Mindwtr.Store Mindwtr.Lib

structure SchedulingEvent where
  allDay : Bool := false
  start : Option Json
  stop : Option Json
deriving DecidableEq, Repr

structure CalendarSchedulingOptions where
  dayEndHour : Option Rat := none
  dayStartHour : Option Rat := none
  snapMinutes : Option Rat := none
  timeEstimatesEnabled : Option Bool := none

/-- What both searches are asked about. -/
structure SlotOptions extends CalendarSchedulingOptions where
  day : Int
  durationMinutes : Rat
  events : List SchedulingEvent
  tasks : List Task
  excludeTaskId : Option String := none

def defaultCalendarDayStartHour : Rat := 8
def defaultCalendarDayEndHour : Rat := 23
def defaultCalendarSnapMinutes : Rat := 5

def minutesToMs (minutes : Rat) : Rat := minutes * 60 * 1000

/-- `new Date(time)` has no fractions of a millisecond. -/
def ceilToMinutes (date : Int) (stepMinutes : Rat) : Int :=
  truncate (((date : Rat) / minutesToMs stepMinutes).ceil * minutesToMs stepMinutes)

def CalendarSchedulingOptions.snapStep (options : CalendarSchedulingOptions) : Rat :=
  options.snapMinutes.getD defaultCalendarSnapMinutes

section
variable [LocalCalendar]

def isSameLocalDay (left right : Int) : Bool :=
  getFullYear left == getFullYear right && getMonth left == getMonth right && getDate left == getDate right

/-- `date.setHours(hour, 0, 0, 0)`. -/
def setHours (date : Int) (hour : Rat) : Date := atClock date (truncate hour, 0, 0, 0)

/-- Start and end of the hours of a day, where both are valid dates. -/
def getDayBounds (day : Int) (options : CalendarSchedulingOptions) : Option (Int × Int) := do
  let dayStart ← setHours day (options.dayStartHour.getD defaultCalendarDayStartHour)
  let dayEnd ← setHours day (options.dayEndHour.getD defaultCalendarDayEndHour)
  return (dayStart, dayEnd)

def taskBlocksScheduling (task : Task) (excludeTaskId : Option String) : Bool :=
  if truthy task.deletedAt then false
  else if some task.id == excludeTaskId then false
  else isTaskActionable task

/-- `timeEstimateToMinutes(estimate, { enabled })`. -/
def estimatedMinutes (estimate : Option Json) (enabled : Option Bool) : Int :=
  if enabled = some false then 30
  else ((asStr? estimate).map timeEstimateToMinutes).getD 30

/-- From when until when an event takes place. -/
def eventPeriod (event : SchedulingEvent) : Option (Period Int) :=
  if event.allDay then none
  else do
    let start ← safeParseDate event.start
    let stop ← safeParseDate event.stop
    return ⟨start, stop⟩

/-- From when until when a task of the day keeps one busy. -/
def taskPeriod (options : SlotOptions) (task : Task) : Option (Period Int) :=
  if !taskBlocksScheduling task options.excludeTaskId then none
  else if !((asStr? task.startTime).map hasTimeComponent).getD false then none
  else do
    let start ← safeParseDate task.startTime
    if !isSameLocalDay start options.day then none
    else return ⟨start, start + estimatedMinutes task.timeEstimate options.timeEstimatesEnabled * 60 * 1000⟩

def busyPeriods (options : SlotOptions) : List (Period Int) :=
  options.events.filterMap eventPeriod ++ options.tasks.filterMap (taskPeriod options)

/-- No time lies within bounds that are not both valid dates. -/
def collectBusyIntervals (options : SlotOptions) : List (Period Int) :=
  match getDayBounds options.day options.toCalendarSchedulingOptions with
  | none => []
  | some (dayStart, dayEnd) =>
    let intervals := (busyPeriods options).filterMap (Period.clip dayStart dayEnd)
    mergeSorted (intervals.insertionSort fun a b => a.start ≤ b.start)

/-- Whether a slot that begins at the cursor has ended by a time. -/
def EndsBy (durationMinutes : Rat) (cursor time : Int) : Prop := cursor + minutesToMs durationMinutes ≤ time

instance (durationMinutes : Rat) : DecidableRel (EndsBy durationMinutes) := fun cursor time =>
  inferInstanceAs (Decidable ((cursor : Rat) + minutesToMs durationMinutes ≤ time))

def findFreeSlotForDay (options : SlotOptions) (now : Int) : Option Int :=
  (getDayBounds options.day options.toCalendarSchedulingOptions).bind fun (dayStart, dayEnd) =>
    let isToday := isSameLocalDay options.day now
    let earliest := ceilToMinutes (max dayStart (if isToday then now else dayStart)) options.snapStep
    firstFit (EndsBy options.durationMinutes) (ceilToMinutes · options.snapStep) dayEnd
      (collectBusyIntervals options) (max earliest dayStart)

def isSlotFreeForDay (options : SlotOptions) (startTime : Int) : Bool :=
  let intervals := collectBusyIntervals { options with dayEndHour := some 24, dayStartHour := some 0 }
  let endMs := startTime + minutesToMs options.durationMinutes
  !intervals.any fun interval => startTime < interval.stop ∧ endMs > interval.start

end

/-! ### Snapping -/

/-- The times that snapping can give. -/
def IsSnapped (stepMinutes : Rat) (time : Int) : Prop := ∃ k : Int, time = truncate (k * minutesToMs stepMinutes)

theorem truncate_mono {a b : Rat} (h : a ≤ b) : truncate a ≤ truncate b := by
  unfold truncate
  split_ifs with ha hb hb
  · exact Rat.ceil_le_iff.2 (le_trans h Rat.le_ceil)
  · have hceil : a.ceil ≤ 0 := Rat.ceil_le_iff.2 ha.le
    exact le_trans hceil (Rat.le_floor_iff.2 (not_lt.1 hb))
  · exact absurd (lt_of_le_of_lt h hb) ha
  · exact Rat.floor_monotone h

theorem truncate_intCast (n : Int) : truncate n = n := by
  unfold truncate
  split_ifs
  · exact Rat.ceil_intCast n
  · exact Rat.floor_intCast n

/-- Truncation passes over a whole number only from below zero, and only towards zero. -/
theorem le_of_le_truncate {a : Rat} {time : Int} (h : time ≤ truncate a) (hlt : a < time) : time ≤ 0 ∧ a < 0 := by
  unfold truncate at h
  split_ifs at h with ha
  · have hceil : a.ceil ≤ 0 := Rat.ceil_le_iff.2 ha.le
    exact ⟨le_trans h hceil, ha⟩
  · have hfloor : (time : Rat) ≤ a := Rat.le_floor_iff.1 h
    exact absurd hlt (not_lt.2 hfloor)

theorem ceilToMinutes_zero (stepMinutes : Rat) : ceilToMinutes 0 stepMinutes = 0 := by
  have hquotient : ((0 : Int) : Rat) / minutesToMs stepMinutes = ((0 : Int) : Rat) := by simp
  unfold ceilToMinutes
  rw [hquotient, Rat.ceil_intCast, Int.cast_zero, zero_mul]
  exact truncate_intCast 0

theorem ceilToMinutes_isLeast {stepMinutes : Rat} (hstep : 0 < stepMinutes) {time : Int}
    (hclock : (∃ ms : Int, minutesToMs stepMinutes = ms) ∨ 0 ≤ time) :
    IsLeast {place | IsSnapped stepMinutes place ∧ time ≤ place} (ceilToMinutes time stepMinutes) := by
  have hpos : 0 < minutesToMs stepMinutes := by
    unfold minutesToMs
    positivity
  have hle : (time : Rat) ≤ ((time : Rat) / minutesToMs stepMinutes).ceil * minutesToMs stepMinutes :=
    (div_le_iff₀ hpos).1 Rat.le_ceil
  refine ⟨⟨⟨_, rfl⟩, ?_⟩, ?_⟩
  · have := truncate_mono hle
    rwa [truncate_intCast] at this
  · rintro place ⟨⟨k, rfl⟩, hplace⟩
    rcases le_or_gt (time : Rat) (k * minutesToMs stepMinutes) with hk | hk
    · have hceil : ((time : Rat) / minutesToMs stepMinutes).ceil ≤ k := Rat.ceil_le_iff.2 ((div_le_iff₀ hpos).2 hk)
      exact truncate_mono (mul_le_mul_of_nonneg_right (by exact_mod_cast hceil) hpos.le)
    · rcases hclock with ⟨ms, hms⟩ | hepoch
      · rw [hms] at hk hplace
        have hcast : ((k * ms : Int) : Rat) = k * ms := by push_cast; rfl
        rw [← hcast, truncate_intCast] at hplace
        rw [← hcast] at hk
        exact absurd hplace (not_le.2 (by exact_mod_cast hk))
      · -- only the epoch itself is reached from below
        obtain ⟨htime, -⟩ := le_of_le_truncate hplace hk
        obtain rfl := le_antisymm htime hepoch
        rwa [ceilToMinutes_zero]

/-! ### The busy intervals -/

theorem endsBy_fitting {durationMinutes : Rat} (h : 0 < durationMinutes) : Fitting (EndsBy durationMinutes) := by
  have hpos : 0 < minutesToMs durationMinutes := by
    unfold minutesToMs
    positivity
  constructor
  · intro place point point' hfit hle
    have hle' : (point : Rat) ≤ point' := by exact_mod_cast hle
    exact le_trans hfit hle'
  · intro place place' point hfit hle
    have hle' : (place' : Rat) ≤ place := by exact_mod_cast hle
    unfold EndsBy at *
    linarith
  · intro place hfit
    unfold EndsBy at hfit
    linarith

theorem pairwise_insertionSort_start (periods : List (Period Int)) :
    (periods.insertionSort fun a b => a.start ≤ b.start).Pairwise fun a b => a.start ≤ b.start := by
  have htotal : Std.Total fun a b : Period Int => a.start ≤ b.start := ⟨fun a b => le_total a.start b.start⟩
  have htrans : IsTrans (Period Int) fun a b => a.start ≤ b.start := ⟨fun a b c => le_trans⟩
  exact List.pairwise_insertionSort _ _

section
variable [LocalCalendar] {options : SlotOptions}

theorem covers_collectBusyIntervals {dayStart dayEnd : Int}
    (hbounds : getDayBounds options.day options.toCalendarSchedulingOptions = some (dayStart, dayEnd)) {time : Int} :
    Lib.Covers (collectBusyIntervals options) time ↔
      (dayStart ≤ time ∧ time < dayEnd) ∧ Lib.Covers (busyPeriods options) time := by
  simp only [collectBusyIntervals, hbounds]
  rw [covers_mergeSorted (pairwise_insertionSort_start _), covers_perm (List.perm_insertionSort _ _), covers_clipped]

theorem collectBusyIntervals_within {dayStart dayEnd : Int}
    (hbounds : getDayBounds options.day options.toCalendarSchedulingOptions = some (dayStart, dayEnd)) :
    ∀ interval ∈ collectBusyIntervals options, interval.Within dayStart dayEnd := by
  simp only [collectBusyIntervals, hbounds]
  apply mergeSorted_within
  intro period hperiod
  rw [List.mem_insertionSort, List.mem_filterMap] at hperiod
  obtain ⟨whole, -, hclip⟩ := hperiod
  exact Period.clip_within hclip

theorem collectBusyIntervals_sorted (options : SlotOptions) :
    (collectBusyIntervals options).Pairwise fun a b => a.start ≤ b.start := by
  unfold collectBusyIntervals
  split
  · exact List.Pairwise.nil
  · exact mergeSorted_sorted (pairwise_insertionSort_start _)

/-! ### Free slots -/

/-- The slot reaches into none of the events and tasks that keep one busy. -/
def SlotOptions.Undisturbed (options : SlotOptions) (slot : Int) : Prop :=
  ∀ busy ∈ busyPeriods options, busy.start < busy.stop → ¬Overlaps (EndsBy options.durationMinutes) slot busy

/-- The snapped slots of the day that are still to come and disturb nothing. -/
def freeSlots (options : SlotOptions) (now : Int) : Set Int :=
  {slot | ∃ dayStart dayEnd, getDayBounds options.day options.toCalendarSchedulingOptions = some (dayStart, dayEnd) ∧
    (IsSnapped options.snapStep slot ∧ dayStart ≤ slot ∧ (isSameLocalDay options.day now = true → now ≤ slot)) ∧
    EndsBy options.durationMinutes slot dayEnd ∧ options.Undisturbed slot}

/-- The clock counts the snap step in whole milliseconds, or the day is one since its epoch. -/
def SlotOptions.StepsWithClock (options : SlotOptions) : Prop :=
  (∃ ms : Int, minutesToMs options.snapStep = ms) ∨
    ∀ dayStart dayEnd, getDayBounds options.day options.toCalendarSchedulingOptions = some (dayStart, dayEnd) → 0 ≤ dayStart

/-- What reaches into a period is a time of the slot in it. -/
theorem undisturbed_iff (hduration : 0 < options.durationMinutes) {slot : Int} :
    options.Undisturbed slot ↔
      ∀ time, slot ≤ time → ¬EndsBy options.durationMinutes slot time → ¬Lib.Covers (busyPeriods options) time := by
  have hfits := endsBy_fitting hduration
  constructor
  · rintro h time hle hnot ⟨busy, hbusy, hcontains⟩
    have hlt := lt_of_le_of_lt hcontains.1 hcontains.2
    exact h busy hbusy hlt ((overlaps_iff hfits hlt).2 ⟨time, ⟨hle, hnot⟩, hcontains⟩)
  · intro h busy hbusy hlt hover
    obtain ⟨time, ⟨hle, hnot⟩, hcontains⟩ := (overlaps_iff hfits hlt).1 hover
    exact h time hle hnot ⟨busy, hbusy, hcontains⟩

/-- Clipping to hours that have room for the slot, and merging, leave the same slots free. -/
theorem overlaps_none_iff (hduration : 0 < options.durationMinutes) {dayStart dayEnd slot : Int}
    (hbounds : getDayBounds options.day options.toCalendarSchedulingOptions = some (dayStart, dayEnd))
    (hstart : dayStart ≤ slot) (hend : EndsBy options.durationMinutes slot dayEnd) :
    (∀ interval ∈ collectBusyIntervals options, ¬Overlaps (EndsBy options.durationMinutes) slot interval) ↔
      options.Undisturbed slot := by
  have hfits := endsBy_fitting hduration
  rw [undisturbed_iff hduration]
  constructor
  · intro h time hle hnot hcovers
    have hlt : time < dayEnd := by
      by_contra hge
      exact hnot (hfits.later hend (not_lt.1 hge))
    obtain ⟨interval, hinterval, hcontains⟩ :=
      (covers_collectBusyIntervals hbounds).2 ⟨⟨le_trans hstart hle, hlt⟩, hcovers⟩
    have hwithin := collectBusyIntervals_within hbounds interval hinterval
    exact h interval hinterval ((overlaps_iff hfits hwithin.start_lt).2 ⟨time, ⟨hle, hnot⟩, hcontains⟩)
  · intro h interval hinterval hover
    have hwithin := collectBusyIntervals_within hbounds interval hinterval
    obtain ⟨time, ⟨hle, hnot⟩, hcontains⟩ := (overlaps_iff hfits hwithin.start_lt).1 hover
    exact h time hle hnot ((covers_collectBusyIntervals hbounds).1 ⟨interval, hinterval, hcontains⟩).2

theorem isSlotFreeForDay_of_undisturbed (hduration : 0 < options.durationMinutes) {slot : Int}
    (h : options.Undisturbed slot) : isSlotFreeForDay options slot = true := by
  have hfits := endsBy_fitting hduration
  unfold isSlotFreeForDay
  simp only [Bool.not_eq_true', List.any_eq_false, decide_eq_true_eq]
  rintro interval hinterval ⟨hlt, hgt⟩
  cases hbounds : getDayBounds options.day
      { options.toCalendarSchedulingOptions with dayEndHour := some 24, dayStartHour := some 0 } with
  | none => simp [collectBusyIntervals, hbounds] at hinterval
  | some bounds =>
    have hwithin := collectBusyIntervals_within hbounds interval hinterval
    have hover : Overlaps (EndsBy options.durationMinutes) slot interval := ⟨hlt, not_le.2 hgt⟩
    obtain ⟨time, ⟨hle, hnot⟩, hcontains⟩ := (overlaps_iff hfits hwithin.start_lt).1 hover
    have hcovers := ((covers_collectBusyIntervals hbounds).1 ⟨interval, hinterval, hcontains⟩).2
    exact (undisturbed_iff hduration).1 h time hle hnot hcovers

theorem mem_freeSlots {dayStart dayEnd now slot : Int}
    (hbounds : getDayBounds options.day options.toCalendarSchedulingOptions = some (dayStart, dayEnd)) :
    slot ∈ freeSlots options now ↔
      (IsSnapped options.snapStep slot ∧ dayStart ≤ slot ∧ (isSameLocalDay options.day now = true → now ≤ slot)) ∧
        EndsBy options.durationMinutes slot dayEnd ∧ options.Undisturbed slot := by
  simp [freeSlots, hbounds]

theorem findFreeSlotForDay_isFirst (hduration : 0 < options.durationMinutes) (hsnap : 0 < options.snapStep)
    (hclock : options.StepsWithClock) (now : Int) : IsFirst (freeSlots options now) (findFreeSlotForDay options now) := by
  unfold findFreeSlotForDay
  cases hbounds : getDayBounds options.day options.toCalendarSchedulingOptions with
  | none =>
    rw [Option.bind_none]
    refine Set.eq_empty_iff_forall_notMem.2 fun slot hslot => ?_
    obtain ⟨dayStart, dayEnd, hsome, -⟩ := hslot
    rw [hbounds] at hsome
    cases hsome
  | some bounds =>
    obtain ⟨dayStart, dayEnd⟩ := bounds
    rw [Option.bind_some]
    have hceil : ∀ time, dayStart ≤ time →
        IsLeast {place | place ∈ Set.ofPred (IsSnapped options.snapStep) ∧ time ≤ place} (ceilToMinutes time options.snapStep) := by
      intro time htime
      refine ceilToMinutes_isLeast hsnap (hclock.imp_right fun hepoch => ?_)
      exact le_trans (hepoch dayStart dayEnd hbounds) htime
    have hearliest := hceil (max dayStart (if isSameLocalDay options.day now then now else dayStart)) (le_max_left _ _)
    have hcursor := max_eq_left (le_trans (le_max_left _ _) hearliest.1.2)
    have hfirst := firstFit_isFirst (endsBy_fitting hduration) hceil (collectBusyIntervals options)
      (collectBusyIntervals_within hbounds) (collectBusyIntervals_sorted options) hearliest.1.1
    simp only [hcursor]
    convert hfirst using 1
    ext slot
    rw [mem_freeSlots hbounds]
    have htoday : max dayStart (if isSameLocalDay options.day now then now else dayStart) ≤ slot ↔
        dayStart ≤ slot ∧ (isSameLocalDay options.day now = true → now ≤ slot) := by
      rw [max_le_iff]
      split_ifs with hday <;> simp [hday]
    constructor
    · rintro ⟨⟨hsnapped, hstart, hnow⟩, hend, hundisturbed⟩
      have hle := hearliest.2 ⟨hsnapped, htoday.2 ⟨hstart, hnow⟩⟩
      exact ⟨⟨hsnapped, hle⟩, hend, (overlaps_none_iff hduration hbounds hstart hend).2 hundisturbed⟩
    · rintro ⟨⟨hsnapped, hle⟩, hend, hfree⟩
      obtain ⟨hstart, hnow⟩ := htoday.1 (le_trans hearliest.1.2 hle)
      exact ⟨⟨hsnapped, hstart, hnow⟩, hend, (overlaps_none_iff hduration hbounds hstart hend).1 hfree⟩

end

/-- A day with an event from nine to ten and a half hour wanted after half past nine. -/
def busyMorning : SlotOptions where
  day := 0
  durationMinutes := 30
  events := [{ start := some (.str "1970-01-01T09:00:00.000Z"), stop := some (.str "1970-01-01T10:00:00.000Z") }]
  tasks := []

end Mindwtr.Calendar
