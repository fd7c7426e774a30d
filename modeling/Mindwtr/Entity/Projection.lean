import Mindwtr.Entity.NextRecurrence
import Mindwtr.Lib.Walk
import Mindwtr.Store.ProjectLifecycle

/-!
# Occurrences to come

The calendar's view of a recurring task, `expandCalendarRecurringTasksInRange` and
`expandCalendarRecurringTaskSetInRange` of `recurrence.ts`. The occurrences of one task are found by a walk that steps
from each to the next. A set of tasks shares one budget of occurrences: every series gets the same share, and what a
series leaves over is poured out again over the lowest ones.
-/

namespace Mindwtr

open Mindwtr.Js Mindwtr.Lib Mindwtr.Store Mindwtr.Sync

def projectedRecurrenceIdSuffix : String := ":projected-recurrence"

def getProjectedRecurringTaskId (taskId : String) : String := taskId ++ projectedRecurrenceIdSuffix

/-- `taskId.includes(suffix)`. -/
def isProjectedRecurringTaskId (taskId : String) : Bool :=
  taskId.toList.tails.any (projectedRecurrenceIdSuffix.toList.isPrefixOf ·)

def getRangeProjectedRecurringTaskId (taskId occurrenceIso : String) : String :=
  taskId ++ projectedRecurrenceIdSuffix ++ ":" ++ occurrenceIso

def isProjectedRecurringTask (task : Task) : Bool :=
  lookup "isProjectedRecurringTask" task.extra == some (.bool true) && (asStr? (lookup "sourceTaskId" task.extra)).isSome

section
variable [LocalCalendar]

/-! ### The next occurrence of a projected task -/

/-- Steps on by the rule of a fluid recurrence until the date is after `catchUpBase`. -/
def projectFluidSteps (catchUpBase : Int) (r : StepRule) (baseIso : String) :
    Nat → String → Int → Except JsError (String × Int)
  | 0, nextIso, steps => .ok (nextIso, steps)
  | guard + 1, nextIso, steps =>
    match parseDate (some nextIso) with
    | none => .ok (nextIso, steps)
    | some parsedNext =>
      if catchUpBase < parsedNext then .ok (nextIso, steps)
      else do
        let followingIso ← (nextFluidIsoFrom nextIso parsedNext r).map (preserveDateOnlyFormat · baseIso)
        if followingIso = nextIso then return (nextIso, steps)
        else projectFluidSteps catchUpBase r baseIso guard followingIso (steps + 1)

/-- The steps that are taken at once where the rule counts days only. -/
def fluidSkippedSteps (catchUpBase parsedNext : Int) (r : StepRule) : Int :=
  let safeInterval := if 0 < r.interval then r.interval else 1
  let hasComplexCalendarRule := (r.byDay.filter (· != [])).isSome || (r.byMonthDay.filter (· != [])).isSome
  if (r.rule = "daily" ∨ r.rule = "weekly") ∧ !hasComplexCalendarRule then
    max 0 (estimatedSteps parsedNext catchUpBase r.rule safeInterval - 1)
  else 0

/-- The first step is taken from the completion, whatever the range; `catchUpBase` is the end of the steps after it. -/
def projectFluidIsoFrom (baseIso projectedAtIso : String) (projectionBase : Int) (catchUpBase : Option Int)
    (r : StepRule) : Except JsError (String × Int) := do
  let (fluidBaseIso, fluidFallbackBase) := match parseDate (some baseIso) with
    | some fieldBaseDate =>
      if projectionBase < fieldBaseDate then (baseIso, fieldBaseDate) else (projectedAtIso, projectionBase)
    | none => (projectedAtIso, projectionBase)
  let nextIso ← (nextFluidIsoFrom fluidBaseIso fluidFallbackBase r).map (preserveDateOnlyFormat · baseIso)
  match catchUpBase, parseDate (some nextIso) with
  | some catchUpBase, some parsedNext =>
    if catchUpBase < parsedNext then return (nextIso, 1)
    else
      let safeInterval := if 0 < r.interval then r.interval else 1
      let skippedSteps := fluidSkippedSteps catchUpBase parsedNext r
      let wide := { r with byDay := none, byMonthDay := none, interval := safeInterval * skippedSteps }
      let nextIso ←
        if 0 < skippedSteps then
          (nextIsoFrom nextIso catchUpBase wide none none).map (preserveDateOnlyFormat · baseIso)
        else .ok nextIso
      projectFluidSteps catchUpBase { r with interval := safeInterval } baseIso 1000 nextIso (skippedSteps + 1)
  | _, _ => return (nextIso, 1)

/-- A task without dates starts on the next day that a monthly rule names. -/
def projectUnscheduledMonthlyStart (projectionBase : Int) (r : StepRule) : Except JsError (Option String) :=
  let hasMonthlyRuleDateAnchor := (r.byMonthDay.filter (· != [])).isSome || (r.byDay.filter (· != [])).isSome
  if r.rule ≠ "monthly" ∨ !hasMonthlyRuleDateAnchor then .ok none
  else (nextIsoFrom (LocalCalendar.formatDate projectionBase) projectionBase r none none).map some

/-- The dates of the occurrence after the one at `dates`, and how many steps it is away. -/
def projectNextRecurringOccurrenceFields (task : Task) (dates : ScheduleDates) (r : StepRule) (projectedAtIso : String)
    (projectionBase : Int) (anchors : ScheduleField → Option Int) (fluidCatchUpBase : Option Int) :
    Except JsError (Option (ScheduleDates × Int)) :=
  match getRecurrenceScheduleAnchorField dates with
  | none => do
    let nextStart ← projectUnscheduledMonthlyStart projectionBase r
    return nextStart.map fun iso => ({ startTime := some iso }, 1)
  | some anchorField => do
    let baseIso := (dates.get anchorField).getD ""
    let (iso, steps) ←
      if isFluid task.recurrence then projectFluidIsoFrom baseIso projectedAtIso projectionBase fluidCatchUpBase r
      else projectStrictIsoFrom baseIso projectionBase r (anchors anchorField)
    if steps ≤ 0 then return none
    else
      let rebuilt ← rebuildScheduleFieldsFromAnchor dates anchorField iso
      let relativeStart ←
        if truthy task.relativeStartOffset then computeRelativeStartTime rebuilt.dueDate task.relativeStartOffset
        else .ok none
      let fields := { rebuilt with startTime := relativeStart.or rebuilt.startTime }
      if fields.startTime.isNone ∧ fields.dueDate.isNone then return none else return some (fields, steps)

/-- What the calendar shows for a task without dates. -/
def createCurrentRecurringCalendarTask (task : Task) (projectedAtIso : String) (clock : Int) :
    Except JsError (Option Task) :=
  if !truthy task.showFutureRecurrence || isProjectedRecurringTask task || truthy task.deletedAt ||
      !isTaskActionable task || truthy task.startTime || truthy task.dueDate || truthy task.reviewAt then .ok none
  else
    match getRecurrenceRule task.recurrence with
    | none => .ok none
    | some rule =>
      let completedOccurrences := (getRecurrenceCompletedOccurrencesValue task.recurrence).getD 0
      if (getRecurrenceCountValue task.recurrence).any fun n => n != 0 && decide (n ≤ completedOccurrences) then .ok none
      else do
        let currentStart ← projectUnscheduledMonthlyStart (completionDate projectedAtIso clock)
          (stepRule task.recurrence rule)
        return (currentStart.filter fun iso =>
          !shouldStopAtUntil (some iso) (getRecurrenceUntilValue task.recurrence)).map fun iso =>
            { task with startTime := some (.str iso) }

/-! ### The next occurrence -/

/-- The copy of the task at one of its occurrences. -/
def occurrenceTask (task : Task) (fields : ScheduleDates) (anchorIso projectedAtIso : String) : Task :=
  { task with
    id := getRangeProjectedRecurringTaskId task.id anchorIso
    startTime := fields.startTime.map .str
    dueDate := fields.dueDate.map .str
    reviewAt := fields.reviewAt.map .str
    attachments := none
    completedAt := none
    deletedAt := none
    purgedAt := none
    isFocusedToday := some (.bool false)
    updatedAt := some (.str projectedAtIso)
    extra := setProp "isProjectedRecurringTask" (some (.bool true)) (setProp "sourceTaskId" (some (.str task.id)) task.extra) }

/-- The preview of the next visible occurrence, which is never stored. -/
def createProjectedRecurringTask (task : Task) (projectedAtIso : String) (clock : Int) : Except JsError (Option Task) :=
  if !truthy task.showFutureRecurrence || isProjectedRecurringTask task || truthy task.deletedAt ||
      !isTaskActionable task then .ok none
  else
    match getRecurrenceRule task.recurrence with
    | none => .ok none
    | some rule => do
      let completedOccurrences := (getRecurrenceCompletedOccurrencesValue task.recurrence).getD 0
      let baseTask := (← createCurrentRecurringCalendarTask task projectedAtIso clock).getD task
      let anchors := resolveRecurrenceFieldAnchorDay task.recurrence (scheduleDates baseTask)
      let next ← projectNextRecurringOccurrenceFields task (scheduleDates baseTask) (stepRule task.recurrence rule)
        projectedAtIso (completionDate projectedAtIso clock) anchors none
      match next with
      | none => return none
      | some (fields, steps) =>
        let nextOccurrenceAnchor := (fields.dueDate.or fields.startTime).or fields.reviewAt
        if (getRecurrenceCountValue task.recurrence).any fun n => n != 0 && decide (n ≤ completedOccurrences + steps) then
          return none
        else if shouldStopAtUntil nextOccurrenceAnchor (getRecurrenceUntilValue task.recurrence) then return none
        else return some { occurrenceTask task fields "" projectedAtIso with id := getProjectedRecurringTaskId task.id }

/-- The task as the calendar shows it, and its next occurrence. -/
def expandCalendarRecurringTasks (task : Task) (projectedAtIso : String) (clock : Int) : Except JsError (List Task) := do
  let currentTask := (← createCurrentRecurringCalendarTask task projectedAtIso clock).getD task
  let projectedTask ← createProjectedRecurringTask task projectedAtIso clock
  return currentTask :: projectedTask.toList

/-! ### The occurrences in a range -/

structure CalendarRecurrenceRange where
  startIso : String
  endIso : String

def calendarRangeProjectionPerTaskCap : Nat := 62
def maxRangeProjectionIterations : Nat := 800

/-- Where a walk over the occurrences is: the dates of the last one and the steps up to it. -/
structure OccurrenceState where
  dates : ScheduleDates
  stepsSoFar : Int

/-- What stays the same during a walk. -/
structure RangeWalk where
  task : Task
  rule : StepRule
  projectedAtIso : String
  projectionBase : Int
  fluidCatchUpBase : Option Int
  anchors : ScheduleField → Option Int
  /-- `none` where the start of the range is not a date, and the range is open. -/
  rangeStart : Option Int
  rangeEnd : Int

/-- The series ends before an occurrence that `COUNT` does not allow. -/
def RangeWalk.countReached (w : RangeWalk) (stepsSoFar : Int) : Bool :=
  (getRecurrenceCountValue w.task.recurrence).any fun n =>
    n != 0 && decide (n ≤ (getRecurrenceCompletedOccurrencesValue w.task.recurrence).getD 0 + stepsSoFar)

/-- One turn of the loop: an occurrence before the range is passed over, and one behind it is the end. -/
def RangeWalk.step (w : RangeWalk) (s : OccurrenceState) : Except JsError (Option (OccurrenceState × Option Task)) := do
  let next ← projectNextRecurringOccurrenceFields w.task s.dates w.rule w.projectedAtIso w.projectionBase w.anchors
    w.fluidCatchUpBase
  match next with
  | none => return none
  | some (fields, steps) =>
    let stepsSoFar := s.stepsSoFar + steps
    let anchorIso := (fields.dueDate.or fields.startTime).or fields.reviewAt
    if w.countReached stepsSoFar || shouldStopAtUntil anchorIso (getRecurrenceUntilValue w.task.recurrence) then
      return none
    else
      match parseDate anchorIso with
      | none => return none
      | some anchorDate =>
        if w.rangeEnd < anchorDate then return none
        else
          let occurrence := occurrenceTask w.task fields (anchorIso.getD "") w.projectedAtIso
          return some (⟨fields, stepsSoFar⟩, if w.rangeStart.all (· ≤ anchorDate) then some occurrence else none)

/-- The walk of a recurring task that the calendar shows as `currentTask`. -/
def rangeWalk (task currentTask : Task) (rule : String) (rangeStart : Option Int) (rangeEnd : Int)
    (projectedAtIso : String) (clock : Int) : RangeWalk :=
  let projectionBase := completionDate projectedAtIso clock
  let catchUpBase := (rangeStart.filter fun start => decide (projectionBase < start)).map (· - 1)
  { task
    rule := stepRule task.recurrence rule
    projectedAtIso
    projectionBase := if isFluid task.recurrence then projectionBase else catchUpBase.getD projectionBase
    fluidCatchUpBase := if isFluid task.recurrence then catchUpBase else none
    anchors := resolveRecurrenceFieldAnchorDay task.recurrence (scheduleDates currentTask)
    rangeStart
    rangeEnd }

/-- `projected` occurrences are counted up to `maxOccurrences`, which may be any number. -/
def rangeProjectionCap (maxOccurrences : Rat) : Nat := ⌈min (calendarRangeProjectionPerTaskCap : Rat) maxOccurrences⌉.toNat

/-- The task as the calendar shows it, then its occurrences in the range. -/
def expandCalendarRecurringTasksInRange (task : Task) (range : CalendarRecurrenceRange) (projectedAtIso : String)
    (clock : Int) (maxOccurrences : Rat) : Except JsError (List Task) := do
  let current ← createCurrentRecurringCalendarTask task projectedAtIso clock
  let currentTask := current.getD task
  if !truthy task.showFutureRecurrence || isProjectedRecurringTask task || truthy task.deletedAt ||
      !isTaskActionable task then return [currentTask]
  else
    match getRecurrenceRule task.recurrence, parseDate (some range.endIso) with
    | some rule, some rangeEnd =>
      let w := rangeWalk task currentTask rule (parseDate (some range.startIso)) rangeEnd projectedAtIso clock
      let occurrences ← walk w.step maxRangeProjectionIterations ⟨scheduleDates currentTask, 0⟩
        (rangeProjectionCap maxOccurrences)
      return currentTask :: occurrences
    | _, _ => return [currentTask]

/-! ### A set of tasks -/

/-- The entries that the maps of the code have for one candidate, under its id. -/
structure ProjectionShare where
  task : Task
  allocation : Nat
  expansion : List Task
  active : Bool

def ProjectionShare.emitted (share : ProjectionShare) : Nat := share.expansion.length - 1

/-- Expands one series up to its allocation; a series that ran dry or is full takes no further part. -/
def ProjectionShare.expand (expansionOf : Task → Nat → Except JsError (List Task)) (perTaskCap : Nat)
    (share : ProjectionShare) : Except JsError ProjectionShare :=
  if share.allocation = 0 then .ok { share with expansion := [share.task] }
  else do
    let expansion ← expansionOf share.task share.allocation
    let done := decide (expansion.length - 1 < share.allocation) || decide (perTaskCap ≤ share.allocation)
    return { share with expansion, active := share.active && !done }

/-- The first shares: what is left over of the budget goes to the first candidates. -/
def allocate (baseShare perTaskCap : Nat) : Nat → List Task → List ProjectionShare
  | _, [] => []
  | remainder, task :: rest =>
    let extra := if baseShare < perTaskCap ∧ 0 < remainder then 1 else 0
    ⟨task, baseShare + extra, [], true⟩ :: allocate baseShare perTaskCap (remainder - extra) rest

def projectedCount (shares : List ProjectionShare) : Nat := (shares.map (·.emitted)).sum

/-- Raises the allocation of the first `n` active shares at `minimum`, and marks them. -/
def raiseLowest (minimum increase : Nat) : Nat → List ProjectionShare → List (ProjectionShare × Bool)
  | _, [] => []
  | n, share :: rest =>
    if share.active ∧ share.allocation = minimum ∧ 0 < n then
      ({ share with allocation := minimum + increase }, true) :: raiseLowest minimum increase (n - 1) rest
    else (share, false) :: raiseLowest minimum increase n rest

/-- The levels of the active shares. -/
def activeLevels (shares : List ProjectionShare) : List Nat := (shares.filter (·.active)).map (·.allocation)

/-- Raises the lowest active shares to the next level, or as far as the remainder goes. -/
def pour (perTaskCap remainder minimum : Nat) (shares : List ProjectionShare) : List (ProjectionShare × Bool) :=
  let levels := activeLevels shares
  let lowest := levels.count minimum
  let nextLevel := min perTaskCap (((levels.filter (minimum < ·)).min?).getD perTaskCap)
  let fullLevelIncrease := min (nextLevel - minimum) (remainder / lowest)
  if 0 < fullLevelIncrease then raiseLowest minimum fullLevelIncrease lowest shares
  else raiseLowest minimum 1 remainder shares

def expandChanged (expansionOf : Task → Nat → Except JsError (List Task)) (perTaskCap : Nat)
    (shares : List (ProjectionShare × Bool)) : Except JsError (List ProjectionShare) :=
  shares.mapM fun e => if e.2 then e.1.expand expansionOf perTaskCap else .ok e.1

/-- The loop that pours out what is left, for at most `fuel` rounds. -/
def waterFill (expansionOf : Task → Nat → Except JsError (List Task)) (boundedTotalCap perTaskCap : Nat) :
    Nat → List ProjectionShare → Except JsError (List ProjectionShare)
  | 0, _ => .error .endless
  | fuel + 1, shares =>
    let remainder := boundedTotalCap - projectedCount shares
    match (activeLevels shares).min? with
    | none => .ok shares
    | some minimum =>
      if remainder = 0 then .ok shares
      else
        let poured := pour perTaskCap remainder minimum shares
        if poured.all (!·.2) then .ok shares
        else do
          let shares ← expandChanged expansionOf perTaskCap poured
          waterFill expansionOf boundedTotalCap perTaskCap fuel shares

def isProjectionCandidate (task : Task) : Bool :=
  task.showFutureRecurrence == some (.bool true) && !isProjectedRecurringTask task && !truthy task.deletedAt &&
    isTaskActionable task && hasRecurrenceRule task.recurrence

/-- The shares of the candidates at the end. A round raises an allocation, so there are no more rounds than there is
room. -/
def projectionShares (expansionOf : Task → Nat → Except JsError (List Task)) (boundedTotalCap : Nat)
    (candidates : List Task) : Except JsError (List ProjectionShare) := do
  let perTaskCap := min calendarRangeProjectionPerTaskCap boundedTotalCap
  let baseShare := min perTaskCap (boundedTotalCap / candidates.length)
  let remainder := boundedTotalCap - baseShare * candidates.length
  let shares ← (allocate baseShare perTaskCap remainder candidates).mapM (·.expand expansionOf perTaskCap)
  waterFill expansionOf boundedTotalCap perTaskCap (candidates.length * perTaskCap + 1) shares

def expandCalendarRecurringTaskSetInRange (tasks : List Task) (range : CalendarRecurrenceRange) (projectedAtIso : String)
    (clock : Int) (totalProjectionCap : Rat) : Except JsError (List Task) :=
  let projectionCandidates := tasks.filter isProjectionCandidate
  if projectionCandidates = [] then .ok tasks
  else do
    let expansionOf (task : Task) (allocation : Nat) :=
      expandCalendarRecurringTasksInRange task range projectedAtIso clock allocation
    let shares ← projectionShares expansionOf ⌊totalProjectionCap⌋.toNat projectionCandidates
    return tasks.flatMap fun task =>
      ((shares.find? fun share => share.task.id == task.id).map (·.expansion)).getD [task]

end

end Mindwtr
