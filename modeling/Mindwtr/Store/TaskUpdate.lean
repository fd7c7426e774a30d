import Mindwtr.Entity.NextRecurrence

/-!
# Updating a task

`normalizeTaskUpdate` and `applyTaskUpdates` of `store-helpers.ts`, with what they call of
`task-utils.ts` and `task-relative-start.ts`. A patch has an entry for each of its own properties:
`none` is a property the patch does not have, `some none` one it sets to `undefined`.
-/

namespace Mindwtr.Store

open Mindwtr.Js Mindwtr.Sync

/-- `Partial<Task>`. -/
structure TaskUpdates where
  id : Option String := none
  rev : Option (Option Json) := none
  revBy : Option (Option Json) := none
  createdAt : Option (Option Json) := none
  updatedAt : Option (Option Json) := none
  deletedAt : Option (Option Json) := none
  title : Option (Option Json) := none
  status : Option (Option Json) := none
  priority : Option (Option Json) := none
  energyLevel : Option (Option Json) := none
  assignedTo : Option (Option Json) := none
  taskMode : Option (Option Json) := none
  startTime : Option (Option Json) := none
  relativeStartOffset : Option (Option Json) := none
  dueDate : Option (Option Json) := none
  recurrence : Option (Option Json) := none
  showFutureRecurrence : Option (Option Json) := none
  pushCount : Option (Option Json) := none
  tags : Option (Option Json) := none
  contexts : Option (Option Json) := none
  checklist : Option (Option Json) := none
  description : Option (Option Json) := none
  textDirection : Option (Option Json) := none
  attachments : Option (Option (List Attachment)) := none
  location : Option (Option Json) := none
  projectId : Option (Option Json) := none
  sectionId : Option (Option Json) := none
  viewSectionIds : Option (Option Json) := none
  areaId : Option (Option Json) := none
  isFocusedToday : Option (Option Json) := none
  timeEstimate : Option (Option Json) := none
  timeSpentMinutes : Option (Option Json) := none
  suppressMindwtrReminders : Option (Option Json) := none
  repeatReminderMinutes : Option (Option Json) := none
  reviewAt : Option (Option Json) := none
  completedAt : Option (Option Json) := none
  cancelledAt : Option (Option Json) := none
  statusBeforeProjectArchive : Option (Option Json) := none
  completedAtBeforeProjectArchive : Option (Option Json) := none
  isFocusedTodayBeforeProjectArchive : Option (Option Json) := none
  projectArchivedAt : Option (Option Json) := none
  purgedAt : Option (Option Json) := none
  order : Option (Option Json) := none
  orderNum : Option (Option Json) := none
  boardOrder : Option (Option Json) := none
  focusOrder : Option (Option Json) := none
deriving DecidableEq, Repr

/-- `{ ...task, ...updates }`. -/
def spreadTask (task : Task) (u : TaskUpdates) : Task :=
  { task with
    id := u.id.getD task.id
    rev := u.rev.getD task.rev
    revBy := u.revBy.getD task.revBy
    createdAt := u.createdAt.getD task.createdAt
    updatedAt := u.updatedAt.getD task.updatedAt
    deletedAt := u.deletedAt.getD task.deletedAt
    title := u.title.getD task.title
    status := u.status.getD task.status
    priority := u.priority.getD task.priority
    energyLevel := u.energyLevel.getD task.energyLevel
    assignedTo := u.assignedTo.getD task.assignedTo
    taskMode := u.taskMode.getD task.taskMode
    startTime := u.startTime.getD task.startTime
    relativeStartOffset := u.relativeStartOffset.getD task.relativeStartOffset
    dueDate := u.dueDate.getD task.dueDate
    recurrence := u.recurrence.getD task.recurrence
    showFutureRecurrence := u.showFutureRecurrence.getD task.showFutureRecurrence
    pushCount := u.pushCount.getD task.pushCount
    tags := u.tags.getD task.tags
    contexts := u.contexts.getD task.contexts
    checklist := u.checklist.getD task.checklist
    description := u.description.getD task.description
    textDirection := u.textDirection.getD task.textDirection
    attachments := u.attachments.getD task.attachments
    location := u.location.getD task.location
    projectId := u.projectId.getD task.projectId
    sectionId := u.sectionId.getD task.sectionId
    viewSectionIds := u.viewSectionIds.or task.viewSectionIds
    areaId := u.areaId.getD task.areaId
    isFocusedToday := u.isFocusedToday.getD task.isFocusedToday
    timeEstimate := u.timeEstimate.getD task.timeEstimate
    timeSpentMinutes := u.timeSpentMinutes.getD task.timeSpentMinutes
    suppressMindwtrReminders := u.suppressMindwtrReminders.getD task.suppressMindwtrReminders
    repeatReminderMinutes := u.repeatReminderMinutes.getD task.repeatReminderMinutes
    reviewAt := u.reviewAt.getD task.reviewAt
    completedAt := u.completedAt.getD task.completedAt
    cancelledAt := u.cancelledAt.getD task.cancelledAt
    statusBeforeProjectArchive := u.statusBeforeProjectArchive.getD task.statusBeforeProjectArchive
    completedAtBeforeProjectArchive := u.completedAtBeforeProjectArchive.getD task.completedAtBeforeProjectArchive
    isFocusedTodayBeforeProjectArchive :=
      u.isFocusedTodayBeforeProjectArchive.getD task.isFocusedTodayBeforeProjectArchive
    projectArchivedAt := u.projectArchivedAt.getD task.projectArchivedAt
    purgedAt := u.purgedAt.getD task.purgedAt
    order := u.order.getD task.order
    orderNum := u.orderNum.getD task.orderNum
    boardOrder := u.boardOrder.getD task.boardOrder
    focusOrder := u.focusOrder.getD task.focusOrder }

def isTrue (v : Option Json) : Bool := v == some (.bool true)

/-! ### Dates -/

section
variable [LocalCalendar]

def earliestDate (a b : Option Int) : Option Int :=
  match a, b with
  | some a, some b => some (if a ≤ b then a else b)
  | a, b => a.or b

def getTaskDeferUntil (task : Task) : Option Int :=
  (safeParseDate task.startTime).or
    (if hasRecurrenceRule task.recurrence then
      earliestDate (safeParseDate task.dueDate) (safeParseDate task.reviewAt)
    else none)

def isTaskFutureStart (task : Task) (now : Int) : Bool :=
  match getTaskDeferUntil task, endOfDay now with
  | some deferUntil, some endOfToday => decide (endOfToday < deferUntil)
  | _, _ => false

def shouldIncrementPushCount (oldDueDate newDueDate : Option Json) : Bool :=
  match (nonEmptyString oldDueDate).bind dateParse, (nonEmptyString newDueDate).bind dateParse with
  | some oldTime, some newTime => decide (oldTime < newTime)
  | _, _ => false

/-- `rescheduleTask(task, newDueDate).pushCount`. -/
def rescheduledPushCount (task : Task) (newDueDate : Option Json) : Option Json :=
  if shouldIncrementPushCount task.dueDate newDueDate then some (.num ((asNum? task.pushCount).getD 0 + 1))
  else task.pushCount

/-! ### The start that follows the due date -/

def clearOffset (u : TaskUpdates) : TaskUpdates := { u with relativeStartOffset := some none }

/-- The start at the offset, or no offset where there is none. -/
def startAtOffset (u : TaskUpdates) (dueDate offset : Option Json) : Except JsError TaskUpdates := do
  let startTime ← computeRelativeStartTime (asStr? dueDate) offset
  match startTime with
  | some s => return { u with startTime := some (some (.str s)), relativeStartOffset := some offset }
  | none => return clearOffset u

def resolveRelativeStartUpdates (oldTask : Task) (u : TaskUpdates) : Except JsError TaskUpdates :=
  let nextDueDate := u.dueDate.getD oldTask.dueDate
  match u.relativeStartOffset with
  | some value =>
    let offset := normalizeRelativeStartOffset value
    if offset.isNone || !truthy nextDueDate then .ok (clearOffset u) else startAtOffset u nextDueDate offset
  | none =>
    if u.startTime.any fun start => coalesce start none != coalesce oldTask.startTime none then .ok (clearOffset u)
    else
      let existingOffset := normalizeRelativeStartOffset oldTask.relativeStartOffset
      if u.dueDate.isSome && existingOffset.isSome then
        if truthy nextDueDate then startAtOffset u nextDueDate existingOffset else .ok (clearOffset u)
      else .ok u

/-! ### Filing away -/

def defaultAutoArchiveDays : Int := 7

def getAutoArchiveDays (settings : Json) : Int :=
  match asNum? (prop (prop (some settings) "gtd") "autoArchiveDays") with
  | some configured => max 0 configured.floor
  | none => defaultAutoArchiveDays

def shouldAutoArchiveCompletedTask (task : Task) (settings : Json) (nowMs : Int) : Bool :=
  let archiveDays := getAutoArchiveDays settings
  !truthy task.deletedAt && task.status == some (.str "done") && decide (0 < archiveDays) &&
    ((safeParseDate task.completedAt).or (safeParseDate task.updatedAt)).any fun resolvedMs =>
      decide (0 < resolvedMs ∧ resolvedMs < nowMs - archiveDays * 24 * 60 * 60 * 1000)

/-! ### Normalizing a patch -/

/-- Where the rules that depend on them are to apply, the settings; and the time to apply them at. -/
structure UpdateContext where
  settings : Option Json := none
  nowMs : Option Int := none

def normalizeCancelledAt (u : TaskUpdates) : TaskUpdates :=
  match u.cancelledAt with
  | none => u
  | some value =>
    let cancelledAt := normalizeCancellationTimestamp value
    { u with
      cancelledAt := some cancelledAt
      status := if truthy cancelledAt && u.status.isNone then some (some (.str "archived")) else u.status }

/-- Only an archived task keeps a cancellation. -/
def clearCancelledAt (task : Task) (u : TaskUpdates) : TaskUpdates :=
  if u.status.getD task.status = some (.str "archived") then u else { u with cancelledAt := some none }

/-- A recurrence carries its series on. -/
def normalizeRecurrenceUpdate (task : Task) (u : TaskUpdates) : TaskUpdates :=
  match u.recurrence with
  | none => u
  | some value =>
    let recurrence := normalizeRecurrenceForLoad value
    let existingRecurrence := normalizeRecurrenceForLoad task.recurrence
    let existingSeriesId := coalesce (prop existingRecurrence "seriesId") (some (.str task.id))
    let seriesId := coalesce (prop recurrence "seriesId") existingSeriesId
    let completedOccurrences := coalesce (prop recurrence "completedOccurrences")
      (if truthy (prop recurrence "count") && strictEq seriesId existingSeriesId then
        prop existingRecurrence "completedOccurrences"
      else none)
    { u with
      recurrence := some (recurrence.map fun r =>
        .obj (spread (setProp "seriesId" seriesId (recordOf (some r)))
          (pickProps ["completedOccurrences"] fun _ => completedOccurrences))) }

def getTaskOrder (order orderNum : Option Json) : Option Json := (finiteNumber order).or (finiteNumber orderNum)

def normalizeOrderUpdate (u : TaskUpdates) : TaskUpdates :=
  if u.order.isSome || u.orderNum.isSome then
    let normalizedOrder := getTaskOrder (u.order.getD none) (u.orderNum.getD none)
    { u with order := some normalizedOrder, orderNum := some normalizedOrder }
  else u

/-- A patch that defers the task takes it out of Today. -/
def unstarDeferred (task : Task) (updates u : TaskUpdates) (now : Int) : TaskUpdates :=
  let editsSchedule :=
    updates.startTime.isSome || updates.dueDate.isSome || updates.reviewAt.isSome || updates.recurrence.isSome
  if editsSchedule && isTaskFutureStart (spreadTask task u) now then
    { u with isFocusedToday := some (some (.bool false)) }
  else u

def startPromotingInbox (task : Task) (updates : TaskUpdates) : Bool :=
  updates.startTime.any (fun start => !isNullish start && start != some (.str "") && start != task.startTime) &&
    updates.status.isNone && task.status == some (.str "inbox")

def starTurningOn (task : Task) (u : TaskUpdates) : Bool :=
  u.isFocusedToday.any isTrue && !isTrue task.isFocusedToday

def statusBecomingInbox (task : Task) (updates : TaskUpdates) : Bool :=
  updates.status == some (some (.str "inbox")) && task.status != some (.str "inbox")

/-- A task in the inbox is not in Today: it leaves the one or the other. -/
def settleStar (task : Task) (updates u : TaskUpdates) : TaskUpdates :=
  if statusBecomingInbox task updates && !starTurningOn task u then
    if isTrue (u.isFocusedToday.getD task.isFocusedToday) then { u with isFocusedToday := some (some (.bool false)) }
    else u
  else if (starTurningOn task u && updates.status.getD task.status == some (.str "inbox")) ||
      startPromotingInbox task updates then
    { u with status := some (some (.str "next")) }
  else u

def clearBoardOrder (task : Task) (updates u : TaskUpdates) : TaskUpdates :=
  if u.status.any (· != task.status) && updates.boardOrder.isNone then { u with boardOrder := some none } else u

def clearFocusOrder (task : Task) (updates u : TaskUpdates) : TaskUpdates :=
  if isTrue task.isFocusedToday && !isTrue (u.isFocusedToday.getD task.isFocusedToday) &&
      updates.focusOrder.isNone then
    { u with focusOrder := some none }
  else u

/-- The task as the write of the patch will stamp it. -/
def stampedTask (task : Task) (u : TaskUpdates) (nowMs : Int) : Task :=
  { spreadTask task u with updatedAt := some (.str (Runtime.toISOString nowMs)) }

/-- The patch dates the completion of a done task back beyond the archive window, and is not a status change. -/
def archivesEdit (task : Task) (updates u : TaskUpdates) (context : UpdateContext) (clock : Int) : Bool :=
  let archiveEditNowMs := context.nowMs.getD clock
  context.settings.any fun settings =>
    updates.completedAt.isSome && (updates.status.isNone || updates.status == some task.status) &&
      task.status == some (.str "done") &&
      shouldAutoArchiveCompletedTask (stampedTask task u archiveEditNowMs) settings archiveEditNowMs

/-- Such a patch files the task away. -/
def autoArchive (task : Task) (updates u : TaskUpdates) (context : UpdateContext) (clock : Int) : TaskUpdates :=
  if archivesEdit task updates u context clock then
    { u with status := some (some (.str "archived")), isFocusedToday := some (some (.bool false)) }
  else u

def unstarFinished (task : Task) (updates u : TaskUpdates) : TaskUpdates :=
  if isTaskFinished (u.status.getD task.status) then
    { u with
      isFocusedToday := some (some (.bool false))
      focusOrder := if updates.focusOrder.isNone then some none else u.focusOrder }
  else u

/-- A direct edit breaks the marker of a project's archive. -/
def clearArchiveMarker (task : Task) (u : TaskUpdates) : TaskUpdates :=
  if truthy task.projectArchivedAt then
    { u with
      statusBeforeProjectArchive := some none
      completedAtBeforeProjectArchive := some none
      isFocusedTodayBeforeProjectArchive := some none
      projectArchivedAt := some none }
  else u

/-- The patch up to the rules for the star. -/
def normalizeFields (task : Task) (updates : TaskUpdates) (clock : Int) : TaskUpdates :=
  let u := clearCancelledAt task (normalizeCancelledAt updates)
  unstarDeferred task updates (normalizeOrderUpdate (normalizeRecurrenceUpdate task u)) clock

def normalizeTaskUpdate (task : Task) (updates : TaskUpdates) (context : UpdateContext) (clock : Int) :
    TaskUpdates :=
  let u := settleStar task updates (normalizeFields task updates clock)
  let u := clearFocusOrder task updates (clearBoardOrder task updates u)
  clearArchiveMarker task (unstarFinished task updates (autoArchive task updates u context clock))

/-! ### Applying a patch -/

/-- `getReferenceTaskFieldClears()` over a patch. -/
def clearReferenceFields (u : TaskUpdates) : TaskUpdates :=
  { u with
    status := some (some (.str "reference"))
    startTime := some none
    dueDate := some none
    relativeStartOffset := some none
    reviewAt := some none
    recurrence := some none
    priority := some none
    timeEstimate := some none
    suppressMindwtrReminders := some none
    repeatReminderMinutes := some none
    showFutureRecurrence := some none
    isFocusedToday := some (some (.bool false))
    focusOrder := some none
    boardOrder := some none
    pushCount := some (some (.num 0)) }

/-- An empty text direction is not written. -/
def dropTextDirection (u : TaskUpdates) : TaskUpdates :=
  if u.textDirection = some none then { u with textDirection := none } else u

/-- The status a task has after the patch. -/
def incomingStatus (task : Task) (updates : TaskUpdates) : Option Json :=
  coalesce (updates.status.getD none) task.status

def explicitCompletedAt (updates : TaskUpdates) : Option Json :=
  (updates.completedAt.getD none).filter fun v => (safeParseDate (some v)).isSome

def explicitCancelledAt (updates : TaskUpdates) : Option Json :=
  normalizeCancellationTimestamp (updates.cancelledAt.getD none)

/-- When a task that becomes done was completed. -/
def completionTime (task : Task) (updates : TaskUpdates) (now : String) : Option Json :=
  (explicitCompletedAt updates).or
    (if task.status = some (.str "archived") then orElse task.completedAt (some (.str now)) else some (.str now))

/-- When a task that goes to the archive was completed. -/
def archiveCompletionTime (task : Task) (updates : TaskUpdates) (now : String) : Option Json :=
  if truthy (explicitCancelledAt updates) then none
  else (explicitCompletedAt updates).or (orElse task.completedAt (some (.str now)))

/-- `clearsFocusOrder`, over the patch. -/
def clearedFocusOrder (task : Task) (updates : TaskUpdates) : Option (Option Json) :=
  if task.focusOrder.isSome && updates.focusOrder.isNone then some none else updates.focusOrder

/-- What a change of the status writes besides. -/
def applyStatusChange (oldTask : Task) (updates : TaskUpdates) (now : String) : TaskUpdates :=
  let u := dropTextDirection updates
  let incoming := incomingStatus oldTask updates
  if incoming != oldTask.status && incoming == some (.str "done") then
    { u with
      status := some incoming
      completedAt := some (completionTime oldTask updates now)
      cancelledAt := some none
      isFocusedToday := some (some (.bool false))
      focusOrder := clearedFocusOrder oldTask updates }
  else if incoming != oldTask.status && incoming == some (.str "archived") then
    { u with
      status := some incoming
      completedAt := some (archiveCompletionTime oldTask updates now)
      cancelledAt := some (explicitCancelledAt updates)
      isFocusedToday := some (some (.bool false))
      focusOrder := clearedFocusOrder oldTask updates }
  else if incoming != oldTask.status && isTaskFinished oldTask.status && !isTaskFinished incoming then
    { u with status := some incoming, completedAt := some none, cancelledAt := some none }
  else u

/-- A completion is followed by the next occurrence, but not one that comes back from the archive. -/
def nextOccurrence (oldTask : Task) (updates : TaskUpdates) (now : String) (clock : Int) (uuid : Nat → String) :
    Except JsError (Option Task) :=
  let incoming := incomingStatus oldTask updates
  if incoming != oldTask.status && incoming == some (.str "done") && oldTask.status != some (.str "archived") then
    createNextRecurringTask oldTask ((asStr? (completionTime oldTask updates now)).getD now) oldTask.status clock uuid
  else .ok none

def applyDueDate (oldTask : Task) (u : TaskUpdates) : TaskUpdates :=
  match u.dueDate with
  | none => u
  | some dueDate => { u with pushCount := some (u.pushCount.getD (rescheduledPushCount oldTask dueDate)) }

structure AppliedUpdate where
  updatedTask : Task
  nextRecurringTask : Option Task
deriving DecidableEq, Repr

/-- The schedule a task has after the patch; a reference has none. -/
def applySchedule (oldTask : Task) (incoming : Option Json) (u : TaskUpdates) : Except JsError TaskUpdates :=
  if incoming = some (.str "reference") then .ok (clearReferenceFields u)
  else (resolveRelativeStartUpdates oldTask u).map (applyDueDate oldTask)

def applyTaskUpdates (oldTask : Task) (updates : TaskUpdates) (now : String) (clock : Int)
    (uuid : Nat → String) : Except JsError AppliedUpdate := do
  let nextRecurringTask ← nextOccurrence oldTask updates now clock uuid
  let finalUpdates ← applySchedule oldTask (incomingStatus oldTask updates) (applyStatusChange oldTask updates now)
  let updated := { spreadTask oldTask finalUpdates with updatedAt := some (.str now) }
  return { updatedTask := normalizeTaskLifecycleFields updated, nextRecurringTask }

end

end Mindwtr.Store
