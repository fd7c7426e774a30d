import Mindwtr.Entity.Recurrence
import Mindwtr.Sync.Revision

/-!
# Loading a task

`task-status.ts`, with the field normalisers it calls: the shape a task has after it was loaded or
entered a merge.
-/

namespace Mindwtr

open Mindwtr.Js Mindwtr.Sync

def taskStatusValues : List String :=
  ["inbox", "next", "waiting", "someday", "reference", "done", "archived"]

def legacyStatusMap : List (String × String) :=
  [("planned", "next"), ("pending", "next"), ("in-progress", "next"), ("doing", "next")]

def isTaskFinished (status : Option Json) : Bool :=
  status == some (.str "done") || status == some (.str "archived")

def relativeStartOffsetUnits : List String := ["minute", "hour", "day", "week"]

def normalizeRelativeStartOffset (value : Option Json) : Option Json :=
  match value with
  | some (.obj entries) =>
    match lookup "unit" entries, lookup "amount" entries with
    | some (.str unit), some (.num amount) =>
      if unit ∈ relativeStartOffsetUnits ∧ amount.den = 1 ∧ -10000 ≤ amount ∧ amount ≤ 0 then
        some (.obj [("amount", .num amount), ("unit", .str unit)])
      else none
    | _, _ => none
  | _ => none

def repeatReminderIntervalOptions : List Rat := [5, 10, 15, 30, 60]

def normalizeRepeatReminderMinutes (value : Option Json) : Option Json :=
  match value with
  | some (.num n) => if n ∈ repeatReminderIntervalOptions then value else none
  | _ => none

def timeSpentMaxMinutes : Int := 100000

def normalizeTimeSpentMinutes (value : Option Json) : Option Json :=
  match value with
  | some (.num n) =>
    if mathRound n ≤ 0 then none else some (.num ((min (mathRound n) timeSpentMaxMinutes : Int) : Rat))
  | _ => none

/-- `typeof value === "string" && value.trim().length > 0 ? value : undefined`. -/
def normalizeOptionalString (value : Option Json) : Option Json := (nonBlank value).map .str

/-- `Number.isFinite(value) ? value : undefined`. -/
def finiteNumber (value : Option Json) : Option Json := (asNum? value).map .num

section
variable [Runtime]

/-- The names an object inherits, which the lookup of a legacy status also finds, are left out. -/
def normalizeTaskStatus (value : Option Json) : String :=
  match asStr? value with
  | none => "inbox"
  | some s =>
    if s ∈ taskStatusValues then s
    else
      let lowered := trim (Runtime.toLowerCase s)
      if lowered ∈ taskStatusValues then lowered else (legacyStatusMap.lookup lowered).getD "inbox"

def normalizeTaskLifecycleFields (task : Task) : Task :=
  let cancelledAt :=
    if task.status = some (.str "archived") then normalizeCancellationTimestamp task.cancelledAt else none
  let isTerminal := isTaskFinished task.status
  let completedAt :=
    if truthy cancelledAt then none
    else if isTerminal then orElse (orElse task.completedAt task.updatedAt) task.createdAt
    else none
  { task with
    cancelledAt
    completedAt
    isFocusedToday := if isTerminal then some (.bool false) else task.isFocusedToday
    focusOrder := if isTerminal then none else task.focusOrder }

/-- The task starts after the local day of `now`. -/
def isFutureStart (task : Task) (now : Option Int) : Bool :=
  match safeParseDate task.startTime, now with
  | some start, some now =>
    let (year, month, day) := Runtime.localDay now
    match Runtime.localTime year month day 23 59 59 999 with
    | some endOfToday => decide (start > endOfToday)
    | none => false
  | _, _ => false

/-- `createdAt` where it is a date, else the time of the load. -/
def loadedCreatedAt (task : Task) (nowIso : String) : String :=
  match asStr? task.createdAt with
  | some s => if (dateParse s).isSome then s else nowIso
  | none => nowIso

/-- `updatedAt` where it is a date that is not before the creation. -/
def loadedUpdatedAt (task : Task) (nowIso : String) : String :=
  let createdAt := loadedCreatedAt task nowIso
  match asStr? task.updatedAt with
  | none => createdAt
  | some s =>
    match dateParse s with
    | none => createdAt
    | some updatedMs => if (dateParse createdAt).any (updatedMs < ·) then createdAt else s

def loadedOrder (task : Task) : Option Json := (finiteNumber task.order).or (finiteNumber task.orderNum)

/-- `next` of `normalizeTaskForLoad`. -/
def normalizeTaskFields (task : Task) (nowIso : String) : Task :=
  let projectId := normalizeOptionalString task.projectId
  { task with
    createdAt := some (.str (loadedCreatedAt task nowIso))
    updatedAt := some (.str (loadedUpdatedAt task nowIso))
    status := some (.str (normalizeTaskStatus task.status))
    projectId
    areaId := if projectId.isSome then none else normalizeOptionalString task.areaId
    order := loadedOrder task
    orderNum := loadedOrder task
    recurrence := preserveShallowIdentity task.recurrence (normalizeRecurrenceForLoad task.recurrence)
    repeatReminderMinutes := normalizeRepeatReminderMinutes task.repeatReminderMinutes
    timeSpentMinutes := normalizeTimeSpentMinutes task.timeSpentMinutes
    relativeStartOffset :=
      if truthy task.dueDate then
        preserveShallowIdentity task.relativeStartOffset (normalizeRelativeStartOffset task.relativeStartOffset)
      else none
    rev := if isValidRevision task.rev then task.rev else some (.num 0)
    revBy := (nonBlank task.revBy).map fun s => .str (trim s)
    pushCount :=
      if (asNum? task.pushCount).isSome ∨ truthy task.purgedAt then task.pushCount else some (.num 0) }

/-- A task in focus that was deferred to a later day leaves the focus. -/
def deferFutureFocus (task : Task) (nowIso : String) : Task :=
  let deferred := truthy task.isFocusedToday && isFutureStart task (dateParse nowIso)
  { task with
    isFocusedToday := if deferred then some (.bool false) else task.isFocusedToday
    focusOrder := if deferred then none else task.focusOrder }

def normalizeTaskForLoad (task : Task) (nowIso : String) : Task :=
  deferFutureFocus (normalizeTaskLifecycleFields (normalizeTaskFields task nowIso)) nowIso

end

end Mindwtr
