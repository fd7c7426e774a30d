import Mindwtr.Cloud.DataValidation
import Mindwtr.Import.CsvApply
import Mindwtr.Store.TaskReactivation

/-!
# Completing a task over REST

`server.ts`: the actions `POST /v1/tasks/:id/complete` and `POST /v1/tasks/:id/archive`, and the patch
`PATCH /v1/tasks/:id`, each as what it does with the document it loaded. A patch is one whose keys are on the allowlist
of `validateEntityProps`. Both ways end in `finalizeCloudDataForWrite`, which repairs the references of the document
and refuses one that is not valid.
-/

namespace Mindwtr.Cloud

open Mindwtr.Js Mindwtr.Store Mindwtr.Sync

structure CloudRuntimeConfig where
  maxItemsPerCollection : Nat := 50000
  maxTaskTitleLength : Nat := 500
deriving DecidableEq, Repr

def cloudApiRevBy : String := "cloud"

/-- `normalizeRevision` of `server-config.ts`. -/
def normalizeRevision (value : Option Json) : Rat := (asNum? value).getD 0

/-- The stamp of a write over REST. -/
def stampUpdates (existing : Task) (updates : TaskUpdates) : TaskUpdates :=
  { updates with
    rev := some (some (.num (normalizeRevision existing.rev + 1)))
    revBy := some (some (.str cloudApiRevBy)) }

/-! ### The follow-up -/

def getNextProjectOrder (projectId : Option Json) (tasks : List Task) : Option Rat :=
  (nonEmptyString projectId).map fun projectId => ((Import.getProjectOrderIndex tasks).get? projectId).getD (-1) + 1

/-- The next occurrence takes the place of the one that was completed. -/
def stampRecurringFollowUp (task completedTask : Task) (existingTasks : List Task) : Task :=
  let order := (Import.getTaskOrder completedTask).or (getNextProjectOrder task.projectId existingTasks)
  { task with
    pushCount := some (.num 0)
    order := order.map .num
    orderNum := order.map .num }

/-- The tasks of the document with the next occurrence of a series. -/
def pushFollowUp (nextRecurringTask : Option Task) (completedTask : Task) (tasks : List Task) : List Task :=
  match nextRecurringTask with
  | some next => tasks ++ [stampRecurringFollowUp next completedTask tasks]
  | none => tasks

/-! ### Answers -/

/-- What a route answers: an error, or the document it wrote with the task it returns. -/
inductive RouteResult where
  | error (message : String) (status : Nat)
  | written (document : AppData) (task : Task)

def isLiveTask (taskId : String) (task : Task) : Bool := task.id == taskId && !truthy task.deletedAt

section
variable [Runtime]

def finalizeCloudDataForWrite (config : CloudRuntimeConfig) (data : AppData) (nowIso : String)
    (rejectInvalidBeforeRepair : Bool) : Except String AppData :=
  match if rejectInvalidBeforeRepair then validateAppData config.maxItemsPerCollection data else none with
  | some error => .error error
  | none =>
    let repaired := repairMergedSyncReferences data nowIso
    match validateAppData config.maxItemsPerCollection repaired with
    | some error => .error error
    | none => .ok repaired

/-- The end of a route that changed the task. -/
def finalizeTaskWrite (config : CloudRuntimeConfig) (data : AppData) (nowIso : String) (updatedTask : Task) :
    RouteResult :=
  match finalizeCloudDataForWrite config data nowIso true with
  | .error message => .error message 400
  | .ok finalized =>
    .written finalized ((finalized.tasks.find? fun item => item.id == updatedTask.id).getD updatedTask)

end

section
variable [LocalCalendar]

/-! ### The actions -/

inductive TaskAction where
  | complete | archive
deriving DecidableEq, Repr

def TaskAction.status : TaskAction → String
  | .complete => "done"
  | .archive => "archived"

def postTaskAction (config : CloudRuntimeConfig) (action : TaskAction) (taskId : String) (data : AppData)
    (nowIso : String) (clock : Int) (uuid : Nat → String) : Except JsError RouteResult :=
  match data.tasks.findIdx? (isLiveTask taskId), data.tasks.find? (isLiveTask taskId) with
  | some idx, some existing => do
    let updates := stampUpdates existing { status := some (some (.str action.status)) }
    let applied ← applyTaskUpdates existing updates nowIso clock uuid
    let tasks := pushFollowUp applied.nextRecurringTask existing (data.tasks.set idx applied.updatedTask)
    return finalizeTaskWrite config { data with tasks } nowIso applied.updatedTask
  | _, _ => .ok (.error "Task not found" 404)

/-! ### The patch -/

def isTaskCountedAsFocused (task : Task) : Bool :=
  !truthy task.deletedAt && isTrue task.isFocusedToday && !isTaskFinished task.status &&
    task.status != some (.str "reference")

def selectFocusedCount (tasks : List Task) : Nat := tasks.countP isTaskCountedAsFocused

/-- Lists and records count as `NaN`. -/
def normalizeFocusTaskLimit (value : Option Json) : Int :=
  let numeric : Option Rat :=
    match value with
    | some (.num n) => some n
    | some (.str s) => Runtime.toNumber s
    | some (.bool b) => some (if b then 1 else 0)
    | some .null => some 0
    | _ => none
  match numeric with
  | some n => min 10 (max 1 n.floor)
  | none => 3

/-- The title is too long, the status is none, or the star would be one too many. -/
def refusePatch (config : CloudRuntimeConfig) (updates normalizedUpdates : TaskUpdates) (existing : Task)
    (data : AppData) : Option RouteResult :=
  let focusTaskLimit := normalizeFocusTaskLimit (prop data.settings.gtd "focusTaskLimit")
  if (asStr? (updates.title.getD none)).any fun title => config.maxTaskTitleLength < (utf16 title).length then
    some (.error s!"Task title too long (max {config.maxTaskTitleLength} characters)" 400)
  else if (updates.status.getD none).isSome && !(asStr? (updates.status.getD none)).any taskStatusValues.contains then
    some (.error "Invalid task status" 400)
  else if normalizedUpdates.isFocusedToday.any isTrue && !isTrue existing.isFocusedToday &&
      decide (focusTaskLimit ≤ selectFocusedCount data.tasks) then
    some (.error s!"Focus limit of {focusTaskLimit} reached" 409)
  else none

/-- The document that `patchEntity` of the tasks leaves; every task with the id of the patched one becomes it. -/
def patchEntity (normalizedUpdates : TaskUpdates) (existing : Task) (data : AppData) (nowIso : String)
    (applied : AppliedUpdate) : AppData :=
  let tasks := pushFollowUp applied.nextRecurringTask existing data.tasks
  let transition := applyTaskProjectReactivationTransition [(existing, normalizedUpdates)]
    (tasks.map fun task => if task.id == existing.id then applied.updatedTask else task)
    data.projects data.sections nowIso (some cloudApiRevBy)
  { data with
    tasks := transition.tasks
    projects := transition.projects
    sections := transition.sections }

def patchTask (config : CloudRuntimeConfig) (updates : TaskUpdates) (taskId : String) (data : AppData)
    (nowIso : String) (clock : Int) (uuid : Nat → String) : Except JsError RouteResult :=
  match data.tasks.find? (isLiveTask taskId) with
  | none => .ok (.error "Task not found" 404)
  | some existing =>
    let normalizedUpdates := normalizeTaskUpdate existing updates {} clock
    match refusePatch config updates normalizedUpdates existing data with
    | some refusal => .ok refusal
    | none => do
      let applied ← applyTaskUpdates existing (stampUpdates existing normalizedUpdates) nowIso clock uuid
      return finalizeTaskWrite config (patchEntity normalizedUpdates existing data nowIso applied) nowIso
        applied.updatedTask

/-! ### The stored document -/

/-- The document of the namespace after the request; an error, thrown or answered, leaves what is stored. -/
def storedAfter (stored : AppData) : Except JsError RouteResult → AppData
  | .ok (.written document _) => document
  | _ => stored

end

end Mindwtr.Cloud
