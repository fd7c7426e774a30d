import Mindwtr.Entity.Projection
import Mindwtr.Lib.Workers

/-!
# Pushing tasks to a calendar

`calendar-push-run.ts`: the runs that keep one event for each task that has a date, with the store of sync
entries that name the events and the calendars that hold them. What the stores hold is kept apart by task:
its entry and the events made for it, by the id the calendar gave them. An id of the calendar names one event
for good, so it says which task its event was made for.

Any call may fail, an entry may or may not be written then, and the user may delete an event at any time.
-/

namespace Mindwtr.Calendar

open Mindwtr.Js Mindwtr.Sync Mindwtr.Store Mindwtr.Lib

structure CalendarSyncEntry where
  taskId : String
  calendarEventId : Nat
  calendarId : String
deriving DecidableEq, Repr

structure CalendarEvent (Details : Type) where
  calendarId : String
  details : Details
deriving DecidableEq

/-- What is stored about one task. -/
structure TaskStores (Details : Type) where
  entry : Option CalendarSyncEntry := none
  events : Nat → Option (CalendarEvent Details) := fun _ => none

def TaskStores.deleteEvents {Details : Type} (deleted : List Nat) (s : TaskStores Details) : TaskStores Details :=
  { s with events := fun i => if i ∈ deleted then none else s.events i }

/-! ### Ports -/

inductive PushCall where
  | createEvent (task : Task)
  | updateEvent (entry : CalendarSyncEntry) (task : Task)
  | deleteEvent (entry : CalendarSyncEntry)
  | getSyncEntry (taskId : String)
  | upsertSyncEntry (entry : CalendarSyncEntry)
  | deleteSyncEntry (taskId : String)

/-- An update answers with the id of the event, or `none` where the event is missing. -/
abbrev PushCall.Answer : PushCall → Type
  | .createEvent _ => Nat
  | .updateEvent _ _ => Option Nat
  | .getSyncEntry _ => Option CalendarSyncEntry
  | _ => Unit

inductive PushOutcome where
  | succeeds
  | fails
  /-- A write fails after it was made. -/
  | failsLate
deriving DecidableEq

structure PushChoice where
  outcome : PushOutcome
  /-- The id that the calendar gives a new event. -/
  eventId : Nat
  /-- The events that the user has deleted before the call. -/
  deleted : List Nat

/-- A write to the entries. -/
def writeEntry {Details : Type} (outcome : PushOutcome) (entry : Option CalendarSyncEntry) (s : TaskStores Details) :
    Except Unit Unit × TaskStores Details :=
  match outcome with
  | .succeeds => (.ok (), { s with entry })
  | .fails => (.error (), s)
  | .failsLate => (.error (), { s with entry })

/-- The calendars and the entries of a task, where `target` is the calendar that new events go to. The operations on
events have no effect where they fail; to delete an event that is missing is no failure. -/
def pushPort {Details : Type} (target : String) (details : Task → Details) (op : PushCall) (choice : PushChoice)
    (stores : TaskStores Details) : Except Unit op.Answer × TaskStores Details :=
  let s := stores.deleteEvents choice.deleted
  match op with
  | .createEvent task =>
    if choice.outcome ≠ .succeeds ∨ (s.events choice.eventId).isSome then (.error (), s)
    else (.ok choice.eventId,
      { s with events := Function.update s.events choice.eventId (some ⟨target, details task⟩) })
  | .updateEvent entry task =>
    if choice.outcome ≠ .succeeds then (.error (), s)
    else
      match s.events entry.calendarEventId with
      | none => (.ok none, s)
      | some event => (.ok (some entry.calendarEventId),
          { s with events := Function.update s.events entry.calendarEventId (some { event with details := details task }) })
  | .deleteEvent entry =>
    if choice.outcome ≠ .succeeds then (.error (), s)
    else (.ok (), s.deleteEvents [entry.calendarEventId])
  | .getSyncEntry _ => if choice.outcome ≠ .succeeds then (.error (), s) else (.ok s.entry, s)
  | .upsertSyncEntry entry => writeEntry choice.outcome (some entry) s
  | .deleteSyncEntry _ => writeEntry choice.outcome none s

/-! ### One task -/

abbrev Push := Attempt PushCall PushCall.Answer Unit

def await (op : PushCall) : Push op.Answer := Attempt.call op

def shouldRemoveCalendarPushTask (task : Task) : Bool :=
  (!truthy task.dueDate && !truthy task.startTime) || truthy task.deletedAt || !isTaskActionable task

def createCalendarEvent (target : String) (task : Task) : Push Unit := do
  let eventId ← await (.createEvent task)
  await (.upsertSyncEntry ⟨task.id, eventId, target⟩)

def removeCalendarEntry (entry : CalendarSyncEntry) : Push Unit := do
  await (.deleteEvent entry)
  await (.deleteSyncEntry entry.taskId)

def removeCalendarTask (getSyncEntry : String → Push (Option CalendarSyncEntry)) (taskId : String) : Push Unit := do
  match ← getSyncEntry taskId with
  | none => pure ()
  | some entry => removeCalendarEntry entry

/-- What is done about the entry that a task has. -/
def syncCalendarPushEntry (target : String) (task : Task) : Option CalendarSyncEntry → Push Unit
  | none => createCalendarEvent target task
  | some existing =>
    if existing.calendarId = target then do
      let update : Option Nat ← await (.updateEvent existing task)
      match update with
      | some eventId => await (.upsertSyncEntry ⟨task.id, eventId, target⟩)
      | none =>
        await (.deleteSyncEntry task.id)
        createCalendarEvent target task
    else do
      removeCalendarEntry existing
      createCalendarEvent target task

def syncCalendarPushTask (target : String) (getSyncEntry : String → Push (Option CalendarSyncEntry)) (task : Task) :
    Push Unit :=
  if shouldRemoveCalendarPushTask task then removeCalendarTask getSyncEntry task.id
  else do
    let existing ← getSyncEntry task.id
    syncCalendarPushEntry target task existing

/-! ### Runs -/

abbrev PushPool := WorkerPool String PushCall PushCall.Answer Unit (Except Unit Unit)

structure CalendarPushResult where
  total : Nat
  failed : Nat
  removed : Nat
  removedFailed : Nat
deriving DecidableEq, Repr

/-- What follows when the tasks of a run are synced. -/
inductive AfterSync where
  /-- A full run looks for entries of other tasks. -/
  | findStale (activeTaskIds : List String)
  | remove (removedIds : List String)

inductive PushPhase where
  /-- A full run reads all entries. -/
  | reading (calendarTasks : List Task)
  | syncing (total : Nat) (pool : PushPool) (next : AfterSync)
  /-- A full run reads all entries again. -/
  | reviewing (total failed : Nat) (activeTaskIds : List String)
  | removing (total failed removed : Nat) (pool : PushPool)

structure PushRun where
  target : String
  concurrency : Nat
  phase : PushPhase

structure PushSystem (Details : Type) where
  stores : String → TaskStores Details := fun _ => {}
  /-- The tasks that any run was about; no other task has an entry. -/
  known : List String := []
  run : Option PushRun := none
  /-- What the last run that came to its end returned. -/
  result : Option CalendarPushResult := none

/-- `Math.max(1, Math.floor(concurrency))` of `concurrency ?? 4`. -/
def workerCount (concurrency : Option Rat) : Nat := max 1 ((concurrency.getD 4).floor.toNat)

/-- `runLimitedSettled` of the runners of the items, each for the task with that id. -/
def runLimitedSettled (runners : List (String × Push Unit)) : PushPool :=
  { waiting := runners.map fun runner => (runner.1, runner.2.run) }

def syncPool (target : String) (getSyncEntry : String → Push (Option CalendarSyncEntry)) (tasks : List Task) : PushPool :=
  runLimitedSettled (tasks.map fun task => (task.id, syncCalendarPushTask target getSyncEntry task))

def removeTaskPool (removedIds : List String) : PushPool :=
  runLimitedSettled (removedIds.map fun taskId => (taskId, removeCalendarTask (fun id => await (.getSyncEntry id)) taskId))

def removeEntryPool (staleEntries : List CalendarSyncEntry) : PushPool :=
  runLimitedSettled (staleEntries.map fun entry => (entry.taskId, removeCalendarEntry entry))

/-- The pool that is at work. -/
def PushPhase.pool? : PushPhase → Option PushPool
  | .syncing _ pool _ | .removing _ _ _ pool => some pool
  | _ => none

/-- The results that are `rejected`. -/
def rejectedCount (pool : PushPool) : Nat := pool.results.countP fun result => !result.isOk

section
variable [LocalCalendar]

def expandCalendarTasks (tasks : List Task) (projectedAtIso : String) (clock : Int) : Except JsError (List Task) :=
  (tasks.mapM (expandCalendarRecurringTasks · projectedAtIso clock)).map List.flatten

/-- `set.add(id)`. -/
def addId (ids : List String) (id : String) : List String := if id ∈ ids then ids else ids ++ [id]

/-- One of the ids a partial run is about: the tasks to sync and the ids to remove so far. -/
def addPartialTarget (tasksById : String → Option Task) (projectedAtIso : String) (clock : Int)
    (found : List Task × List String) (taskId : String) : Except JsError (List Task × List String) :=
  let (targets, removedTaskIds) := found
  if isProjectedRecurringTaskId taskId then .ok (targets, addId removedTaskIds taskId)
  else
    match tasksById taskId with
    | none => .ok (targets, addId (addId removedTaskIds taskId) (getProjectedRecurringTaskId taskId))
    | some task => do
      let expandedTasks ← expandCalendarRecurringTasks task projectedAtIso clock
      let projectedTaskId := getProjectedRecurringTaskId task.id
      if expandedTasks.any (·.id = projectedTaskId) then return (targets ++ expandedTasks, removedTaskIds)
      else return (targets ++ expandedTasks, addId removedTaskIds projectedTaskId)

def partialTargets (taskIds : List String) (tasksById : String → Option Task) (projectedAtIso : String) (clock : Int) :
    Except JsError (List Task × List String) :=
  taskIds.foldlM (addPartialTarget tasksById projectedAtIso clock) ([], [])

inductive PushEvent where
  | startFull (tasks : List Task) (target : String) (nowIso : String) (clock : Int) (concurrency : Option Rat)
  | startPartial (taskIds : List String) (tasksById : String → Option Task) (target : String) (nowIso : String)
      (clock : Int) (concurrency : Option Rat)
  /-- `getAllSyncEntries` answers, or fails. -/
  | inventory (answers : Bool)
  | worker (e : WorkerEvent String PushChoice (List Nat))
  /-- All results of the workers are in. -/
  | settled
  /-- The user deletes events while no worker is about. -/
  | userDeletes (taskId : String) (deleted : List Nat)

variable {Details : Type} (details : Task → Details)

def allSyncEntries (known : List String) (stores : String → TaskStores Details) : List CalendarSyncEntry :=
  known.filterMap fun id => (stores id).entry

/-- The entry of a task in `new Map(entries.map(entry => [entry.taskId, entry]))`. -/
def entryOf (entries : List CalendarSyncEntry) (id : String) : Option CalendarSyncEntry := entries.find? (·.taskId = id)

def activeTaskIds (calendarTasks : List Task) : List String :=
  (calendarTasks.filter fun task => !shouldRemoveCalendarPushTask task).map (·.id)

def findStale (active : List String) (entries : List CalendarSyncEntry) : List CalendarSyncEntry :=
  entries.filter fun entry => entry.taskId ∉ active

def PushSystem.workers (s : PushSystem Details) (target : String) (concurrency : Nat) (pool : PushPool)
    (e : WorkerEvent String PushChoice (List Nat)) : Option ((String → TaskStores Details) × PushPool) :=
  WorkerPool.step concurrency (pushPort target details) TaskStores.deleteEvents (s.stores, pool) e

/-- The runs come one after the other. -/
def PushSystem.step (s : PushSystem Details) (e : PushEvent) : Option (PushSystem Details) :=
  match s.run, e with
  | none, .startFull tasks target nowIso clock concurrency =>
    match expandCalendarTasks tasks nowIso clock with
    | .error _ => some s
    | .ok calendarTasks =>
      some { s with
        known := (s.known ++ calendarTasks.map (·.id)).dedup
        run := some ⟨target, workerCount concurrency, .reading calendarTasks⟩ }
  | none, .startPartial taskIds tasksById target nowIso clock concurrency =>
    match partialTargets taskIds tasksById nowIso clock with
    | .error _ => some s
    | .ok (targets, removedIds) =>
      let pool := syncPool target (fun id => await (.getSyncEntry id)) targets
      some { s with
        known := (s.known ++ targets.map (·.id) ++ removedIds).dedup
        run := some ⟨target, workerCount concurrency, .syncing targets.length pool (.remove removedIds)⟩ }
  | some ⟨_, _, .reading _⟩, .inventory false => some { s with run := none }
  | some ⟨target, concurrency, .reading calendarTasks⟩, .inventory true =>
    let initialEntries := allSyncEntries s.known s.stores
    let pool := syncPool target (fun id => pure (entryOf initialEntries id)) calendarTasks
    let next := .findStale (activeTaskIds calendarTasks)
    some { s with run := some ⟨target, concurrency, .syncing calendarTasks.length pool next⟩ }
  | some ⟨target, concurrency, .syncing total pool next⟩, .worker e =>
    (s.workers details target concurrency pool e).map fun (stores, pool) =>
      { s with stores, run := some ⟨target, concurrency, .syncing total pool next⟩ }
  | some ⟨target, concurrency, .syncing total pool next⟩, .settled =>
    if !pool.IsOver then none
    else
      match next with
      | .findStale active => some { s with run := some ⟨target, concurrency, .reviewing total (rejectedCount pool) active⟩ }
      | .remove removedIds =>
        let phase := .removing total (rejectedCount pool) removedIds.length (removeTaskPool removedIds)
        some { s with run := some ⟨target, concurrency, phase⟩ }
  | some ⟨_, _, .reviewing _ _ _⟩, .inventory false => some { s with run := none }
  | some ⟨target, concurrency, .reviewing total failed active⟩, .inventory true =>
    let staleEntries := findStale active (allSyncEntries s.known s.stores)
    let phase := .removing total failed staleEntries.length (removeEntryPool staleEntries)
    some { s with run := some ⟨target, concurrency, phase⟩ }
  | some ⟨target, concurrency, .removing total failed removed pool⟩, .worker e =>
    (s.workers details target concurrency pool e).map fun (stores, pool) =>
      { s with stores, run := some ⟨target, concurrency, .removing total failed removed pool⟩ }
  | some ⟨_, _, .removing total failed removed pool⟩, .settled =>
    if !pool.IsOver then none
    else some { s with run := none, result := some ⟨total, failed, removed, rejectedCount pool⟩ }
  | some ⟨_, _, .syncing _ _ _⟩, .userDeletes _ _ | some ⟨_, _, .removing _ _ _ _⟩, .userDeletes _ _ => none
  | _, .userDeletes taskId deleted =>
    some { s with stores := Function.update s.stores taskId ((s.stores taskId).deleteEvents deleted) }
  | _, _ => none

end

end Mindwtr.Calendar
