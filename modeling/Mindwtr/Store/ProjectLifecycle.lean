import Mindwtr.Entity.TaskLoad

/-!
# Archiving a project and taking it up again

`applyProjectLifecycleTransition` with its child helpers (`store-helpers.ts`) and the project rules of
`project-status.ts`. A project that is archived or cancelled completes or cancels its unfinished tasks and hides
its sections, and each child keeps what it was in its own marker fields. A project that is taken up again gives
back the children whose marker is intact. A patch is the fields of a project the transition reads, each `none`
where the patch does not name it.
-/

namespace Mindwtr.Store

open Mindwtr.Js Mindwtr.Sync

structure ProjectUpdates where
  status : Option (Option Json) := none
  cancelledAt : Option (Option Json) := none
  isFocused : Option (Option Json) := none
deriving DecidableEq, Repr

/-- `{ ...project, ...updates }`. -/
def spreadUpdates (project : Project) (updates : ProjectUpdates) : Project :=
  { project with
    status := updates.status.getD project.status
    cancelledAt := updates.cancelledAt.getD project.cancelledAt
    isFocused := updates.isFocused.getD project.isFocused }

def isArchived (project : Project) : Bool := project.status == some (.str "archived")

def isTaskActionable (task : Task) : Bool :=
  !isTaskFinished task.status && task.status != some (.str "reference")

/-! ### Tasks -/

def completeTaskForProjectArchive (task : Task) (archivedAt : String) (deviceId : Option String) : Task :=
  { task with
    status := some (.str "done")
    completedAt := some (.str archivedAt)
    cancelledAt := none
    isFocusedToday := some (.bool false)
    focusOrder := none
    statusBeforeProjectArchive := task.status
    completedAtBeforeProjectArchive := task.completedAt
    isFocusedTodayBeforeProjectArchive := task.isFocusedToday
    projectArchivedAt := some (.str archivedAt)
    updatedAt := some (.str archivedAt)
    rev := some (.num (nextRevision task.rev))
    revBy := deviceId.map .str }

/-- One child of a cancellation at `operationAt` of a project that was cancelled at `cancelledAt`. -/
def cancelTaskForProjectArchive (task : Task) (cancelledAt : Option Json) (deviceId : Option String)
    (operationAt : String) : Task :=
  { task with
    status := some (.str "archived")
    completedAt := none
    cancelledAt
    isFocusedToday := some (.bool false)
    focusOrder := none
    statusBeforeProjectArchive := task.status
    completedAtBeforeProjectArchive := task.completedAt
    isFocusedTodayBeforeProjectArchive := task.isFocusedToday
    projectArchivedAt := some (.str operationAt)
    updatedAt := some (.str operationAt)
    rev := some (.num (nextRevision task.rev))
    revBy := deviceId.map .str }

def clearTaskArchiveMarker (task : Task) : Task :=
  { task with
    statusBeforeProjectArchive := none
    completedAtBeforeProjectArchive := none
    isFocusedTodayBeforeProjectArchive := none
    projectArchivedAt := none }

/-! ### Sections -/

def archiveSectionForProjectArchive (sec : Section) (archivedAt : String) (deviceId : Option String) : Section :=
  { sec with
    deletedAt := some (.str archivedAt)
    deletedAtBeforeProjectArchive := sec.deletedAt
    projectArchivedAt := some (.str archivedAt)
    updatedAt := some (.str archivedAt)
    rev := some (.num (nextRevision sec.rev))
    revBy := deviceId.map .str }

def isRestorableProjectArchiveSection (sec : Section) : Bool :=
  truthy sec.projectArchivedAt && strictEq sec.updatedAt sec.projectArchivedAt &&
    strictEq sec.deletedAt sec.projectArchivedAt && isNullish sec.deletedAtBeforeProjectArchive

def restoreSectionFromProjectArchive (sec : Section) (restoredAt : String) (deviceId : Option String) : Section :=
  if isRestorableProjectArchiveSection sec then
    { sec with
      deletedAt := none
      deletedAtBeforeProjectArchive := none
      projectArchivedAt := none
      updatedAt := some (.str restoredAt)
      rev := some (.num (nextRevision sec.rev))
      revBy := deviceId.map .str }
  else sec

section
variable [Runtime]

/-! ### Projects -/

def isProjectCancelled (project : Project) : Bool :=
  isArchived project && (normalizeCancellationTimestamp project.cancelledAt).isSome

/-- A cancellation is kept on an archived project only, and no archived project is focused. -/
def normalizeProjectLifecycleFields (project : Project) : Project :=
  { project with
    cancelledAt := if isArchived project then normalizeCancellationTimestamp project.cancelledAt else none
    isFocused := if isArchived project then some (.bool false) else project.isFocused }

/-- A valid cancellation time without a status archives the project. -/
def normalizeCancellationUpdate (updates : ProjectUpdates) : ProjectUpdates :=
  match updates.cancelledAt with
  | none => updates
  | some value =>
    let cancelledAt := normalizeCancellationTimestamp value
    { updates with
      cancelledAt := some cancelledAt
      status :=
        if truthy cancelledAt && updates.status.isNone then some (some (.str "archived")) else updates.status }

def normalizeProjectUpdate (project : Project) (updates : ProjectUpdates) : ProjectUpdates :=
  let adjusted := normalizeCancellationUpdate updates
  let resolvedStatus := adjusted.status.getD project.status
  let leavesFocus := resolvedStatus == some (.str "archived") ||
    (adjusted.status.isSome && resolvedStatus != project.status && resolvedStatus != some (.str "active"))
  { adjusted with
    cancelledAt := if resolvedStatus = some (.str "archived") then adjusted.cancelledAt else some none
    isFocused := if leavesFocus then some (some (.bool false)) else adjusted.isFocused }

/-! ### What a task gets back -/

def wasCompletedByProject (task : Task) : Bool :=
  task.status == some (.str "done") && task.cancelledAt == none && strictEq task.completedAt task.projectArchivedAt

def wasCancelledByProject (task : Task) : Bool :=
  task.status == some (.str "archived") && (normalizeCancellationTimestamp task.cancelledAt).isSome &&
    task.completedAt == none

/-- The child is as the project operation left it. -/
def shouldRestore (task : Task) : Bool :=
  !truthy task.deletedAt && truthy task.statusBeforeProjectArchive &&
    !isTaskFinished task.statusBeforeProjectArchive && truthy task.projectArchivedAt &&
    strictEq task.updatedAt task.projectArchivedAt && (wasCompletedByProject task || wasCancelledByProject task)

def restoreTaskFromProjectArchive (task : Task) (restoredAt : String) (deviceId : Option String) : Task :=
  if shouldRestore task then
    { clearTaskArchiveMarker task with
      status := task.statusBeforeProjectArchive
      completedAt := coalesce task.completedAtBeforeProjectArchive none
      cancelledAt := none
      isFocusedToday := coalesce task.isFocusedTodayBeforeProjectArchive (some (.bool false))
      updatedAt := some (.str restoredAt)
      rev := some (.num (nextRevision task.rev))
      revBy := deviceId.map .str }
  else task

/-! ### The transition -/

/-- The project with the normalized patch. -/
def patchedProject (project : Project) (updates : ProjectUpdates) : Project :=
  normalizeProjectLifecycleFields (spreadUpdates project (normalizeProjectUpdate project updates))

def enteredArchive (project : Project) (updates : ProjectUpdates) : Bool :=
  !isArchived project && isArchived (patchedProject project updates)

def activatedCancellation (project : Project) (updates : ProjectUpdates) : Bool :=
  isProjectCancelled (patchedProject project updates) &&
    (!isProjectCancelled project || project.cancelledAt != (patchedProject project updates).cancelledAt)

def reactivated (project : Project) (updates : ProjectUpdates) : Bool :=
  isArchived project && !isArchived (patchedProject project updates)

structure ProjectLifecycleTransition where
  projectUpdates : ProjectUpdates
  tasks : List Task
  sections : List Section
deriving DecidableEq, Repr

def ownedBy (project : Project) (projectId : Option Json) : Bool := projectId == some (.str project.id)

/-- What an archived or cancelled project does to a task. -/
def archiveChildTask (project normalizedProject : Project) (now : String) (deviceId : Option String)
    (task : Task) : Task :=
  if !ownedBy project task.projectId || truthy task.deletedAt then task
  else if isProjectCancelled normalizedProject then
    if isTaskActionable task then cancelTaskForProjectArchive task normalizedProject.cancelledAt deviceId now
    else task
  else if !isTaskFinished task.status && task.status != some (.str "reference") then
    completeTaskForProjectArchive task now deviceId
  else task

def archiveChildSection (project : Project) (now : String) (deviceId : Option String) (sec : Section) : Section :=
  if ownedBy project sec.projectId && !truthy sec.deletedAt then archiveSectionForProjectArchive sec now deviceId
  else sec

def reactivateChildTask (project : Project) (now : String) (deviceId : Option String) (task : Task) : Task :=
  if ownedBy project task.projectId && truthy task.projectArchivedAt then
    restoreTaskFromProjectArchive task now deviceId
  else task

def reactivateChildSection (project : Project) (now : String) (deviceId : Option String) (sec : Section) :
    Section :=
  if ownedBy project sec.projectId && truthy sec.projectArchivedAt then
    restoreSectionFromProjectArchive sec now deviceId
  else sec

def applyProjectLifecycleTransition (project : Project) (updates : ProjectUpdates) (tasks : List Task)
    (sections : List Section) (now : String) (deviceId : Option String) : ProjectLifecycleTransition :=
  let projectUpdates := normalizeProjectUpdate project updates
  if enteredArchive project updates || activatedCancellation project updates then
    { projectUpdates
      tasks := tasks.map (archiveChildTask project (patchedProject project updates) now deviceId)
      sections :=
        if enteredArchive project updates then sections.map (archiveChildSection project now deviceId)
        else sections }
  else if reactivated project updates then
    { projectUpdates
      tasks := tasks.map (reactivateChildTask project now deviceId)
      sections := sections.map (reactivateChildSection project now deviceId) }
  else { projectUpdates, tasks, sections }

/-- The project the callers store with the patch of a transition. -/
def storedProject (project : Project) (projectUpdates : ProjectUpdates) (now : String)
    (deviceId : Option String) : Project :=
  normalizeProjectLifecycleFields { spreadUpdates project projectUpdates with
    updatedAt := some (.str now)
    rev := some (.num (nextRevision project.rev))
    revBy := deviceId.map .str }

end

end Mindwtr.Store
