import Mindwtr.Store.ProjectLifecycle
import Mindwtr.Store.TaskUpdate

/-!
# A reopened task reopens its project

`applyTaskProjectReactivationTransition` of `store-helpers.ts`. A patch that makes a task of an archived project
actionable again takes the project up: its sections come back, and its other tasks lose their marker, so that they
stay as the archive left them.
-/

namespace Mindwtr.Store

open Mindwtr.Js Mindwtr.Sync

def hasTaskProjectArchiveMetadata (task : Task) : Bool :=
  task.projectArchivedAt.isSome || task.statusBeforeProjectArchive.isSome ||
    task.completedAtBeforeProjectArchive.isSome || task.isFocusedTodayBeforeProjectArchive.isSome

/-- The patch asks for a status in which the task has something to be done. -/
def requestsActionable (updates : TaskUpdates) : Bool :=
  updates.status.any fun requestedStatus =>
    truthy requestedStatus && !isTaskFinished requestedStatus && requestedStatus != some (.str "reference")

section
variable [Runtime]

def retireTaskProjectArchiveMetadata (task : Task) (retiredAt : String) (deviceId : Option String) : Task :=
  if hasTaskProjectArchiveMetadata task then
    { clearTaskArchiveMarker task with
      updatedAt := some (.str retiredAt)
      rev := some (.num (nextRevision task.rev))
      revBy := deviceId.map .str }
  else task

/-- The project a task is in after the patch. -/
def finalProjectId (task : Task) (updates : TaskUpdates) : Option String :=
  match updates.projectId with
  | some projectId => (nonBlank projectId).map trim
  | none => nonEmptyString task.projectId

def findTaskProjectReactivationTarget (task : Task) (updates : TaskUpdates) (projects : List Project) :
    Option Project :=
  if !requestsActionable updates || truthy (updates.deletedAt.getD task.deletedAt) ||
      truthy (updates.purgedAt.getD task.purgedAt) then none
  else
    (finalProjectId task updates).bind fun finalProjectId => projects.find? fun project =>
      project.id == finalProjectId && isArchived project && !truthy project.deletedAt && !truthy project.purgedAt

structure ReactivationTransition where
  tasks : List Task
  projects : List Project
  sections : List Section
  reactivatedProjectIds : List String

def reactivateProject (project : Project) (now : String) (deviceId : Option String) : Project :=
  { patchedProject project { status := some (some (.str "active")) } with
    updatedAt := some (.str now)
    rev := some (.num (nextRevision project.rev))
    revBy := deviceId.map .str }

def applyTaskProjectReactivationTransition (requests : List (Task × TaskUpdates)) (tasks : List Task)
    (projects : List Project) (sections : List Section) (now : String) (deviceId : Option String) :
    ReactivationTransition :=
  let target (request : Task × TaskUpdates) := findTaskProjectReactivationTarget request.1 request.2 projects
  let reactivatedProjectIds := (requests.filterMap fun request => (target request).map (·.id)).eraseDups
  let reopenedTaskIds := (requests.filter fun request => (target request).isSome).map (·.1.id)
  let isReactivated (projectId : Option Json) := (nonEmptyString projectId).any reactivatedProjectIds.contains
  if reactivatedProjectIds.isEmpty then { tasks, projects, sections, reactivatedProjectIds }
  else
    { tasks := tasks.map fun task =>
        if isReactivated task.projectId && !reopenedTaskIds.contains task.id then
          retireTaskProjectArchiveMetadata task now deviceId
        else task
      projects := projects.map fun project =>
        if reactivatedProjectIds.contains project.id then reactivateProject project now deviceId else project
      sections := sections.map fun sec =>
        if isReactivated sec.projectId then restoreSectionFromProjectArchive sec now deviceId else sec
      reactivatedProjectIds }

/-- A patch that does not make the task actionable reopens nothing. -/
theorem applyTaskProjectReactivationTransition_of_not_actionable {task : Task} {updates : TaskUpdates}
    (h : requestsActionable updates = false) (tasks : List Task) (projects : List Project) (sections : List Section)
    (now : String) (deviceId : Option String) :
    applyTaskProjectReactivationTransition [(task, updates)] tasks projects sections now deviceId =
      { tasks, projects, sections, reactivatedProjectIds := [] } := by
  have htarget : findTaskProjectReactivationTarget task updates projects = none := by
    rw [findTaskProjectReactivationTarget, h]
    simp
  simp [applyTaskProjectReactivationTransition, htarget]

end

end Mindwtr.Store
