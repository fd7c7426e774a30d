import Mindwtr.Entity.TaskLoad

/-!
# The containers of a task

`task-container-rules.ts`. A task stands in a project, in a section of it, in an area, or nowhere; a project and an
area are never held together. What a move asks for is resolved against the live containers of the document.
-/

namespace Mindwtr

open Mindwtr.Js Mindwtr.Sync

/-- The containers of a task. -/
structure TaskContainerAssignment where
  projectId : Option String
  sectionId : Option String
  areaId : Option String
deriving DecidableEq

/-- An id that is there and not empty. -/
def isSet (id : Option String) : Bool := id.any (· != "")

def normalizeOptionalContainerId (value : Option String) : Option String :=
  (value.filter fun id => !isBlank id).map trim

def validateExistingTaskProjectId (projectId : Option String) (allProjects : List Project) :
    Except String (Option String) :=
  match normalizeOptionalContainerId projectId with
  | none => .ok none
  | some id =>
    if allProjects.any fun project => project.id == id && !truthy project.deletedAt then .ok (some id)
    else .error "Project not found"

def validateExistingTaskAreaId (areaId : Option String) (allAreas : List Area) : Except String (Option String) :=
  match normalizeOptionalContainerId areaId with
  | none => .ok none
  | some id =>
    if allAreas.any fun area => area.id == id && !truthy area.deletedAt then .ok (some id)
    else .error "Area not found"

def resolveTaskContainerHierarchy (assignment : TaskContainerAssignment) (sectionProjectId : Option String) :
    TaskContainerAssignment :=
  let resolved : TaskContainerAssignment :=
    if !isSet assignment.sectionId then assignment
    else if !isSet sectionProjectId then { assignment with sectionId := none }
    else if !isSet assignment.projectId then { assignment with projectId := sectionProjectId, areaId := none }
    else if sectionProjectId != assignment.projectId then { assignment with sectionId := none }
    else assignment
  if isSet resolved.areaId && isSet resolved.projectId then { resolved with areaId := none } else resolved

def resolveTaskContainerAssignment (assignment : TaskContainerAssignment) (allProjects : List Project)
    (allSections : List Section) (allAreas : List Area) : Except String TaskContainerAssignment := do
  let projectId ← validateExistingTaskProjectId assignment.projectId allProjects
  match normalizeOptionalContainerId assignment.sectionId with
  | some sectionId =>
    match allSections.find? fun s => s.id == sectionId && !truthy s.deletedAt with
    | none => .error "Section not found"
    | some sec =>
      let owner := asStr? sec.projectId
      if !(allProjects.any fun project => some project.id == owner && !truthy project.deletedAt) then
        .error "Section not found"
      else if projectId.isSome && owner != projectId then .error "Section does not belong to project"
      else
        .ok (resolveTaskContainerHierarchy
          { projectId, sectionId := some sectionId, areaId := normalizeOptionalContainerId assignment.areaId } owner)
  | none =>
    match projectId with
    | some _ =>
      .ok (resolveTaskContainerHierarchy
        { projectId, sectionId := none, areaId := normalizeOptionalContainerId assignment.areaId } none)
    | none =>
      let areaId ← validateExistingTaskAreaId assignment.areaId allAreas
      .ok (resolveTaskContainerHierarchy { projectId := none, sectionId := none, areaId } none)

/-- What a move writes; `order` is `none` where the move leaves the order alone. -/
structure TaskContainerMovePatch extends TaskContainerAssignment where
  order : Option (Option Rat)

/-- The properties of an update, each with its value where it is an own one. -/
structure TaskContainerUpdates where
  projectId : Option (Option Json) := none
  sectionId : Option (Option Json) := none
  areaId : Option (Option Json) := none
  order : Option (Option Json) := none
  orderNum : Option (Option Json) := none

/-- `id ?? undefined`. -/
def definedId (id : Option Json) : Option Json := id.filter (· != .null)

/-- `reserveTaskContainerProjectOrder` for a patch that names a project and no order. -/
def reserveTaskContainerProjectOrder (task : Task) (updates : TaskContainerAssignment)
    (projectOrderReserver : String → Option Rat) : TaskContainerMovePatch :=
  match normalizeOptionalContainerId updates.projectId with
  | none => { updates with order := none }
  | some nextProjectId =>
    if definedId task.projectId = some (.str nextProjectId) then { updates with order := none }
    else { updates with order := (projectOrderReserver nextProjectId).map some }

def buildTaskContainerMovePatch (task : Task) (updates : TaskContainerUpdates) (allProjects : List Project)
    (allSections : List Section) (allAreas : List Area) (reserveProjectOrder : Bool)
    (projectOrderReserver : Option (String → Option Rat)) : Except String TaskContainerMovePatch := do
  let nextProjectId : Option Json :=
    updates.projectId.elim task.projectId fun projectId => (normalizeOptionalContainerId (asStr? projectId)).map .str
  let projectChanged := updates.projectId.isSome && definedId task.projectId != definedId nextProjectId
  let candidateSectionId := updates.sectionId.getD (if projectChanged then none else task.sectionId)
  let candidateAreaId := updates.areaId.getD (if projectChanged && truthy nextProjectId then none else task.areaId)
  let containerResolution ← resolveTaskContainerAssignment
    { projectId := asStr? nextProjectId, sectionId := asStr? candidateSectionId, areaId := asStr? candidateAreaId }
    allProjects allSections allAreas
  let resolvedProjectChanged := definedId task.projectId != containerResolution.projectId.map .str
  if resolvedProjectChanged && !isSet containerResolution.projectId then
    .ok { containerResolution with sectionId := none, order := some none }
  else if resolvedProjectChanged && reserveProjectOrder && updates.order.isNone && updates.orderNum.isNone then
    .ok (projectOrderReserver.elim { containerResolution with order := none }
      (reserveTaskContainerProjectOrder task containerResolution))
  else .ok { containerResolution with order := none }

/-- `{ ...task, ...assignment }`. -/
def withContainers (task : Task) (assignment : TaskContainerAssignment) : Task :=
  { task with
    projectId := assignment.projectId.map .str
    sectionId := assignment.sectionId.map .str
    areaId := assignment.areaId.map .str }

/-- `{ ...task, ...patch }`. -/
def withMovePatch (task : Task) (patch : TaskContainerMovePatch) : Task :=
  { withContainers task patch.toTaskContainerAssignment with
    order := patch.order.elim task.order fun order => order.map fun n => .num n
    orderNum := patch.order.elim task.orderNum fun order => order.map fun n => .num n }

end Mindwtr
