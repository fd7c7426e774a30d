import Mindwtr.Desktop.Arbitration
import Mindwtr.Import.CsvApply

/-!
# Container moves through the local API

`normalize_task_container_patch` of `local_api.rs`, which fills in what a patch of a task's containers implies, and the
live containers it looks them up in. A patch is a JSON object: a value that is there is `null` or not, and a `null`
removes the property when the patch is applied.
-/

namespace Mindwtr.Desktop

open Mindwtr.Js Mindwtr.Sync

def hasStringField (value : Option Json) : Bool := (asStr? value).any fun field => strTrim field != ""

def normalizeOptionalContainerId (value : Option Json) : Option String :=
  ((asStr? value).map strTrim).filter (· != "")

/-! ### What is live -/

def isLiveProject (project : Project) : Bool := !hasStringField project.deletedAt && !hasStringField project.purgedAt
def isLiveTask (task : Task) : Bool := !hasStringField task.deletedAt && !hasStringField task.purgedAt
def isLiveSection (sec : Section) : Bool := !hasStringField sec.deletedAt
def isLiveArea (area : Area) : Bool := !hasStringField area.deletedAt

structure LiveContainers where
  projectIds : List String
  sectionProjectIds : JsMap String
  areaIds : List String
  nextProjectOrders : JsMap Rat

/-- A section and its project, where that is live. -/
def liveSection? (projectIds : List String) (sec : Section) : Option (String × String) :=
  (asStr? sec.projectId).bind fun projectId =>
    if projectIds.contains projectId then some (sec.id, projectId) else none

/-- The order after that of a task is free in its project. -/
def raiseNextOrder (projectIds : List String) (orders : JsMap Rat) (task : Task) : JsMap Rat :=
  if !isLiveTask task then orders
  else
    match asStr? task.projectId with
    | none => orders
    | some projectId =>
      if !projectIds.contains projectId then orders
      else
        let next := ((asNum? task.order).or (asNum? task.orderNum)).getD (-1) + 1
        orders.set projectId ((orders.get? projectId).elim next fun existing => if existing < next then next else existing)

/-- An order that was reserved when only a part of the document was loaded. -/
def takeReserved (projectIds : List String) (orders : JsMap Rat) (reserved : String × Json) : JsMap Rat :=
  match asNum? (some reserved.2) with
  | none => orders
  | some next => if projectIds.contains reserved.1 then orders.set reserved.1 next else orders

/-- `LiveContainers::from_data`; `reserved` is the object under `TASK_MUTATION_PROJECT_NEXT_ORDERS_KEY`. -/
def LiveContainers.fromData (data : AppData) (reserved : List (String × Json)) : LiveContainers :=
  let projectIds := (data.projects.filter isLiveProject).map (·.id)
  let noOrders := JsMap.ofList (projectIds.map fun projectId => (projectId, (0 : Rat)))
  { projectIds
    sectionProjectIds := JsMap.ofList ((data.sections.filter isLiveSection).filterMap (liveSection? projectIds))
    areaIds := (data.areas.filter isLiveArea).map (·.id)
    nextProjectOrders := reserved.foldl (takeReserved projectIds) (data.tasks.foldl (raiseNextOrder projectIds) noOrders) }

/-! ### Resolving a move -/

def resolveTaskContainerHierarchy (assignment : TaskContainerAssignment) (sectionProjectId : Option String) :
    TaskContainerAssignment :=
  let resolved : TaskContainerAssignment :=
    if assignment.sectionId.isNone then assignment
    else if sectionProjectId.isNone then { assignment with sectionId := none }
    else if assignment.projectId.isNone then { assignment with projectId := sectionProjectId, areaId := none }
    else if sectionProjectId != assignment.projectId then { assignment with sectionId := none }
    else assignment
  if resolved.areaId.isSome && resolved.projectId.isSome then { resolved with areaId := none } else resolved

/-- The checks of `normalize_task_container_patch`, in their order. -/
def resolveLive (live : LiveContainers) (assignment : TaskContainerAssignment) : Except String TaskContainerAssignment :=
  let sectionProjectId := assignment.sectionId.bind live.sectionProjectIds.get?
  let resolved := resolveTaskContainerHierarchy assignment sectionProjectId
  if assignment.projectId.any fun id => !live.projectIds.contains id then
    .error "Invalid task projectId: Project not found"
  else if assignment.sectionId.isSome && sectionProjectId.isNone then
    .error "Invalid task sectionId: Section not found"
  else if assignment.projectId.isSome && sectionProjectId.isSome && assignment.projectId != sectionProjectId then
    .error "Invalid task sectionId: Section does not belong to project"
  else if resolved.projectId.isNone && resolved.areaId.any fun id => !live.areaIds.contains id then
    .error "Invalid task areaId: Area not found"
  else .ok resolved

/-- A patch over the containers and the order of a task; `none` where the patch does not name the property. -/
structure ContainerPatch where
  projectId : Option Json := none
  sectionId : Option Json := none
  areaId : Option Json := none
  order : Option Json := none
  orderNum : Option Json := none

namespace ContainerPatch

def namesContainer (patch : ContainerPatch) : Bool :=
  patch.projectId.isSome || patch.sectionId.isSome || patch.areaId.isSome

def namesOrder (patch : ContainerPatch) : Bool := patch.order.isSome || patch.orderNum.isSome

end ContainerPatch

section
variable (task : Task) (patch : ContainerPatch)

def requestedProjectId : Option String :=
  normalizeOptionalContainerId (if patch.projectId.isSome then patch.projectId else task.projectId)

def projectChanged : Bool := normalizeOptionalContainerId task.projectId != requestedProjectId task patch

def requestedContainers : TaskContainerAssignment where
  projectId := requestedProjectId task patch
  sectionId :=
    if patch.sectionId.isSome then normalizeOptionalContainerId patch.sectionId
    else if patch.projectId.isSome && projectChanged task patch then none
    else normalizeOptionalContainerId task.sectionId
  areaId :=
    if patch.areaId.isSome then normalizeOptionalContainerId patch.areaId
    else if patch.projectId.isSome && projectChanged task patch && (requestedProjectId task patch).isSome then none
    else normalizeOptionalContainerId task.areaId

def setPatchValue (value : Option String) : Option Json := some (value.elim .null .str)

def normalizeTaskContainerPatch (live : LiveContainers) : Except String ContainerPatch :=
  if !patch.namesContainer then .ok patch
  else
    (resolveLive live (requestedContainers task patch)).map fun resolved =>
      let patch' : ContainerPatch := { patch with
        projectId := setPatchValue resolved.projectId
        sectionId := setPatchValue resolved.sectionId
        areaId := setPatchValue resolved.areaId }
      if projectChanged task patch && resolved.projectId.isNone then
        { patch' with order := some .null, orderNum := some .null }
      else if projectChanged task patch && !patch.namesOrder then
        match resolved.projectId.bind live.nextProjectOrders.get? with
        | none => patch'
        | some order => { patch' with order := some (.num order), orderNum := some (.num order) }
      else patch'

/-- What applying a patch leaves of a property. -/
def patched (old update : Option Json) : Option Json :=
  match update with
  | none => old
  | some .null => none
  | some value => some value

def applyContainerPatch : Task :=
  { task with
    projectId := patched task.projectId patch.projectId
    sectionId := patched task.sectionId patch.sectionId
    areaId := patched task.areaId patch.areaId
    order := patched task.order patch.order
    orderNum := patched task.orderNum patch.orderNum }

end

/-! ### The same move in the core -/

/-- The patch as the updates of a task: each property it names is an own one. -/
def ContainerPatch.updates (patch : ContainerPatch) : TaskContainerUpdates where
  projectId := patch.projectId.map some
  sectionId := patch.sectionId.map some
  areaId := patch.areaId.map some
  order := patch.order.map some
  orderNum := patch.orderNum.map some

/-- `createProjectOrderReserver`, up to its first call. -/
def createProjectOrderReserver (tasks : List Task) (projectId : String) : Option Rat :=
  if projectId = "" then none else some (((Import.getProjectOrderIndex tasks).get? projectId).getD (-1) + 1)

/-- `{ ...task, ...updates, ...patch }`. -/
def spreadMove (task : Task) (updates : TaskContainerUpdates) (patch : TaskContainerMovePatch) : Task :=
  withMovePatch { task with
    order := updates.order.getD task.order
    orderNum := updates.orderNum.getD task.orderNum } patch

def moveInCore (data : AppData) (task : Task) (patch : ContainerPatch) : Except String Task :=
  (buildTaskContainerMovePatch task patch.updates data.projects data.sections data.areas true
    (some (createProjectOrderReserver data.tasks))).map (spreadMove task patch.updates)

def moveThroughLocalApi (data : AppData) (reserved : List (String × Json)) (task : Task) (patch : ContainerPatch) :
    Except String Task :=
  (normalizeTaskContainerPatch task patch (LiveContainers.fromData data reserved)).map (applyContainerPatch task)

end Mindwtr.Desktop
