import Mindwtr.Store.ContainerRules
import Mindwtr.Store.ProjectLifecycle
import Mindwtr.Sync.RemotePayload

/-!
# Repairing and checking references

`repairMergedSyncReferences` and `validateMergedSyncData` of `sync-normalization.ts` with `dedupeLiveAreasByName` of
`area-utils.ts`. After a merge the live areas of one name become one area, the sections of a deleted project are
deleted, and a project or a task loses what it refers to and is not there. The check names every reference that is left.
-/

namespace Mindwtr.Sync

open Mindwtr.Js Mindwtr.Store

section
variable [Runtime]

/-! ### Areas of one name -/

def normalizeAreaNameKey (name : Option Json) : String := (asStr? name).elim "" fun s => Runtime.toLowerCase (trim s)

def compareAreaDedupeWinner (left right : Area) : Int :=
  let createdAtCompare :=
    Runtime.localeCompare ((asStr? left.createdAt).getD "") ((asStr? right.createdAt).getD "")
  if createdAtCompare ≠ 0 then createdAtCompare else Runtime.localeCompare left.id right.id

/-- The area that holds a name so far, with one more area. -/
def claimAreaName (areaByName : JsMap Area) (area : Area) : JsMap Area :=
  let nameKey := normalizeAreaNameKey area.name
  if truthy area.deletedAt || nameKey == "" then areaByName
  else if (areaByName.get? nameKey).all fun existing => compareAreaDedupeWinner area existing < 0 then
    areaByName.set nameKey area
  else areaByName

/-- The other area that holds the name of a live one. -/
def canonicalArea (areaByName : JsMap Area) (area : Area) : Option Area :=
  let nameKey := normalizeAreaNameKey area.name
  if truthy area.deletedAt || nameKey == "" then none
  else (areaByName.get? nameKey).filter fun canonical => canonical.id != area.id

def areasByName (areas : List Area) : JsMap Area := areas.foldl claimAreaName .empty

def dedupeArea (areaByName : JsMap Area) (nowIso : String) (revBy : Option String) (area : Area) : Area :=
  if (canonicalArea areaByName area).isSome then
    { area with
      deletedAt := some (.str nowIso)
      updatedAt := some (.str nowIso)
      rev := some (.num (nextRevision area.rev))
      revBy := if isSet revBy then revBy.map .str else area.revBy }
  else area

/-- The areas and the area that replaces each of the merged ones. -/
def dedupeLiveAreasByName (areas : List Area) (nowIso : String) (revBy : Option String) : List Area × JsMap String :=
  (areas.map (dedupeArea (areasByName areas) nowIso revBy),
    JsMap.ofList (areas.filterMap fun area =>
      (canonicalArea (areasByName areas) area).map fun canonical => (area.id, canonical.id)))

/-! ### The repair -/

def withRepairRevision (m : SyncMeta) : SyncMeta :=
  { m with
    rev := some (.num (if m.revBy = some (.str syncRepairRevBy) then normalizeRevision m.rev else nextRevision m.rev))
    revBy := some (.str syncRepairRevBy) }

def isTaskSectionProjectArchiveReference (task : Task) (sec : Section) (project : Option Project) : Bool :=
  project.any fun project =>
    !truthy project.deletedAt && !truthy project.purgedAt && isArchived project &&
      truthy sec.projectArchivedAt && sec.deletedAt == sec.projectArchivedAt &&
      task.projectId == some (.str project.id) && sec.projectId == some (.str project.id) &&
      (isTaskFinished task.status || task.status == some (.str "reference"))

/-- What the repair looks references up in. -/
structure RepairIndex where
  areaIdRemap : JsMap String
  liveAreas : JsMap Area
  deletedAreaIds : List String
  liveProjectIds : List String
  deletedProjectIds : List String
  archivedProjects : JsMap Project
  purgedProjects : JsMap Project
  liveSections : JsMap Section
  archivedSections : JsMap Section

def repairProject (areaIdRemap : JsMap String) (liveAreas : JsMap Area) (nowIso : String) (project : Project) : Project :=
  let originalAreaId := nonBlank project.areaId
  let areaId := (originalAreaId.bind areaIdRemap.get?).or originalAreaId
  if !isSet areaId then
    { project with areaId := areaId.map .str, areaTitle := normalizeOptionalString project.areaTitle }
  else
    match areaId.bind liveAreas.get? with
    | some liveArea =>
      let areaTitle := normalizeOptionalString liveArea.name
      if areaId.map .str = project.areaId ∧ project.areaTitle = areaTitle then project
      else
        { project with
          toSyncMeta := { withRepairRevision project.toSyncMeta with updatedAt := some (.str nowIso) }
          areaId := areaId.map .str
          areaTitle }
    | none =>
      { project with
        toSyncMeta := { withRepairRevision project.toSyncMeta with updatedAt := some (.str nowIso) }
        areaId := none
        areaTitle := none }

def repairSection (liveProjectIds deletedProjectIds : List String) (purgedProjects : JsMap Project) (nowIso : String)
    (sec : Section) : Section :=
  let projectId := asStr? sec.projectId
  if projectId.any liveProjectIds.contains || !projectId.any deletedProjectIds.contains then sec
  else if truthy sec.deletedAt then
    match projectId.bind purgedProjects.get? with
    | some purgedProject => (compactSectionsForPurgedProjects [sec] [purgedProject] true).headD sec
    | none => sec
  else
    { sec with
      toSyncMeta := { withRepairRevision sec.toSyncMeta with
        deletedAt := some (.str nowIso)
        updatedAt := some (.str nowIso) } }

def repairTask (index : RepairIndex) (nowIso : String) (task : Task) : Task :=
  let originalProjectId := nonBlank task.projectId
  let originalSectionId := nonBlank task.sectionId
  let originalAreaId := nonBlank task.areaId
  let remappedAreaId := originalAreaId.map fun areaId => (index.areaIdRemap.get? areaId).getD areaId
  let projectDeleted := originalProjectId.any index.deletedProjectIds.contains
  let projectMissing := originalProjectId.any fun projectId => !index.liveProjectIds.contains projectId
  let nextProjectId := if projectDeleted || projectMissing then none else originalProjectId
  let nextSectionId := if projectDeleted then none else originalSectionId
  let areaGone := isSet remappedAreaId && remappedAreaId.any fun areaId =>
    index.deletedAreaIds.contains areaId || (index.liveAreas.get? areaId).isNone
  let nextAreaId := if areaGone then none else remappedAreaId
  let liveSection := nextSectionId.bind index.liveSections.get?
  let archivedSection := if liveSection.isSome then none else nextSectionId.bind index.archivedSections.get?
  let sectionProjectId := (liveSection.bind fun sec => asStr? sec.projectId).or (archivedSection.bind fun sec =>
    if isTaskSectionProjectArchiveReference task sec (nextProjectId.bind index.archivedProjects.get?) then
      asStr? sec.projectId
    else none)
  let next : TaskContainerAssignment := { projectId := nextProjectId, sectionId := nextSectionId, areaId := nextAreaId }
  let resolvedContainer := resolveTaskContainerHierarchy next sectionProjectId
  if remappedAreaId = originalAreaId ∧ projectDeleted = false ∧ projectMissing = false ∧ areaGone = false ∧
      resolvedContainer = next then task
  else
    let leavesProject := originalProjectId.isSome && !isSet resolvedContainer.projectId
    { withContainers task resolvedContainer with
      toSyncMeta := { withRepairRevision task.toSyncMeta with updatedAt := some (.str nowIso) }
      order := if leavesProject then none else task.order
      orderNum := if leavesProject then none else task.orderNum }

def repairSettings (areaIdRemap : JsMap String) (nowIso : String) (settings : DocumentSettings) : DocumentSettings :=
  let configuredDefaultAreaId := asStr? (prop settings.gtd "defaultAreaId")
  let remappedDefaultAreaId := configuredDefaultAreaId.bind areaIdRemap.get?
  if isSet remappedDefaultAreaId ∧ remappedDefaultAreaId ≠ configuredDefaultAreaId then
    { settings with
      gtd := some (.obj (setProp "defaultAreaId" (remappedDefaultAreaId.map .str) (recordOf settings.gtd)))
      syncPreferencesUpdatedAt :=
        some (.obj (setProp "gtd" (some (.str nowIso)) (recordOf settings.syncPreferencesUpdatedAt))) }
  else settings

def repairIndex (data : AppData) (nowIso : String) : RepairIndex :=
  let (areas, areaIdRemap) := dedupeLiveAreasByName data.areas nowIso (some syncRepairRevBy)
  let liveAreas := JsMap.ofItems (fun area : Area => area.id) (areas.filter fun area => !truthy area.deletedAt)
  let projects := data.projects.map (repairProject areaIdRemap liveAreas nowIso)
  let liveProjects := projects.filter fun project => !truthy project.deletedAt
  let liveProjectIds := liveProjects.map (·.id)
  let deletedProjectIds := (projects.filter fun project => truthy project.deletedAt).map (·.id)
  let archivedProjects := JsMap.ofItems (fun project : Project => project.id) (liveProjects.filter isArchived)
  let purgedProjects :=
    JsMap.ofItems (fun project : Project => project.id) (projects.filter fun project => truthy project.purgedAt)
  let sections := data.sections.map (repairSection liveProjectIds deletedProjectIds purgedProjects nowIso)
  { areaIdRemap, liveAreas, liveProjectIds, deletedProjectIds, archivedProjects, purgedProjects
    deletedAreaIds := (areas.filter fun area => truthy area.deletedAt).map (·.id)
    liveSections := JsMap.ofItems (fun sec : Section => sec.id) (sections.filter fun sec =>
      !truthy sec.deletedAt && (asStr? sec.projectId).any liveProjectIds.contains)
    archivedSections := JsMap.ofItems (fun sec : Section => sec.id) (sections.filter fun sec =>
      truthy sec.deletedAt && ((asStr? sec.projectId).bind archivedProjects.get?).isSome) }

def repairMergedSyncReferences (data : AppData) (nowIso : String) : AppData :=
  let index := repairIndex data nowIso
  { data with
    areas := (dedupeLiveAreasByName data.areas nowIso (some syncRepairRevBy)).1
    tasks := data.tasks.map (repairTask index nowIso)
    projects := data.projects.map (repairProject index.areaIdRemap index.liveAreas nowIso)
    sections := data.sections.map
      (repairSection index.liveProjectIds index.deletedProjectIds index.purgedProjects nowIso)
    settings := repairSettings index.areaIdRemap nowIso data.settings }

/-! ### The check -/

def isValidTimestampValue (value : Option Json) : Bool := ((asStr? value).bind dateParse).isSome

def validateRevisionFields (m : SyncMeta) (label : String) (index : Nat) : List String :=
  (if m.rev.isSome && !isValidRevision m.rev then
    [s!"{label}[{index}].rev must be a non-negative integer when present"] else []) ++
  (if m.revBy.isSome && !hasNonEmptyValue m.revBy then
    [s!"{label}[{index}].revBy must be a non-empty string when present"] else [])

/-- The last edit is not before the creation. -/
def validateTimestampOrder (m : SyncMeta) (label : String) (index : Nat) : List String :=
  let createdMs := (asStr? m.createdAt).bind dateParse
  let updatedMs := (asStr? m.updatedAt).bind dateParse
  if createdMs.any fun created => updatedMs.any fun updated => updated < created then
    [s!"{label}[{index}].updatedAt must be greater than or equal to createdAt"]
  else []

def validateUpdatedAt (m : SyncMeta) (label : String) (index : Nat) : List String :=
  if !hasNonEmptyValue m.updatedAt then [s!"{label}[{index}].updatedAt must be a non-empty string"]
  else if !isValidTimestampValue m.updatedAt then [s!"{label}[{index}].updatedAt must be a valid ISO timestamp"]
  else []

def validateEntityShape (label : String) (index : Nat) (m : SyncMeta) : List String :=
  (if isBlank m.id then [s!"{label}[{index}].id must be a non-empty string"] else []) ++
  (if m.createdAt.isSome && !hasNonEmptyValue m.createdAt then
    [s!"{label}[{index}].createdAt must be a non-empty string when present"]
  else if hasNonEmptyValue m.createdAt && !isValidTimestampValue m.createdAt then
    [s!"{label}[{index}].createdAt must be a valid ISO timestamp when present"]
  else []) ++
  validateUpdatedAt m label index ++ validateTimestampOrder m label index ++ validateRevisionFields m label index

/-- An area or a person, which has a name and a creation time. -/
def validateNamedShape (label : String) (index : Nat) (m : SyncMeta) (name : Option Json) : List String :=
  (if isBlank m.id then [s!"{label}[{index}].id must be a non-empty string"] else []) ++
  (if !hasNonEmptyValue name then [s!"{label}[{index}].name must be a non-empty string"] else []) ++
  (if !hasNonEmptyValue m.createdAt then [s!"{label}[{index}].createdAt must be a non-empty string"]
  else if !isValidTimestampValue m.createdAt then [s!"{label}[{index}].createdAt must be a valid ISO timestamp"]
  else []) ++
  validateUpdatedAt m label index ++ validateTimestampOrder m label index ++ validateRevisionFields m label index

/-- What the check looks references up in. -/
structure ReferenceIndex where
  allAreaIds : List String
  liveAreaIds : List String
  allProjectIds : List String
  liveProjectIds : List String
  deletedProjectIds : List String
  archivedProjects : JsMap Project
  liveSections : JsMap Section
  deletedSectionIds : List String
  archivedSections : JsMap Section
  allSectionIds : List String

def referenceIndex (data : AppData) : ReferenceIndex :=
  let areas := data.areas.filter fun area => !isBlank area.id
  let projects := data.projects.filter fun project => !isBlank project.id
  let liveProjects := projects.filter fun project => !hasNonEmptyValue project.deletedAt
  let deletedSections := data.sections.filter fun sec => hasNonEmptyValue sec.deletedAt
  { allAreaIds := areas.map (·.id)
    liveAreaIds := (areas.filter fun area => !hasNonEmptyValue area.deletedAt).map (·.id)
    allProjectIds := projects.map (·.id)
    liveProjectIds := liveProjects.map (·.id)
    deletedProjectIds := (data.projects.filter fun project => hasNonEmptyValue project.deletedAt).map (·.id)
    archivedProjects := JsMap.ofItems (fun project : Project => project.id) (liveProjects.filter isArchived)
    liveSections := JsMap.ofItems (fun sec : Section => sec.id)
      (data.sections.filter fun sec => !hasNonEmptyValue sec.deletedAt)
    deletedSectionIds := deletedSections.map (·.id)
    archivedSections := JsMap.ofItems (fun sec : Section => sec.id) deletedSections
    allSectionIds := (data.sections.filter fun sec => !isBlank sec.id).map (·.id) }

def projectReferenceErrors (x : ReferenceIndex) (index : Nat) (project : Project) : List String :=
  let areaId := nonBlank project.areaId
  if !areaId.all x.allAreaIds.contains then [s!"projects[{index}].areaId must reference an existing area"]
  else if hasNonEmptyValue project.deletedAt then []
  else if !areaId.all x.liveAreaIds.contains then [s!"projects[{index}].areaId must not reference a deleted area"]
  else []

def sectionReferenceErrors (x : ReferenceIndex) (index : Nat) (sec : Section) : List String :=
  if !(nonBlank sec.projectId).all x.allProjectIds.contains then
    [s!"sections[{index}].projectId must reference an existing project"]
  else if hasNonEmptyValue sec.deletedAt then []
  else if x.deletedProjectIds.contains ((sec.projectId.map toStr).getD "undefined") then
    [s!"sections[{index}].projectId must not reference a deleted project"]
  else []

/-- The section of a task that is not deleted. -/
def taskSectionErrors (x : ReferenceIndex) (index : Nat) (task : Task) (sectionId : String) : List String :=
  let projectId := nonBlank task.projectId
  if x.deletedSectionIds.contains sectionId then
    if (x.archivedSections.get? sectionId).any fun sec =>
        isTaskSectionProjectArchiveReference task sec (projectId.bind x.archivedProjects.get?) then []
    else [s!"tasks[{index}].sectionId must not reference a deleted section"]
  else
    match x.liveSections.get? sectionId with
    | none => []
    | some sec =>
      match projectId with
      | none => [s!"tasks[{index}].projectId is required when sectionId is present"]
      | some projectId =>
        if (sec.projectId.map toStr).getD "undefined" ≠ projectId then
          [s!"tasks[{index}].sectionId must belong to the same projectId"]
        else []

def taskReferenceErrors (x : ReferenceIndex) (index : Nat) (task : Task) : List String :=
  let projectId := nonBlank task.projectId
  let areaId := nonBlank task.areaId
  let sectionId := nonBlank task.sectionId
  let taskProjectExists := projectId.all x.allProjectIds.contains
  let taskAreaExists := areaId.all x.allAreaIds.contains
  (if !taskProjectExists then [s!"tasks[{index}].projectId must reference an existing project"] else []) ++
  (if !taskAreaExists then [s!"tasks[{index}].areaId must reference an existing area"] else []) ++
  if !sectionId.all x.allSectionIds.contains then [s!"tasks[{index}].sectionId must reference an existing section"]
  else if hasNonEmptyValue task.deletedAt then []
  else
    (if taskProjectExists && !projectId.all x.liveProjectIds.contains then
      [s!"tasks[{index}].projectId must not reference a deleted project"] else []) ++
    (if taskAreaExists && !areaId.all x.liveAreaIds.contains then
      [s!"tasks[{index}].areaId must not reference a deleted area"] else []) ++
    sectionId.elim [] (taskSectionErrors x index task)

/-- The errors of every item of a list. -/
def indexedErrors {α : Type} (check : Nat → α → List String) (items : List α) : List String :=
  (items.mapIdx check).flatten

def validateMergedSyncData (data : AppData) : List String :=
  let x := referenceIndex data
  indexedErrors (fun i (task : Task) => validateEntityShape "tasks" i task.toSyncMeta) data.tasks ++
  indexedErrors (fun i (project : Project) => validateEntityShape "projects" i project.toSyncMeta) data.projects ++
  indexedErrors (fun i (sec : Section) => validateEntityShape "sections" i sec.toSyncMeta) data.sections ++
  indexedErrors (fun i (area : Area) => validateNamedShape "areas" i area.toSyncMeta area.name) data.areas ++
  indexedErrors (fun i (person : Person) => validateNamedShape "people" i person.toSyncMeta person.name)
    (data.people.getD []) ++
  indexedErrors (projectReferenceErrors x) data.projects ++ indexedErrors (sectionReferenceErrors x) data.sections ++
  indexedErrors (taskReferenceErrors x) data.tasks

end

end Mindwtr.Sync
