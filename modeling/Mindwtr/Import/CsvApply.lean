import Mindwtr.Import.Apply
import Mindwtr.Store.ContainerRules

/-!
# Applying a CSV import

`applyMindwtrCsvImport` of `mindwtr-csv-import.ts` with `task-container-rules.ts`. A row is identified by its ID column
where that names a task of the document, else by the ids that this importer and its predecessors derived. A task that
an import left in the wrong container and that nobody has edited since is moved instead of imported again.
-/

namespace Mindwtr.Import

open Mindwtr.Js Mindwtr.Sync

def mindwtrCsvAreaFallback : String := "Mindwtr CSV Area"
def mindwtrCsvProjectFallback : String := "Mindwtr CSV Import"
def mindwtrCsvImportSuffix : String := " (Mindwtr CSV)"

/-! ### Moving a task -/

/-- `getTaskOrder` of `store-helpers.ts`. -/
def getTaskOrder (task : Task) : Option Rat := (asNum? task.order).or (asNum? task.orderNum)

/-- `getProjectOrderIndex` of `store-helpers.ts`: the highest order in each project. -/
def getProjectOrderIndex (tasks : List Task) : JsMap Rat :=
  tasks.foldl (fun index task =>
    match if truthy task.deletedAt then none else idOf task.projectId with
    | none => index
    | some projectId =>
      let order := (getTaskOrder task).getD (-1)
      if (index.get? projectId).getD (-1) < order then index.set projectId order else index) .empty

/-- `buildTaskContainerMovePatch` for updates that name all three containers, with the orders reserved so far. -/
def buildTaskContainerMovePatch (task : Task) (updates : TaskContainerAssignment) (allProjects : List Project)
    (allSections : List Section) (allAreas : List Area) (reserved : JsMap Rat) :
    Except String (TaskContainerMovePatch × JsMap Rat) := do
  let nextProjectId := normalizeOptionalContainerId updates.projectId
  let resolution ← resolveTaskContainerAssignment { updates with projectId := nextProjectId } allProjects allSections
    allAreas
  if asStr? task.projectId = resolution.projectId then .ok ({ resolution with order := none }, reserved)
  else
    match resolution.projectId with
    | none => .ok ({ resolution with sectionId := none, order := some none }, reserved)
    | some projectId =>
      let nextOrder := (reserved.get? projectId).getD (-1) + 1
      .ok ({ resolution with order := some (some nextOrder) }, reserved.set projectId nextOrder)

section
variable [LocalCalendar]

/-! ### The keys of earlier importers -/

def colonProjectSourceKeyFor (areaSourceKey : Option String) (projectName : String) : String :=
  (areaSourceKey.map fun key => key ++ ":").getD "" ++ normalizeSourceKey projectName

/-- `/(?:^|:)row-\d+$/u`. -/
def couldBeLegacyRowFallback (sourceId : String) : Bool :=
  let last := (sourceId.toList.splitOn ':').getLastD []
  last.take 4 == "row-".toList && !(last.drop 4).isEmpty && (last.drop 4).all Char.isDigit

variable (data : AppData) (parsed : ParsedMindwtrCsvImportData)

def currentTask (id : String) : Option Task := (JsMap.ofItems (fun t : Task => t.id) data.tasks).get? id

def parsedProject (key : Option String) : Option ParsedMindwtrCsvProject :=
  key.bind (JsMap.ofItems (fun p : ParsedMindwtrCsvProject => p.sourceKey) parsed.projects).get?

/-- Projects of an area used to have the key of their name alone. -/
def legacyProjectSourceKey (key : String) : Option String :=
  ((JsMap.ofItems (fun p : ParsedMindwtrCsvProject => p.sourceKey)
    (parsed.projects.filter (·.areaSourceKey.isSome))).get? key).map fun project => normalizeSourceKey project.name

def legacySectionSourceKey (sec : ParsedMindwtrCsvSection) : Option String :=
  (legacyProjectSourceKey parsed sec.projectSourceKey).map fun key => key ++ ":" ++ normalizeSourceKey sec.name

def taskSourceKeyFor (task : ParsedMindwtrCsvTask) : String :=
  match parsedProject parsed task.projectSourceKey with
  | none => if task.sourceKey = "" then encodeSourceKeyTuple [task.sourceId] else task.sourceKey
  | some project =>
    if project.sourceKey = projectSourceKeyFor project.areaSourceKey project.name then
      if task.sourceKey = "" then encodeSourceKeyTuple [task.sourceId] else task.sourceKey
    else (task.projectSourceKey.getD "") ++ ":" ++ task.sourceId

def tasksForImport : List ParsedMindwtrCsvTask :=
  parsed.tasks.map fun task => { task with sourceKey := taskSourceKeyFor parsed task }

def legacyTaskSourceKey (task : ParsedMindwtrCsvTask) : Option String :=
  (JsMap.ofList ((tasksForImport parsed).filterMap fun task =>
    (task.projectSourceKey.bind (legacyProjectSourceKey parsed)).map fun key =>
      (task.sourceKey, key ++ ":" ++ task.sourceId))).get? task.sourceKey

/-! ### The ids of the containers -/

def areaImportId (key : String) : String := createMindwtrCsvImportId .area key

def resolveProjectId (project : ParsedMindwtrCsvProject) : String :=
  let scopedId := createMindwtrCsvImportId .project project.sourceKey
  let expectedAreaId := project.areaSourceKey.map areaImportId
  let owned (id : String) : Bool :=
    (existingProject data id).any fun p => projectAreaId p == expectedAreaId
  let colonSourceKey := colonProjectSourceKeyFor project.areaSourceKey project.name
  let colonId := createMindwtrCsvImportId .project colonSourceKey
  if (existingProject data scopedId).isSome then scopedId
  else if colonSourceKey ≠ project.sourceKey ∧ owned colonId then colonId
  else
    match (legacyProjectSourceKey parsed project.sourceKey).map (createMindwtrCsvImportId .project) with
    | some legacyId => if owned legacyId then legacyId else scopedId
    | none => scopedId

def resolvedProjectIds : JsMap String :=
  .ofList (parsed.projects.map fun project => (project.sourceKey, resolveProjectId data parsed project))

def resolveSectionId (sec : ParsedMindwtrCsvSection) : String :=
  let scopedId := createMindwtrCsvImportId .sec sec.sourceKey
  let expectedProjectId := (resolvedProjectIds data parsed).get? sec.projectSourceKey
  let owned (id : String) : Bool :=
    (existingSection data id).any fun s => asStr? s.projectId == expectedProjectId
  let colonProjectSourceKey :=
    match parsedProject parsed (some sec.projectSourceKey) with
    | some project => colonProjectSourceKeyFor project.areaSourceKey project.name
    | none => sec.projectSourceKey
  let colonSourceKey := colonProjectSourceKey ++ ":" ++ normalizeSourceKey sec.name
  let colonId := createMindwtrCsvImportId .sec colonSourceKey
  if (existingSection data scopedId).isSome then scopedId
  else if colonSourceKey ≠ sec.sourceKey ∧ owned colonId then colonId
  else
    match (legacySectionSourceKey parsed sec).map (createMindwtrCsvImportId .sec) with
    | some legacyId => if owned legacyId then legacyId else scopedId
    | none => scopedId

def resolvedSectionIds : JsMap String :=
  .ofList (parsed.sections.map fun sec => (sec.sourceKey, resolveSectionId data parsed sec))

/-! ### The ids of the tasks -/

inductive TaskVerdict where
  /-- The row is imported, which skips it where its task exists. -/
  | imported
  | migrated (container : TaskContainerAssignment)
  | edited
  | ambiguous

structure TaskResolution where
  id : String
  verdict : TaskVerdict

def historicalTaskCandidatesFor (sourceKeys : List String) : List Task :=
  ((sourceKeys.filter (· ≠ "")).map (createMindwtrCsvImportId .task)).eraseDups.filterMap (currentTask data)

def hasUntouchedImporterProvenance (task : Task) : Bool :=
  task.rev == some (.num 1) && truthy task.createdAt && task.createdAt == task.updatedAt

def currentProjectTaskScopes (sourceId : String) : List String :=
  data.projects.flatMap fun project =>
    let areaSourceKey := ((idOf project.areaId).bind (existingArea data)).map fun a => normalizeSourceKey (text a.name)
    let projectSourceKey := normalizeSourceKey (text project.title)
    [encodeSourceKeyTuple (areaSourceKey.toList ++ [projectSourceKey]) ++ ":" ++ Runtime.encodeURIComponent sourceId,
      colonProjectSourceKeyFor areaSourceKey (text project.title) ++ ":" ++ sourceId,
      projectSourceKey ++ ":" ++ sourceId]

def expectedContainer (task : ParsedMindwtrCsvTask) : TaskContainerAssignment :=
  let projectId := task.projectSourceKey.bind (resolvedProjectIds data parsed).get?
  { projectId
    areaId := if projectId.isNone then task.areaSourceKey.map areaImportId else none
    sectionId := task.sectionSourceKey.bind (resolvedSectionIds data parsed).get? }

def historicalTaskCandidates (task : ParsedMindwtrCsvTask) : List Task :=
  let project := parsedProject parsed task.projectSourceKey
  let previousScopedSourceKey := match project with
    | some p => encodeSourceKeyTuple (p.areaSourceKey.toList ++ [normalizeSourceKey p.name, task.sourceId])
    | none => encodeSourceKeyTuple ["none", task.sourceId]
  let colonProjectSourceKey := match project with
    | some p => colonProjectSourceKeyFor p.areaSourceKey p.name
    | none => "none"
  let keys := [previousScopedSourceKey, colonProjectSourceKey ++ ":" ++ task.sourceId] ++
    (legacyTaskSourceKey parsed task).toList
  let candidates := historicalTaskCandidatesFor data (keys.filter (· ≠ task.sourceKey))
  if candidates.isEmpty then historicalTaskCandidatesFor data (currentProjectTaskScopes data task.sourceId)
  else candidates

/-- A row whose id no task of the document has: the tasks under the ids that earlier importers derived. -/
def resolveHistoricalTask (task : ParsedMindwtrCsvTask) : TaskResolution :=
  let expected := expectedContainer data parsed task
  let candidates := historicalTaskCandidates data parsed task
  match candidates.find? (fun t => asStr? t.projectId == expected.projectId && asStr? t.areaId == expected.areaId),
      candidates with
  | some owned, _ => ⟨owned.id, .imported⟩
  | none, [] => ⟨createMindwtrCsvImportId .task task.sourceKey, .imported⟩
  | none, candidate :: others =>
    if !isLiveTask candidate then ⟨candidate.id, .imported⟩
    else if 1 < (parsed.tasks.filter (·.sourceId == task.sourceId)).length ∨ others ≠ [] then ⟨candidate.id, .ambiguous⟩
    else if !hasUntouchedImporterProvenance candidate then ⟨candidate.id, .edited⟩
    else ⟨candidate.id, .migrated expected⟩

def resolveTask (task : ParsedMindwtrCsvTask) : TaskResolution :=
  let exists? (id : String) : Bool := (currentTask data id).isSome
  let scopedId := createMindwtrCsvImportId .task task.sourceKey
  let precedingGlobalId := createMindwtrCsvImportId .task (encodeSourceKeyTuple [task.sourceId])
  if task.sourceIdentityKind = .explicitId ∧ exists? task.sourceId then ⟨task.sourceId, .imported⟩
  else if exists? scopedId then ⟨scopedId, .imported⟩
  else
    match (task.compatibilitySourceKeys.map (createMindwtrCsvImportId .task)).find? exists? with
    | some compatibilityId => ⟨compatibilityId, .imported⟩
    | none =>
      if task.sourceIdentityKind = .explicitId ∧ couldBeLegacyRowFallback task.sourceId = false ∧
          exists? precedingGlobalId then
        ⟨precedingGlobalId, .imported⟩
      else resolveHistoricalTask data parsed task

def resolvedTaskIds : JsMap String :=
  .ofList ((tasksForImport parsed).map fun task => (task.sourceKey, (resolveTask data parsed task).id))

def compatibleIdFor (kind : ImportKind) (sourceKey : String) : String :=
  let resolved := match kind with
    | .area => none
    | .project => (resolvedProjectIds data parsed).get? sourceKey
    | .sec => (resolvedSectionIds data parsed).get? sourceKey
    | .task => (resolvedTaskIds data parsed).get? sourceKey
  resolved.getD (createMindwtrCsvImportId kind sourceKey)

/-! ### The import -/

def migrationSourceKeys : List String :=
  (tasksForImport parsed).filterMap fun task =>
    match (resolveTask data parsed task).verdict with
    | .migrated _ => some task.sourceKey
    | _ => none

def editedHistoricalSourceKeys : List String :=
  (tasksForImport parsed).filterMap fun task =>
    match (resolveTask data parsed task).verdict with
    | .edited => some task.sourceKey
    | _ => none

def ambiguousMigrationSourceIds : List String :=
  (tasksForImport parsed).filterMap fun task =>
    match (resolveTask data parsed task).verdict with
    | .ambiguous => some task.sourceId
    | _ => none

def pendingTaskMigrations : JsMap TaskContainerAssignment :=
  .ofList ((tasksForImport parsed).filterMap fun task =>
    let resolution := resolveTask data parsed task
    match resolution.verdict with
    | .migrated container => some (resolution.id, container)
    | _ => none)

/-- The rows that are imported. -/
def importedRows : List ParsedMindwtrCsvTask :=
  (tasksForImport parsed).filter fun task =>
    !(migrationSourceKeys data parsed).contains task.sourceKey &&
      !(editedHistoricalSourceKeys data parsed).contains task.sourceKey &&
      !(ambiguousMigrationSourceIds data parsed).contains task.sourceId

def importSource : ImportSource where
  areas := parsed.areas.map fun area => { area with }
  projects := parsed.projects.map fun project => { project with }
  sections := parsed.sections.map fun sec => { sec with }
  tasks := (importedRows data parsed).map fun task => { task with }

/-- The time of an import and the ids that it draws. -/
structure ImportEnv where
  nowIso : String
  newDeviceId : String
  newItemId : Nat → String

variable (env : ImportEnv)

def importOptions : ImportApplyOptions where
  areaFallback := mindwtrCsvAreaFallback
  projectFallback := mindwtrCsvProjectFallback
  idFor := compatibleIdFor data parsed
  nowIso := env.nowIso
  suffix := mindwtrCsvImportSuffix
  newDeviceId := env.newDeviceId
  newItemId := env.newItemId

/-- The tasks after the moves so far, and the orders reserved by them. -/
def migrateTask (applied : AppData) (acc : List Task × JsMap Rat) (task : Task) : List Task × JsMap Rat :=
  match (pendingTaskMigrations data parsed).get? task.id with
  | none => (acc.1 ++ [task], acc.2)
  | some migration =>
    match buildTaskContainerMovePatch task migration applied.projects applied.sections applied.areas acc.2 with
    | .error _ => (acc.1 ++ [task], acc.2)
    | .ok (move, reserved) =>
      (acc.1 ++ [{ task with
        projectId := move.projectId.map .str
        sectionId := move.sectionId.map .str
        areaId := move.areaId.map .str
        order := match move.order with
          | none => task.order
          | some order => order.map .num
        orderNum := match move.order with
          | none => task.orderNum
          | some order => order.map .num
        updatedAt := some (.str env.nowIso)
        rev := some (.num (nextRevision task.rev))
        revBy := lookup "deviceId" applied.settings.others }], reserved)

def applyMindwtrCsvImport : AppData :=
  let applied := applyImport data (importSource data parsed) (importOptions data parsed env)
  { applied with
    tasks := (applied.tasks.foldl (migrateTask data parsed env applied) ([], getProjectOrderIndex applied.tasks)).1 }

end

end Mindwtr.Import
