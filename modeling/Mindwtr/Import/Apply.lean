import Mindwtr.Import.CsvRows
import Mindwtr.Entity.TaskLoad

/-!
# Applying an import

`applyImport` of `import-apply.ts`. What an import brings is found again by ids that `idFor` makes of its source keys; a
container that the user already has under an id of its own is found through the tasks of the rows, where they agree.
-/

namespace Mindwtr.Import

open Mindwtr.Js Mindwtr.Sync

/-! ### What is applied -/

structure ImportAreaSource extends ParsedMindwtrCsvArea where
  color : Option String := none
  createdAt : Option String := none
  updatedAt : Option String := none

structure ImportProjectSource extends ParsedMindwtrCsvProject where
  color : Option String := none
  createdAt : Option String := none
  dueDate : Option String := none
  startDate : Option String := none
  status : Option String := none
  supportNotes : Option String := none
  tagIds : Option (List String) := none
  updatedAt : Option String := none

structure ImportSectionSource extends ParsedMindwtrCsvSection where
  createdAt : Option String := none
  updatedAt : Option String := none

structure ImportTaskSource extends ParsedMindwtrCsvTask where
  updatedAt : Option String := none

structure ImportSource where
  areas : List ImportAreaSource
  projects : List ImportProjectSource
  sections : List ImportSectionSource
  tasks : List ImportTaskSource

structure ImportApplyOptions where
  areaFallback : String
  projectFallback : String
  idFor : ImportKind → String → String
  /-- The time of the import as `toISOString` writes it. -/
  nowIso : String
  resolveTaskStatus : String → Option String → String := fun status _ => status
  suffix : String
  /-- The ids that `generateUUID` hands out: the one of the device, where it has none, and those of checklist items. -/
  newDeviceId : String
  newItemId : Nat → String

structure ImportState where
  areas : List Area
  projects : List Project
  sections : List Section
  tasks : List Task
  usedAreaNames : List String
  usedProjectTitles : List (Option String × String)
  areaIdBySourceKey : JsMap String := .empty
  projectIdBySourceKey : JsMap String := .empty
  sectionIdBySourceKey : JsMap String := .empty
  nextTaskOrderByBucket : JsMap Rat := .empty
  existingTaskIds : List String
  importedAreaCount : Nat := 0
  importedProjectCount : Nat := 0
  importedSectionCount : Nat := 0
  importedTaskCount : Nat := 0
  importedChecklistItemCount : Nat := 0
  importedStandaloneTaskCount : Nat := 0

def defaultProjectColor : String := "#94a3b8"
def defaultAreaColor : String := defaultProjectColor

/-- `ensureDeviceId` of `store-helpers.ts`. -/
def ensureDeviceId (settings : DocumentSettings) (newDeviceId : String) : DocumentSettings × String :=
  if truthy (lookup "deviceId" settings.others) then (settings, text (lookup "deviceId" settings.others))
  else ({ settings with others := setProp "deviceId" (some (.str newDeviceId)) settings.others }, newDeviceId)

/-- `Math.max(...)` of the orders, where one that is not a number counts as -1; -1 of none. -/
def maxOrder (orders : List (Option Json)) : Rat :=
  orders.foldl (fun highest order => max highest ((asNum? order).getD (-1))) (-1)

/-! ### What the rows say about the containers -/

/-- Unanimous verdicts only. -/
def settle (records : List (String × String)) (sourceKey : String) : Option String :=
  match ((records.filter fun record => record.1 == sourceKey).map Prod.snd).dedup with
  | [id] => nonEmpty id
  | _ => none

/-- The live task of the document that a row stands for. -/
def liveTaskOf (data : AppData) (opts : ImportApplyOptions) (task : ImportTaskSource) : Option Task :=
  ((JsMap.ofItems (fun t : Task => t.id) data.tasks).get? (opts.idFor .task task.sourceKey)).filter isLiveTask

def existingProject (data : AppData) (id : String) : Option Project :=
  (JsMap.ofItems (fun p : Project => p.id) data.projects).get? id

def existingSection (data : AppData) (id : String) : Option Section :=
  (JsMap.ofItems (fun s : Section => s.id) data.sections).get? id

def existingArea (data : AppData) (id : String) : Option Area :=
  (JsMap.ofItems (fun a : Area => a.id) data.areas).get? id

def liveProjectOf (data : AppData) (task : Task) : Option Project :=
  ((idOf task.projectId).bind (existingProject data)).filter isLiveProject

def liveSectionOf (data : AppData) (task : Task) : Option Section :=
  ((idOf task.sectionId).bind (existingSection data)).filter isLiveSection

def liveAreaOf (data : AppData) (task : Task) : Option Area :=
  let areaId := match liveProjectOf data task with
    | some project => project.areaId
    | none => task.areaId
  ((idOf areaId).bind (existingArea data)).filter isLiveArea

/-- The records of one kind: a row that has a source key and whose task has a live container. -/
def carriedIds (data : AppData) (opts : ImportApplyOptions) (tasks : List ImportTaskSource)
    (sourceKey : ImportTaskSource → Option String) (container : Task → Option String) : List (String × String) :=
  tasks.filterMap fun task => do
    let key ← sourceKey task
    let id ← container (← liveTaskOf data opts task)
    return (key, id)

def liveAreaIdBySourceKey (data : AppData) (opts : ImportApplyOptions) (tasks : List ImportTaskSource) :
    String → Option String :=
  settle (carriedIds data opts tasks (·.areaSourceKey) fun task => (liveAreaOf data task).map (·.id))

def liveProjectIdBySourceKey (data : AppData) (opts : ImportApplyOptions) (tasks : List ImportTaskSource) :
    String → Option String :=
  settle (carriedIds data opts tasks (·.projectSourceKey) fun task => (liveProjectOf data task).map (·.id))

def liveSectionIdBySourceKey (data : AppData) (opts : ImportApplyOptions) (tasks : List ImportTaskSource) :
    String → Option String :=
  settle (carriedIds data opts tasks (·.sectionSourceKey) fun task => (liveSectionOf data task).map (·.id))

section
variable [LocalCalendar]

/-! ### Names -/

def resolveUniqueName (title : String) (usedTitles : List String) (fallback suffix : String) : String :=
  let trimmed := if trim title = "" then fallback else trim title
  let free (name : String) : Bool := !usedTitles.contains (Runtime.toLowerCase name)
  if free trimmed then trimmed
  else
    let base := trimmed ++ suffix
    if free base then base
    else
      -- One of so many different names is free.
      let numbered := (List.range (usedTitles.length + 1)).map fun i => base ++ " " ++ toString (i + 2)
      (numbered.find? free).getD base

def resolveTimestamp (value : Option String) (fallback : String) : String :=
  match value with
  | some value => if (safeParseDate (some (.str value))).isSome then value else fallback
  | none => fallback

variable (data : AppData) (opts : ImportApplyOptions) (deviceId : String) (tasks : List ImportTaskSource)

/-! ### Areas -/

def newArea (area : ImportAreaSource) (areaName : String) (order : Rat) : Area :=
  let createdAt := resolveTimestamp area.createdAt opts.nowIso
  { id := opts.idFor .area area.sourceKey
    name := some (.str areaName)
    color := some (.str (area.color.getD defaultAreaColor))
    order := some (.num order)
    createdAt := some (.str createdAt)
    updatedAt := some (.str (resolveTimestamp area.updatedAt createdAt))
    rev := some (.num (nextRevision none))
    revBy := some (.str deviceId) }

def importArea (s : ImportState) (area : ImportAreaSource) (index : Nat) : ImportState :=
  match existingArea data (opts.idFor .area area.sourceKey) with
  | some existing =>
    if truthy existing.deletedAt then s
    else { s with areaIdBySourceKey := s.areaIdBySourceKey.set area.sourceKey existing.id }
  | none =>
    match liveAreaIdBySourceKey data opts tasks area.sourceKey with
    | some carriedId => { s with areaIdBySourceKey := s.areaIdBySourceKey.set area.sourceKey carriedId }
    | none =>
      let areaName := resolveUniqueName area.name s.usedAreaNames opts.areaFallback opts.suffix
      let nextAreaOrder := maxOrder ((data.areas.filter fun a => !truthy a.deletedAt).map fun a => a.order) + 1
      let next := newArea opts deviceId area areaName (nextAreaOrder + index)
      { s with
        areas := s.areas ++ [next]
        usedAreaNames := s.usedAreaNames ++ [Runtime.toLowerCase areaName]
        areaIdBySourceKey := s.areaIdBySourceKey.set area.sourceKey next.id
        importedAreaCount := s.importedAreaCount + 1 }

/-! ### Projects -/

def newProject (project : ImportProjectSource) (title : String) (order : Rat) (areaId : Option String) : Project :=
  let createdAt := resolveTimestamp project.createdAt opts.nowIso
  { id := opts.idFor .project project.sourceKey
    title := some (.str title)
    status := some (.str (project.status.getD "active"))
    color := some (.str (project.color.getD defaultProjectColor))
    order := some (.num order)
    tagIds := some (strings (project.tagIds.getD []))
    supportNotes := project.supportNotes.map .str
    dueDate := project.dueDate.map .str
    startDate := project.startDate.map .str
    createdAt := some (.str createdAt)
    updatedAt := some (.str (resolveTimestamp project.updatedAt createdAt))
    rev := some (.num (nextRevision none))
    revBy := some (.str deviceId)
    areaId := areaId.map .str }

/-- `project.areaId ?? undefined`. -/
def projectAreaId (project : Project) : Option String := asStr? project.areaId

def importProject (s : ImportState) (project : ImportProjectSource) : ImportState :=
  match existingProject data (opts.idFor .project project.sourceKey) with
  | some existing =>
    if truthy existing.deletedAt then s
    else { s with projectIdBySourceKey := s.projectIdBySourceKey.set project.sourceKey existing.id }
  | none =>
    match liveProjectIdBySourceKey data opts tasks project.sourceKey with
    | some carriedId => { s with projectIdBySourceKey := s.projectIdBySourceKey.set project.sourceKey carriedId }
    | none =>
      let areaId := project.areaSourceKey.bind s.areaIdBySourceKey.get?
      let usedTitles := (s.usedProjectTitles.filter fun used => used.1 == areaId).map Prod.snd
      let title := resolveUniqueName project.name usedTitles opts.projectFallback opts.suffix
      let siblings := s.projects.filter fun p => !truthy p.deletedAt && projectAreaId p == areaId
      let next := newProject opts deviceId project title (maxOrder (siblings.map fun p => p.order) + 1) areaId
      { s with
        projects := s.projects ++ [next]
        usedProjectTitles := s.usedProjectTitles ++ [(areaId, Runtime.toLowerCase title)]
        projectIdBySourceKey := s.projectIdBySourceKey.set project.sourceKey next.id
        importedProjectCount := s.importedProjectCount + 1 }

/-! ### Sections -/

def newSection (sec : ImportSectionSource) (projectId : String) (order : Rat) : Section :=
  let createdAt := resolveTimestamp sec.createdAt opts.nowIso
  { id := opts.idFor .sec sec.sourceKey
    projectId := some (.str projectId)
    title := some (.str sec.name)
    order := some (.num order)
    createdAt := some (.str createdAt)
    updatedAt := some (.str (resolveTimestamp sec.updatedAt createdAt))
    rev := some (.num (nextRevision none))
    revBy := some (.str deviceId) }

/-- The section the rows carry, where it is one of the project. -/
def carriedSectionId (sourceKey projectId : String) : Option String :=
  (liveSectionIdBySourceKey data opts tasks sourceKey).filter fun id =>
    ((existingSection data id).bind fun s => s.projectId) == some (.str projectId)

def importSection (s : ImportState) (sec : ImportSectionSource) : ImportState :=
  match s.projectIdBySourceKey.get? sec.projectSourceKey with
  | none => s
  | some projectId =>
    match existingSection data (opts.idFor .sec sec.sourceKey) with
    | some existing =>
      if truthy existing.deletedAt then s
      else { s with sectionIdBySourceKey := s.sectionIdBySourceKey.set sec.sourceKey existing.id }
    | none =>
      match carriedSectionId data opts tasks sec.sourceKey projectId with
      | some carriedId => { s with sectionIdBySourceKey := s.sectionIdBySourceKey.set sec.sourceKey carriedId }
      | none =>
        let siblings := s.sections.filter fun x => !truthy x.deletedAt && x.projectId == some (.str projectId)
        let next := newSection opts deviceId sec projectId (maxOrder (siblings.map fun x => x.order) + 1)
        { s with
          sections := s.sections ++ [next]
          sectionIdBySourceKey := s.sectionIdBySourceKey.set sec.sourceKey next.id
          importedSectionCount := s.importedSectionCount + 1 }

/-! ### Tasks -/

def getTaskBucketKey (projectId areaId : Option String) : String :=
  match projectId.bind nonEmpty, areaId.bind nonEmpty with
  | some id, _ => "project:" ++ id
  | none, some id => "area:" ++ id
  | none, none => "inbox"

/-- The next free order of each bucket. -/
def nextTaskOrders (tasks : List Task) : JsMap Rat :=
  (tasks.filter fun task => !truthy task.deletedAt).foldl (fun next task =>
    let bucket := getTaskBucketKey (asStr? task.projectId) (asStr? task.areaId)
    let candidate := ((asNum? task.order).or (asNum? task.orderNum)).getD (-1)
    next.set bucket (max ((next.get? bucket).getD 0) (candidate + 1))) .empty

def checklistJson (items : List ChecklistItem) (newItemId : Nat → String) : Json :=
  .arr (items.mapIdx fun i item =>
    .obj [("id", .str (newItemId i)), ("title", .str item.title), ("isCompleted", .bool item.isCompleted)])

/-- `getReferenceTaskFieldClears` of `store-helpers.ts`. -/
def clearReferenceFields (task : Task) : Task :=
  { task with
    status := some (.str "reference")
    startTime := none
    dueDate := none
    relativeStartOffset := none
    reviewAt := none
    recurrence := none
    priority := none
    timeEstimate := none
    suppressMindwtrReminders := none
    repeatReminderMinutes := none
    showFutureRecurrence := none
    isFocusedToday := some (.bool false)
    focusOrder := none
    boardOrder := none
    pushCount := some (.num 0) }

structure NewTaskPlace where
  projectId : Option String
  sectionId : Option String
  areaId : Option String
  order : Rat

def newTask (task : ImportTaskSource) (place : NewTaskPlace) (newItemId : Nat → String) : Task :=
  let createdAt := resolveTimestamp task.createdAt opts.nowIso
  let updatedAt := resolveTimestamp task.updatedAt createdAt
  let status := opts.resolveTaskStatus task.status place.projectId
  let cancelledAt := if status = "archived" then task.cancelledAt else none
  let finished := isTaskFinished (some (.str status))
  let completedAt := if cancelledAt.isNone && finished then some (task.completedAt.getD updatedAt) else none
  let next : Task :=
    { id := opts.idFor .task task.sourceKey
      title := some (.str task.title)
      status := some (.str status)
      taskMode := some (.str (if task.checklist.isEmpty then "task" else "list"))
      priority := task.priority.map .str
      energyLevel := task.energyLevel.map .str
      assignedTo := task.assignedTo.map .str
      contexts := some (strings task.contexts)
      tags := some (strings task.tags)
      checklist := if task.checklist.isEmpty then none else some (checklistJson task.checklist newItemId)
      description := task.description.map .str
      location := task.location.map .str
      startTime := task.startTime.map .str
      dueDate := task.dueDate.map .str
      reviewAt := task.reviewAt.map .str
      recurrence := task.recurrence
      completedAt := completedAt.map .str
      cancelledAt := cancelledAt.map .str
      pushCount := some (.num 0)
      createdAt := some (.str createdAt)
      updatedAt := some (.str updatedAt)
      rev := some (.num (nextRevision none))
      revBy := some (.str deviceId)
      order := some (.num place.order)
      orderNum := some (.num place.order) }
  let cleared := if status = "reference" then clearReferenceFields next else next
  { cleared with
    projectId := place.projectId.map .str
    sectionId := place.sectionId.map .str
    areaId := place.areaId.map .str }

def importTask (s : ImportState) (task : ImportTaskSource) : ImportState :=
  if s.existingTaskIds.contains (opts.idFor .task task.sourceKey) then s
  else
    let projectId := task.projectSourceKey.bind s.projectIdBySourceKey.get?
    let areaId := if projectId.isNone then task.areaSourceKey.bind s.areaIdBySourceKey.get? else none
    let sectionId := task.sectionSourceKey.bind s.sectionIdBySourceKey.get?
    let bucket := getTaskBucketKey projectId areaId
    let order := (s.nextTaskOrderByBucket.get? bucket).getD 0
    let next := newTask opts deviceId task { projectId, sectionId, areaId, order } fun i =>
      opts.newItemId (s.importedChecklistItemCount + i)
    { s with
      tasks := s.tasks ++ [next]
      existingTaskIds := s.existingTaskIds ++ [next.id]
      nextTaskOrderByBucket := s.nextTaskOrderByBucket.set bucket (order + 1)
      importedTaskCount := s.importedTaskCount + 1
      importedChecklistItemCount := s.importedChecklistItemCount + task.checklist.length
      importedStandaloneTaskCount := s.importedStandaloneTaskCount + (if projectId.isNone then 1 else 0) }

/-! ### The whole import -/

def startImport : ImportState where
  areas := data.areas
  projects := data.projects
  sections := data.sections
  tasks := data.tasks
  usedAreaNames := (data.areas.filter fun a => !truthy a.deletedAt).map fun a => Runtime.toLowerCase (trim (text a.name))
  usedProjectTitles := (data.projects.filter fun p => !truthy p.deletedAt).map fun p =>
    (projectAreaId p, Runtime.toLowerCase (trim (text p.title)))
  nextTaskOrderByBucket := nextTaskOrders data.tasks
  existingTaskIds := data.tasks.map (·.id)

end

section
variable [LocalCalendar] (data : AppData) (source : ImportSource) (opts : ImportApplyOptions)

def importAreas : ImportState :=
  let (_, deviceId) := ensureDeviceId data.settings opts.newDeviceId
  source.areas.zipIdx.foldl (fun s (area, index) => importArea data opts deviceId source.tasks s area index)
    (startImport data)

def importProjects : ImportState :=
  let (_, deviceId) := ensureDeviceId data.settings opts.newDeviceId
  source.projects.foldl (importProject data opts deviceId source.tasks) (importAreas data source opts)

def importSections : ImportState :=
  let (_, deviceId) := ensureDeviceId data.settings opts.newDeviceId
  source.sections.foldl (importSection data opts deviceId source.tasks) (importProjects data source opts)

def importTasks : ImportState :=
  let (_, deviceId) := ensureDeviceId data.settings opts.newDeviceId
  source.tasks.foldl (importTask opts deviceId) (importSections data source opts)

def applyImport : AppData :=
  let s := importTasks data source opts
  { tasks := s.tasks
    projects := s.projects
    sections := s.sections
    areas := s.areas
    people := some (data.people.getD [])
    settings := (ensureDeviceId data.settings opts.newDeviceId).1 }

end

end Mindwtr.Import
