import Mindwtr.Import.CsvCells

/-!
# The rows of an imported file

`parseMindwtrCsvImportSource` of `mindwtr-csv-import.ts` for one text file. Rows are tied to their containers by source
keys, which are made of the names in the row; the first row that names a container makes it.
-/

namespace Mindwtr.Import

open Mindwtr.Js

inductive ImportKind where
  | area
  | project
  | sec
  | task
deriving DecidableEq, Repr

def ImportKind.name : ImportKind → String
  | .area => "area"
  | .project => "project"
  | .sec => "section"
  | .task => "task"

def mindwtrCsvImportIdNamespace : String := "mindwtr:csv-import:v1"

def createMindwtrCsvImportId (kind : ImportKind) (sourceKey : String) : String :=
  generateDeterministicUUID (mindwtrCsvImportIdNamespace ++ ":" ++ kind.name ++ ":" ++ sourceKey)

structure ParsedMindwtrCsvArea where
  name : String
  order : Nat
  sourceKey : String
deriving DecidableEq, Repr

structure ParsedMindwtrCsvProject where
  areaSourceKey : Option String
  name : String
  order : Nat
  sourceKey : String
deriving DecidableEq, Repr

structure ParsedMindwtrCsvSection where
  name : String
  order : Nat
  projectSourceKey : String
  sourceKey : String
deriving DecidableEq, Repr

inductive SourceIdentityKind where
  | explicitId
  | rowFallback
deriving DecidableEq, Repr

structure ParsedMindwtrCsvTask where
  areaSourceKey : Option String
  assignedTo : Option String
  cancelledAt : Option String
  checklist : List ChecklistItem
  completedAt : Option String
  contexts : List String
  createdAt : Option String
  description : Option String
  dueDate : Option String
  energyLevel : Option String
  location : Option String
  order : Rat
  priority : Option String
  projectSourceKey : Option String
  recurrence : Option Json
  reviewAt : Option String
  sectionSourceKey : Option String
  sourceId : String
  sourceIdentityKind : SourceIdentityKind
  sourceKey : String
  compatibilitySourceKeys : List String
  startTime : Option String
  status : String
  tags : List String
  title : String

structure ParsedMindwtrCsvImportData where
  areas : List ParsedMindwtrCsvArea := []
  projects : List ParsedMindwtrCsvProject := []
  sections : List ParsedMindwtrCsvSection := []
  tasks : List ParsedMindwtrCsvTask := []

section
variable [LocalCalendar]

/-! ### Source keys -/

def normalizeSourceKey (value : String) : String := Runtime.toLowerCase (trim value)

def encodeSourceKeyTuple (components : List String) : String := ":".intercalate (components.map Runtime.encodeURIComponent)

def projectSourceKeyFor (areaSourceKey : Option String) (projectName : String) : String :=
  encodeSourceKeyTuple (areaSourceKey.toList ++ [normalizeSourceKey projectName])

def sectionSourceKeyFor (areaSourceKey : Option String) (projectName sectionName : String) : String :=
  encodeSourceKeyTuple (areaSourceKey.toList ++ [normalizeSourceKey projectName, normalizeSourceKey sectionName])

def explicitTaskSourceKeyFor (sourceId : String) : String := encodeSourceKeyTuple ["explicit-id", sourceId]

/-! ### One row -/

/-- What tells the rows of one file from those of another. -/
structure MindwtrCsvRowSource where
  documentFingerprint : String
  name : String

/-- The names in a row; an area, project or section without a name is none. -/
structure RowNames where
  areaName : String
  projectName : String
  sectionName : String

def RowNames.areaSourceKey (names : RowNames) : Option String := (nonEmpty names.areaName).map normalizeSourceKey

def RowNames.projectSourceKey (names : RowNames) : Option String :=
  (nonEmpty names.projectName).map (projectSourceKeyFor names.areaSourceKey)

/-- A section of no project is dropped. -/
def RowNames.sectionSourceKey (names : RowNames) : Option String :=
  if names.projectName = "" then none
  else (nonEmpty names.sectionName).map (sectionSourceKeyFor names.areaSourceKey names.projectName)

variable (row : List String) (headerIndex : List (String × Nat))

def rowNames : RowNames where
  areaName := trim (readCell row headerIndex "AREA")
  projectName := trim (readCell row headerIndex "PROJECT")
  sectionName := trim (readCell row headerIndex "SECTION")

/-- The task of a row; `rowIndex` counts from the header, `checklist` has been read before. -/
def parseTaskRow (source : MindwtrCsvRowSource) (rowIndex : Nat) (checklist : List ChecklistItem) :
    ParsedMindwtrCsvTask :=
  let cell := readCell row headerIndex
  let names := rowNames row headerIndex
  let completedAt := normalizeEntityTimestamp (cell "COMPLETED AT")
  let cancelledAt := normalizeEntityTimestamp (cell "CANCELLED AT")
  let idColumn := trim (cell "ID")
  let rowNumber := toString (rowIndex + 1)
  { areaSourceKey := names.areaSourceKey
    assignedTo := nonEmpty (trim (cell "ASSIGNED TO"))
    cancelledAt
    checklist
    completedAt
    contexts := parseContexts (cell "CONTEXTS")
    createdAt := normalizeEntityTimestamp (cell "CREATED AT")
    description := nonEmpty (trim (cell "DESCRIPTION"))
    dueDate := parseCsvDateValue (cell "DUE DATE")
    energyLevel := parseEnergy (cell "ENERGY")
    location := nonEmpty (trim (cell "LOCATION"))
    order := toNumber (cell "ORDER") rowIndex
    priority := parsePriority (cell "PRIORITY")
    projectSourceKey := names.projectSourceKey
    recurrence := parseRecurrenceCell (cell "RECURRENCE")
    reviewAt := parseCsvDateValue (cell "REVIEW DATE")
    sectionSourceKey := names.sectionSourceKey
    sourceId := if idColumn = "" then "row-" ++ rowNumber else idColumn
    sourceIdentityKind := if idColumn = "" then .rowFallback else .explicitId
    sourceKey :=
      if idColumn = "" then
        encodeSourceKeyTuple ["row-fallback-v2", "standalone-file", source.documentFingerprint, rowNumber]
      else explicitTaskSourceKeyFor idColumn
    compatibilitySourceKeys :=
      if idColumn = "" then [encodeSourceKeyTuple ["row-fallback", "standalone-file", source.name, rowNumber]] else []
    startTime := parseCsvDateValue (cell "START DATE")
    status := resolveStatus (cell "STATUS") names.projectSourceKey.isSome completedAt.isSome cancelledAt.isSome
    tags := parseTags (cell "TAGS")
    title := trim (cell "TITLE") }

/-! ### All rows -/

/-- `if (!map.has(key)) map.set(key, item)`. -/
def addOnce {α : Type} (keyOf : α → String) (item : α) (items : List α) : List α :=
  if items.any fun other => keyOf other == keyOf item then items else items ++ [item]

/-- The containers that a row names and no row before it. -/
def addContainers (names : RowNames) (parsed : ParsedMindwtrCsvImportData) : ParsedMindwtrCsvImportData :=
  let areas := match names.areaSourceKey with
    | some key => addOnce (·.sourceKey) { sourceKey := key, name := names.areaName, order := parsed.areas.length }
        parsed.areas
    | none => parsed.areas
  let projects := match names.projectSourceKey with
    | some key => addOnce (·.sourceKey)
        { sourceKey := key
          name := names.projectName
          order := parsed.projects.length
          areaSourceKey := names.areaSourceKey }
        parsed.projects
    | none => parsed.projects
  let sections := match names.sectionSourceKey, names.projectSourceKey with
    | some key, some projectKey => addOnce (·.sourceKey)
        { sourceKey := key
          projectSourceKey := projectKey
          name := names.sectionName
          order := (parsed.sections.filter (·.projectSourceKey == projectKey)).length }
        parsed.sections
    | _, _ => parsed.sections
  { parsed with areas, projects, sections }

/-- The data so far and the checklist items they hold. -/
def addRow (source : MindwtrCsvRowSource) (acc : ParsedMindwtrCsvImportData × Nat) (rowIndex : Nat) :
    Except JsError (ParsedMindwtrCsvImportData × Nat) :=
  if trim (readCell row headerIndex "TITLE") = "" then .ok acc
  else do
    let (checklist, itemCount) ← parseChecklist (readCell row headerIndex "CHECKLIST")
    if maxChecklistItems < acc.2 + itemCount then .error tooManyChecklistItems
    else
      let parsed := addContainers (rowNames row headerIndex) acc.1
      .ok ({ parsed with tasks := parsed.tasks ++ [parseTaskRow row headerIndex source rowIndex checklist] },
        acc.2 + itemCount)

end

section
variable [LocalCalendar]

def addRows (headerIndex : List (String × Nat)) (source : MindwtrCsvRowSource)
    (acc : ParsedMindwtrCsvImportData × Nat) (rowIndex : Nat) :
    List (List String) → Except JsError (ParsedMindwtrCsvImportData × Nat)
  | [] => .ok acc
  | row :: rows => do addRows headerIndex source (← addRow row headerIndex source acc rowIndex) (rowIndex + 1) rows

def missingTitleColumn : JsError := .error "Mindwtr CSV is missing the required column: Title"

def parseMindwtrCsvRows (csvText : String) (source : MindwtrCsvRowSource) :
    Except JsError ParsedMindwtrCsvImportData := do
  let (rows, _) ← parseCsvRows (sanitizeCsvText csvText) (detectMindwtrCsvDelimiter csvText)
  match rows with
  | [] => .ok {}
  | header :: rows =>
    let headerIndex := buildHeaderIndex header
    if (headerIndex.lookup "TITLE").isNone then .error missingTitleColumn
    else (addRows headerIndex source ({}, 0) 1 rows).map Prod.fst

/-! ### The file -/

/-- Of the tasks of one source key, the first. -/
def dropDuplicateTasks (tasks : List ParsedMindwtrCsvTask) : List ParsedMindwtrCsvTask :=
  tasks.foldl (fun kept task => if kept.any (·.sourceKey == task.sourceKey) then kept else kept ++ [task]) []

def dropUnusedContainers (parsed : ParsedMindwtrCsvImportData) : ParsedMindwtrCsvImportData :=
  let usedSectionKeys := parsed.tasks.filterMap fun task => task.sectionSourceKey
  let usedProjectKeys := parsed.tasks.filterMap fun task => task.projectSourceKey
  let projects := parsed.projects.filter fun project => usedProjectKeys.contains project.sourceKey
  let usedAreaKeys := parsed.tasks.filterMap (fun task => task.areaSourceKey) ++
    projects.filterMap fun project => project.areaSourceKey
  { parsed with
    sections := parsed.sections.filter fun sec =>
      usedSectionKeys.contains sec.sourceKey && usedProjectKeys.contains sec.projectSourceKey
    projects
    areas := parsed.areas.filter fun area => usedAreaKeys.contains area.sourceKey }

def dropDuplicateTasksAndUnusedContainers (parsed : ParsedMindwtrCsvImportData) : ParsedMindwtrCsvImportData :=
  dropUnusedContainers { parsed with tasks := dropDuplicateTasks parsed.tasks }

def bucketKeyForTask (task : ParsedMindwtrCsvTask) : String :=
  match task.projectSourceKey, task.areaSourceKey with
  | some key, _ => "project:" ++ key
  | none, some key => "area:" ++ key
  | none, none => "inbox"

def rowOrder (left right : ParsedMindwtrCsvTask) : Bool :=
  let bucketCompare := Runtime.localeCompare (bucketKeyForTask left) (bucketKeyForTask right)
  if bucketCompare ≠ 0 then bucketCompare < 0 else left.order ≤ right.order

def basename (fileName : String) : String :=
  let name := String.ofList ((fileName.toList.splitOnP fun c => c == '\\' || c == '/').getLastD [])
  if name = "" then fileName else name

def noImportableTasks : JsError := .error "No importable tasks were found in the selected file."

def parseMindwtrCsvImportSource (fileName csvText : String) : Except JsError ParsedMindwtrCsvImportData := do
  let source ← readImportSource csvText
  let parsed ← parseMindwtrCsvRows source
    { documentFingerprint := generateDeterministicUUID (sanitizeCsvText source), name := basename fileName }
  if maxEntities < parsed.areas.length + parsed.projects.length + parsed.sections.length + parsed.tasks.length then
    .error tooManyEntities
  else
    let kept := dropDuplicateTasksAndUnusedContainers parsed
    if kept.tasks.isEmpty then .error noImportableTasks
    else .ok { kept with tasks := kept.tasks.insertionSort fun left right => rowOrder left right }

end

end Mindwtr.Import
