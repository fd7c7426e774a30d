import Mindwtr.Entity.Recurrence
import Mindwtr.Import.Source
import Mindwtr.Sync.RemotePayload

/-!
# The CSV export

`mindwtr-csv-export.ts`: one row for each live task, with the titles of its containers in place of their ids.
-/

namespace Mindwtr.Import

open Mindwtr.Js Mindwtr.Sync

def mindwtrCsvColumns : List String :=
  ["Title", "Description", "Status", "Project", "Section", "Area", "Contexts", "Tags", "Assigned To", "Priority",
    "Energy", "Start Date", "Due Date", "Review Date", "Completed At", "Checklist", "Location", "Order", "ID",
    "Created At", "Recurrence", "Cancelled At"]

def mindwtrCsvFluidRecurrenceToken : String := "X-MINDWTR-STRATEGY=FLUID"

/-- Neither `deletedAt` nor `purgedAt` is set. -/
def isLiveTask (task : Task) : Bool := !truthy task.deletedAt && !truthy task.purgedAt
def isLiveProject (project : Project) : Bool := !truthy project.deletedAt && !truthy project.purgedAt
def isLiveSection (sec : Section) : Bool := !truthy sec.deletedAt && !truthy (lookup "purgedAt" sec.extra)
def isLiveArea (area : Area) : Bool := !truthy area.deletedAt && !truthy (lookup "purgedAt" area.extra)

structure ChecklistItem where
  title : String
  isCompleted : Bool
deriving DecidableEq, Repr

def checklistItems (checklist : Option Json) : List ChecklistItem :=
  ((checklist.bind Json.asArr?).getD []).map fun item =>
    { title := text (prop (some item) "title"), isCompleted := truthy (prop (some item) "isCompleted") }

def formatChecklistItem (item : ChecklistItem) : String :=
  (if item.isCompleted then "[x] " else "[ ] ") ++ item.title

def formatChecklist (task : Task) : String :=
  "|".intercalate ((checklistItems task.checklist).map formatChecklistItem)

section
variable [Runtime]

def formatRecurrence (task : Task) : String :=
  match normalizeRecurrenceForLoad task.recurrence with
  | none => ""
  | some recurrence =>
    let read := prop (some recurrence)
    let rrule := buildRRuleString (text (read "rule")) ((read "byDay").map fun days => texts (some days))
      (parseRRuleString (text (read "rrule"))).interval
      (((read "byMonthDay").bind Json.asArr?).map fun days => days.filterMap Json.asNum?)
      (asStr? (read "weekStart")) ((asNum? (read "count")).map Rat.floor) (asStr? (read "until"))
    if read "strategy" = some (.str "fluid") then rrule ++ ";" ++ mindwtrCsvFluidRecurrenceToken else rrule

/-- The containers of a task as its row shows them. -/
structure RowContainers where
  project : Option Project
  sec : Option Section
  area : Option Area

/-- An id that is set. -/
def idOf (value : Option Json) : Option String := (asStr? value).filter fun id => id != ""

def projectById (data : AppData) : JsMap Project := .ofItems (·.id) (data.projects.filter isLiveProject)
def sectionById (data : AppData) : JsMap Section := .ofItems (·.id) (data.sections.filter isLiveSection)
def areaById (data : AppData) : JsMap Area := .ofItems (·.id) (data.areas.filter isLiveArea)

def rowContainers (data : AppData) (task : Task) : RowContainers :=
  let project := (idOf task.projectId).bind (projectById data).get?
  { project
    sec := (idOf task.sectionId).bind (sectionById data).get?
    area := (areaById data).get? (text (coalesce (project.bind fun p => p.areaId) task.areaId)) }

def cellsFor (data : AppData) (task : Task) : List (String × String) :=
  let containers := rowContainers data task
  [("Title", text task.title),
    ("Description", text task.description),
    ("Status", text task.status),
    ("Project", (containers.project.map fun p => text p.title).getD ""),
    ("Section", if containers.project.isSome then (containers.sec.map fun s => text s.title).getD "" else ""),
    ("Area", (containers.area.map fun a => text a.name).getD ""),
    ("Contexts", ", ".intercalate (texts task.contexts)),
    ("Tags", ", ".intercalate (texts task.tags)),
    ("Assigned To", text task.assignedTo),
    ("Priority", text task.priority),
    ("Energy", text task.energyLevel),
    ("Start Date", text task.startTime),
    ("Due Date", text task.dueDate),
    ("Review Date", text task.reviewAt),
    ("Completed At", text task.completedAt),
    ("Cancelled At", text task.cancelledAt),
    ("Checklist", formatChecklist task),
    ("Location", text task.location),
    ("Order", Runtime.numberToString ((asNum? task.order).getD 0)),
    ("ID", task.id),
    ("Created At", text task.createdAt),
    ("Recurrence", formatRecurrence task)]

def rowFor (data : AppData) (task : Task) : List String :=
  mindwtrCsvColumns.map fun column => ((cellsFor data task).lookup column).getD ""

/-- The rows of a file are those of the live tasks among `tasks`. -/
def serializeMindwtrCsv (data : AppData) (tasks : List Task) (delimiter : Separator) : String :=
  String.ofList (Lib.Csv.writeRows delimiter.dialect
    ((mindwtrCsvColumns :: (tasks.filter isLiveTask).map (rowFor data)).map fun row => row.map String.toList))

end

end Mindwtr.Import
