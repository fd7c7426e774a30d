import Mindwtr.Cloud.AttachmentPaths
import Mindwtr.Sync.ContainerRepair

/-!
# The check before a document is stored

`validateAppData` of `server-validation.ts`. It answers with the first error it finds; the tables of a stored document
are lists, so only the shape of their members is in question.
-/

namespace Mindwtr.Cloud

open Mindwtr.Js Mindwtr.Store Mindwtr.Sync

section
variable [Runtime]

/-! ### The values of one field -/

def validateTaskRepeatReminderMinutes (task : Task) : Option String :=
  let minutes := task.repeatReminderMinutes
  if isNullish minutes || minutes == some (.num 0) || strictEq (normalizeRepeatReminderMinutes minutes) minutes then
    none
  else some "Invalid task repeatReminderMinutes"

def validateTaskTimeSpentMinutes (task : Task) : Option String :=
  let minutes := task.timeSpentMinutes
  if isNullish minutes || minutes == some (.num 0) || strictEq (normalizeTimeSpentMinutes minutes) minutes then none
  else some "Invalid task timeSpentMinutes"

def unsupportedFields (what : String) (invalidKeys : List String) : String :=
  let listedKeys := String.intercalate ", " (invalidKeys.take 10)
  s!"Unsupported task {what} fields: {listedKeys}"

def validateTaskRelativeStartOffset (task : Task) : Option String :=
  match task.relativeStartOffset with
  | none | some .null => none
  | some (.obj offset) =>
    let invalidKeys := (offset.map Prod.fst).filter fun key => key != "amount" && key != "unit"
    let normalized := normalizeRelativeStartOffset (some (.obj offset))
    if !invalidKeys.isEmpty then some (unsupportedFields "relativeStartOffset" invalidKeys)
    else if normalized.isNone || !strictEq (prop normalized "amount") (lookup "amount" offset) ||
        !strictEq (prop normalized "unit") (lookup "unit" offset) then
      some "Invalid task relativeStartOffset"
    else none
  | some _ => some "Invalid task relativeStartOffset"

def taskRecurrenceFieldKeys : List String :=
  ["rule", "seriesId", "strategy", "byDay", "byMonthDay", "weekStart", "count", "until", "completedOccurrences",
    "anchorDay", "startAnchorDay", "dueAnchorDay", "reviewAnchorDay", "rrule"]

def isSameJsonValue (left right : Option Json) : Bool := left.map stringify == right.map stringify

def validateTaskRecurrence (task : Task) : Option String :=
  match task.recurrence with
  | none | some .null => none
  | some (.str rule) =>
    if (normalizeRecurrenceForLoad (some (.str rule))).isSome then none else some "Invalid task recurrence"
  | some (.obj recurrence) =>
    let keys := recurrence.map Prod.fst
    let invalidKeys := keys.filter fun key => !taskRecurrenceFieldKeys.contains key
    if !invalidKeys.isEmpty then some (unsupportedFields "recurrence" invalidKeys)
    else
      match normalizeRecurrenceForLoad (some (.obj recurrence)) with
      | none => some "Invalid task recurrence"
      | some normalized =>
        if keys.all fun key => isSameJsonValue (lookup key recurrence) (prop (some normalized) key) then none
        else some "Invalid task recurrence"
  | some _ => some "Invalid task recurrence"

def validateTaskViewSectionIds (task : Task) : Option String :=
  match task.viewSectionIds.join with
  | none | some .null => none
  | some (.obj ids) =>
    if ids.all fun e => (asStr? (some e.2)).isSome then none else some "Invalid task viewSectionIds"
  | some _ => some "Invalid task viewSectionIds"

def validateCancellationTimestamp (cancelledAt : Option Json) (entity : String) : Option String :=
  if isNullish cancelledAt || (normalizeCancellationTimestamp cancelledAt).isSome then none
  else some s!"Invalid {entity} cancelledAt: expected an ISO timestamp with timezone"

def validateTaskPropValues (task : Task) : Option String :=
  (validateCancellationTimestamp task.cancelledAt "task").or ((validateTaskRepeatReminderMinutes task).or
    ((validateTaskTimeSpentMinutes task).or ((validateTaskRelativeStartOffset task).or
      ((validateTaskRecurrence task).or (validateTaskViewSectionIds task)))))

def taskSortByValues : List String :=
  ["default", "due", "start", "review", "title", "timeEstimate", "created", "created-desc", "completed"]

def validateProjectPropValues (project : Project) : Option String :=
  (validateCancellationTimestamp project.cancelledAt "project").or
    (if isNullish project.taskSortBy || (asStr? project.taskSortBy).any taskSortByValues.contains then none
    else some "Invalid project taskSortBy")

/-! ### One entity -/

def isValidIsoTimestamp (value : Option Json) : Bool :=
  (asStr? value).any fun s => trim s != "" && (dateParse s).isSome

/-- `value != null && !isValidIsoTimestamp(value)`. -/
def isInvalidIsoTimestamp (value : Option Json) : Bool := !isNullish value && !isValidIsoTimestamp value

/-- The first of the checks that fails. -/
def firstFailure (checks : List (Bool × String)) : Option String :=
  (checks.find? fun check => check.1).map Prod.snd

def validateTask (task : Task) : Option String :=
  (firstFailure
    [((asStr? task.title).isNone, "Invalid data: each task must be an object with string id and title"),
      (trim task.id == "" || (asStr? task.title).any (trim · == ""),
        "Invalid data: each task must include non-empty id and title"),
      (!(asStr? task.status).any taskStatusValues.contains, "Invalid data: task status must be a valid value"),
      (!isValidIsoTimestamp task.createdAt || !isValidIsoTimestamp task.updatedAt,
        "Invalid data: task createdAt/updatedAt must be valid ISO timestamps"),
      (isInvalidIsoTimestamp task.deletedAt,
        "Invalid data: task deletedAt must be a valid ISO timestamp when present")]).or
    ((validateTaskPropValues task).map fun valueError => s!"Invalid data: task {task.id}: {valueError}")

def projectStatusValues : List String := ["active", "someday", "waiting", "archived"]

def validateProject (project : Project) : Option String :=
  (firstFailure
    [((asStr? project.title).isNone, "Invalid data: each project must be an object with string id and title"),
      (trim project.id == "" || (asStr? project.title).any (trim · == ""),
        "Invalid data: each project must include non-empty id and title"),
      (!(asStr? project.status).any projectStatusValues.contains,
        "Invalid data: project status must be a valid value"),
      (!isValidIsoTimestamp project.createdAt || !isValidIsoTimestamp project.updatedAt,
        "Invalid data: project createdAt/updatedAt must be valid ISO timestamps"),
      (isInvalidIsoTimestamp project.deletedAt,
        "Invalid data: project deletedAt must be a valid ISO timestamp when present"),
      (isInvalidIsoTimestamp project.purgedAt,
        "Invalid data: project purgedAt must be a valid ISO timestamp when present")]).or
    ((validateProjectPropValues project).map fun valueError => s!"Invalid data: project {project.id}: {valueError}")

def validateSection (activeProjectIds : List String) (sec : Section) : Option String :=
  let projectId := (asStr? sec.projectId).getD ""
  firstFailure
    [((asStr? sec.projectId).isNone || (asStr? sec.title).isNone,
      "Invalid data: each section must be an object with string id, projectId, and title"),
      (!isValidIsoTimestamp sec.createdAt || !isValidIsoTimestamp sec.updatedAt,
        "Invalid data: section createdAt/updatedAt must be valid ISO timestamps"),
      (isInvalidIsoTimestamp sec.deletedAt,
        "Invalid data: section deletedAt must be a valid ISO timestamp when present"),
      (isNullish sec.deletedAt && !(asStr? sec.projectId).any activeProjectIds.contains,
        s!"Invalid data: live section {sec.id} references missing or deleted project {projectId}")]

def validateArea (area : Area) : Option String :=
  firstFailure
    [((asStr? area.name).isNone, "Invalid data: each area must be an object with string id and name"),
      (!isValidIsoTimestamp area.createdAt, "Invalid data: area createdAt must be a valid ISO timestamp"),
      (!isValidIsoTimestamp area.updatedAt, "Invalid data: area updatedAt must be a valid ISO timestamp"),
      (isInvalidIsoTimestamp area.deletedAt,
        "Invalid data: area deletedAt must be a valid ISO timestamp when present")]

/-- A value that is there and is not a text. -/
def isNotText (value : Option Json) : Bool := !isNullish value && (asStr? value).isNone

def validatePerson (person : Person) : Option String :=
  firstFailure
    [((asStr? person.name).isNone, "Invalid data: each person must be an object with string id and name"),
      (trim person.id == "" || (asStr? person.name).any (trim · == ""),
        "Invalid data: each person must include non-empty id and name"),
      (isNotText person.note, "Invalid data: person note must be a string when present"),
      (isNotText person.referenceLink, "Invalid data: person referenceLink must be a string when present"),
      (!isValidIsoTimestamp person.createdAt, "Invalid data: person createdAt must be a valid ISO timestamp"),
      (!isValidIsoTimestamp person.updatedAt, "Invalid data: person updatedAt must be a valid ISO timestamp"),
      (isInvalidIsoTimestamp person.deletedAt,
        "Invalid data: person deletedAt must be a valid ISO timestamp when present")]

/-! ### References -/

/-- `typeof value === 'string' ? value.trim() : ''`. -/
def trimmedText (value : Option Json) : String := ((asStr? value).map trim).getD ""

def activeIds {α : Type} [MergeableEntity α] (items : List α) : List String :=
  (items.filter fun item => isNullish (MergeableEntity.syncMeta item).deletedAt).map fun item =>
    (MergeableEntity.syncMeta item).id

/-- The project and the section of a task that is not deleted. -/
def validateTaskContainer (data : AppData) (task : Task) : Option String :=
  let projectId := trimmedText task.projectId
  let sectionId := trimmedText task.sectionId
  let sec := (JsMap.ofItems (fun sec : Section => sec.id) data.sections).get? sectionId
  let project := (JsMap.ofItems (fun project : Project => project.id) data.projects).get? projectId
  let sectionProjectId := (sec.bind fun sec => asStr? sec.projectId).getD ""
  if !isNullish task.deletedAt then none
  else if projectId != "" && !(activeIds data.projects).contains projectId then
    some s!"Invalid data: live task {task.id} references missing or deleted project {projectId}"
  else if sectionId == "" then none
  else
    firstFailure
      [(projectId == "", s!"Invalid data: live task {task.id} must include projectId when sectionId is present"),
        (!(activeIds data.sections).contains sectionId &&
            !sec.any fun sec => isTaskSectionProjectArchiveReference task sec project,
          s!"Invalid data: live task {task.id} references missing or deleted section {sectionId}"),
        (sectionProjectId != projectId,
          s!"Invalid data: live task {task.id} section {sectionId} belongs to project {sectionProjectId}")]

def validateAreaReference (activeAreaIds : List String) (entity id : String) (deletedAt areaId : Option Json) :
    Option String :=
  let areaId := trimmedText areaId
  if isNullish deletedAt && areaId != "" && !activeAreaIds.contains areaId then
    some s!"Invalid data: live {entity} {id} references missing or deleted area {areaId}"
  else none

/-! ### The attachments that are still to be removed -/

def maxPendingRemoteDeleteAttempts : Nat := 100

/-- `Number.isInteger(attempts) && attempts >= 0`. -/
def isAttemptCount (value : Option Json) : Bool := (asNum? value).any fun n => n.den == 1 && decide (0 ≤ n)

def validatePendingRemoteDelete (item : Json) : Option String :=
  let cloudKey := trimmedText (prop (some item) "cloudKey")
  let title := prop (some item) "title"
  let attempts := prop (some item) "attempts"
  firstFailure
    [(!isObjectRecord item, "Invalid data: each pendingRemoteDeletes entry must be an object"),
      (cloudKey == "" || (normalizeAttachmentRelativePath cloudKey).isNone,
        "Invalid data: pendingRemoteDeletes.cloudKey must be a valid relative attachment path"),
      (title.isSome && (asStr? title).isNone,
        "Invalid data: pendingRemoteDeletes.title must be a string when present"),
      (attempts.isSome && !isAttemptCount attempts,
        "Invalid data: pendingRemoteDeletes.attempts must be a non-negative integer when present"),
      ((asNum? attempts).any fun n => decide ((maxPendingRemoteDeleteAttempts : Rat) < n),
        s!"Invalid data: pendingRemoteDeletes.attempts exceeds {maxPendingRemoteDeleteAttempts}"),
      (isInvalidIsoTimestamp (prop (some item) "lastErrorAt"),
        "Invalid data: pendingRemoteDeletes.lastErrorAt must be a valid ISO timestamp when present")]

def validateAttachmentSettings (maxItemsPerCollection : Nat) (settings : DocumentSettings) : Option String :=
  match lookup "attachments" settings.others with
  | none => none
  | some (.obj attachments) =>
    match lookup "pendingRemoteDeletes" attachments with
    | none => none
    | some (.arr items) =>
      if maxItemsPerCollection < items.length then
        some s!"Invalid data: pendingRemoteDeletes exceeds limit ({maxItemsPerCollection})"
      else items.findSome? validatePendingRemoteDelete
    | some _ => some "Invalid data: settings.attachments.pendingRemoteDeletes must be an array when present"
  | some _ => some "Invalid data: settings.attachments must be an object when present"

/-! ### The document -/

def exceedsLimit (maxItemsPerCollection length : Nat) (table : String) : Bool × String :=
  (decide (maxItemsPerCollection < length), s!"Invalid data: {table} exceeds limit ({maxItemsPerCollection})")

def validateLimits (maxItemsPerCollection : Nat) (data : AppData) : Option String :=
  firstFailure
    [exceedsLimit maxItemsPerCollection data.tasks.length "tasks",
      exceedsLimit maxItemsPerCollection data.projects.length "projects",
      exceedsLimit maxItemsPerCollection data.sections.length "sections",
      exceedsLimit maxItemsPerCollection data.areas.length "areas",
      exceedsLimit maxItemsPerCollection (data.people.getD []).length "people"]

/-- The error of a document, `none` where it is valid. -/
def validateAppData (maxItemsPerCollection : Nat) (data : AppData) : Option String :=
  (validateLimits maxItemsPerCollection data).or ((data.tasks.findSome? validateTask).or
    ((data.projects.findSome? validateProject).or
      ((data.sections.findSome? (validateSection (activeIds data.projects))).or
        ((data.tasks.findSome? (validateTaskContainer data)).or
          ((data.areas.findSome? validateArea).or (((data.people.getD []).findSome? validatePerson).or
            ((data.projects.findSome? fun project =>
                validateAreaReference (activeIds data.areas) "project" project.id project.deletedAt project.areaId).or
              ((data.tasks.findSome? fun task =>
                  validateAreaReference (activeIds data.areas) "task" task.id task.deletedAt task.areaId).or
                (validateAttachmentSettings maxItemsPerCollection data.settings)))))))))

end

end Mindwtr.Cloud
