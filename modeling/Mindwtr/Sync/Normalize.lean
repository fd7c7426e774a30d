import Mindwtr.Entity.Attachments
import Mindwtr.Entity.Comparison
import Mindwtr.Entity.TaskLoad
import Mindwtr.Sync.Compaction

/-!
# Entities on their way into a merge

The normalisers at the head of `mergeAppDataWithStats` (`sync-normalization.ts`, `people.ts`). They
hand back the object they were given when nothing changed; a value has no identity here, so that shows
only as the value itself.
-/

namespace Mindwtr.Sync

open Mindwtr.Js

/-! ### Revision metadata -/

def normalizeSyncMeta (m : SyncMeta) : SyncMeta :=
  { m with
    rev := if isValidRevision m.rev then some (.num (normalizeRevision m.rev)) else none
    revBy := (nonBlank m.revBy).map fun s => .str (trim s) }

/-- `normalizeRevisionMetadata` of each type. -/
def normalizeTaskRevision (t : Task) : Task := { t with toSyncMeta := normalizeSyncMeta t.toSyncMeta }
def normalizeProjectRevision (p : Project) : Project :=
  { p with toSyncMeta := normalizeSyncMeta p.toSyncMeta }
def normalizeSectionRevision (s : Section) : Section :=
  { s with toSyncMeta := normalizeSyncMeta s.toSyncMeta }
def normalizeAreaRevision (a : Area) : Area := { a with toSyncMeta := normalizeSyncMeta a.toSyncMeta }
def normalizePersonRevision (p : Person) : Person :=
  { p with toSyncMeta := normalizeSyncMeta p.toSyncMeta }

/-! ### Field values -/

/-- `value === true || value === 1`. -/
def normalizeSyncedBoolean (value : Option Json) : Bool :=
  value == some (.bool true) || value == some (.num 1)

/-- The strings of an array. -/
def normalizeStringArray (value : Option Json) : Json :=
  match value with
  | some (.arr items) => .arr (items.filter fun item => item.asStr?.isSome)
  | _ => .arr []

/-- `value ?? undefined`. -/
def presentOrAbsent (value : Option Json) : Option Json := value.filter (· != .null)

def projectStatusValues : List String := ["active", "someday", "waiting", "archived"]

/-- `value.replace(/\s+/g, " ")`. -/
def collapseWhiteSpace : List Char → List Char
  | [] => []
  | [c] => [if isTrimmed c then ' ' else c]
  | c :: d :: rest =>
    if isTrimmed c then
      if isTrimmed d then collapseWhiteSpace (d :: rest) else ' ' :: collapseWhiteSpace (d :: rest)
    else c :: collapseWhiteSpace (d :: rest)

def normalizePersonName (value : Option Json) : String :=
  match asStr? value with
  | some s => String.ofList (collapseWhiteSpace (trim s).toList)
  | none => ""

def normalizePersonNote (value : Option Json) : Option Json := trimmedOrAbsent value

def normalizePersonReferenceLink (value : Option Json) : Option Json :=
  (trimmedOrAbsent value).filter fun v => !((v.asStr?.getD "").toList.contains (Char.ofNat 0))

section
variable [Runtime]

def normalizeProjectStatusForMerge (value : Option Json) : String :=
  match asStr? value with
  | none => "active"
  | some s =>
    if s ∈ projectStatusValues then s
    else
      let lowered := trim (Runtime.toLowerCase s)
      if lowered ∈ projectStatusValues then lowered else "active"

/-! ### The normalisers -/

def normalizeSectionForSyncMerge (s : Section) : Section :=
  { s with deletedAtBeforeProjectArchive := presentOrAbsent s.deletedAtBeforeProjectArchive }

/-- The fields of a task that was not purged; a field that is not listed is dropped. -/
def taskMergeFields (t : Task) : Task :=
  { id := t.id
    title := t.title
    status := t.status
    priority := t.priority
    energyLevel := t.energyLevel
    assignedTo := t.assignedTo
    taskMode := t.taskMode
    startTime := t.startTime
    relativeStartOffset := t.relativeStartOffset
    dueDate := t.dueDate
    recurrence := t.recurrence
    pushCount := t.pushCount
    tags := some (normalizeStringArray t.tags)
    contexts := some (normalizeStringArray t.contexts)
    checklist := t.checklist
    description := t.description
    textDirection := t.textDirection
    attachments := normalizeAttachmentsForSyncMerge t.attachments
    location := t.location
    projectId := t.projectId
    sectionId := normalizeOptionalString t.sectionId
    viewSectionIds := t.viewSectionIds
    areaId := t.areaId
    isFocusedToday := some (.bool (normalizeSyncedBoolean t.isFocusedToday))
    timeEstimate := t.timeEstimate
    timeSpentMinutes := t.timeSpentMinutes
    showFutureRecurrence :=
      if (presentOrAbsent t.recurrence).isSome ∧ normalizeSyncedBoolean t.showFutureRecurrence then
        some (.bool true)
      else none
    suppressMindwtrReminders := some (.bool (normalizeSyncedBoolean t.suppressMindwtrReminders))
    repeatReminderMinutes := t.repeatReminderMinutes
    reviewAt := t.reviewAt
    completedAt := t.completedAt
    cancelledAt := t.cancelledAt
    statusBeforeProjectArchive := t.statusBeforeProjectArchive
    completedAtBeforeProjectArchive := presentOrAbsent t.completedAtBeforeProjectArchive
    isFocusedTodayBeforeProjectArchive := presentOrAbsent t.isFocusedTodayBeforeProjectArchive
    projectArchivedAt := t.projectArchivedAt
    rev := t.rev
    revBy := t.revBy
    createdAt := t.createdAt
    updatedAt := t.updatedAt
    deletedAt := t.deletedAt
    purgedAt := t.purgedAt
    order := t.order
    orderNum := t.orderNum
    boardOrder := t.boardOrder
    focusOrder := t.focusOrder }

def normalizeTaskForSyncMerge (task : Task) (nowIso : String) (preserveLocalCleanupMetadata : Bool) :
    Task :=
  if truthy task.purgedAt then
    let compacted :=
      if preserveLocalCleanupMetadata then compactPurgedTaskForLocalStorage task
      else compactPurgedTaskTombstone task
    if hasUncompactedPurgedTaskTombstone task preserveLocalCleanupMetadata then
      { compacted with toSyncMeta := withNextRevision compacted.toSyncMeta }
    else compacted
  else taskMergeFields (normalizeTaskForLoad task nowIso)

def normalizeProjectForSyncMerge (project : Project) (preserveLocalCleanupMetadata : Bool) : Project :=
  if truthy project.purgedAt then
    let compacted :=
      if preserveLocalCleanupMetadata then compactPurgedProjectForLocalStorage project
      else compactPurgedProjectTombstone project
    if hasUncompactedPurgedProjectTombstone project preserveLocalCleanupMetadata then
      { compacted with toSyncMeta := withNextRevision compacted.toSyncMeta }
    else compacted
  else
    { project with
      status := some (.str (normalizeProjectStatusForMerge project.status))
      color := (normalizeOptionalString project.color).or (some defaultColor)
      tagIds := some (normalizeStringArray project.tagIds)
      isSequential := some (.bool (normalizeSyncedBoolean project.isSequential))
      sequentialScope := normalizeProjectSequentialScope project.sequentialScope
      taskSortBy := normalizeProjectTaskSortBy project.taskSortBy
      isFocused := some (.bool (normalizeSyncedBoolean project.isFocused))
      attachments := normalizeAttachmentsForSyncMerge project.attachments
      dueDate := normalizeOptionalString project.dueDate
      startDate := normalizeOptionalString project.startDate
      reviewAt := normalizeOptionalString project.reviewAt
      cancelledAt := normalizeOptionalString project.cancelledAt
      areaId := normalizeOptionalString project.areaId
      areaTitle := normalizeOptionalString project.areaTitle }

/-- The first of the two times that is not blank, else the time of the merge. -/
def firstTime (a b : Option Json) (nowIso : String) : Option Json :=
  ((normalizeOptionalString a).or (normalizeOptionalString b)).or (some (.str nowIso))

def normalizeAreaForSyncMerge (area : Area) (nowIso : String) : Area :=
  { area with
    color := normalizeOptionalString area.color
    icon := normalizeOptionalString area.icon
    order := finiteNumber area.order
    createdAt := firstTime area.createdAt area.updatedAt nowIso
    updatedAt := firstTime area.updatedAt area.createdAt nowIso }

def normalizePersonForSyncMerge (person : Person) (nowIso : String) : Person :=
  { person with
    name := some (.str (normalizePersonName person.name))
    note := normalizePersonNote person.note
    referenceLink := normalizePersonReferenceLink person.referenceLink
    createdAt := firstTime person.createdAt person.updatedAt nowIso
    updatedAt := firstTime person.updatedAt person.createdAt nowIso }

end

end Mindwtr.Sync
