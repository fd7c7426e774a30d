import Mindwtr.Entity.Types

/-!
# What counts as the same content

The comparison normalisers of `sync-signatures.ts`: the view of an entity under which two versions
are compared for a content conflict. A default and an absent value look the same, the order of
attachments and their transfer state do not count, and an entity is always shown under its own id.
-/

namespace Mindwtr

open Mindwtr.Js Mindwtr.Sync

/-- `#6B7280`. -/
def defaultColor : Json := .str "#6B7280"

def normalizeOptionalArrayForComparison (value : Option Json) : Option Json :=
  match value with
  | some (.arr (v :: rest)) => some (.arr (v :: rest))
  | _ => none

/-- `value ? true : undefined`. -/
def trueOrAbsent (value : Option Json) : Option Json := if truthy value then some (.bool true) else none

/-- `value ? value : undefined`. -/
def truthyOrAbsent (value : Option Json) : Option Json := if truthy value then value else none

def canonicalizeStringMapForComparison (value : Option Json) : Option Json :=
  match value with
  | some (.obj entries) =>
    let kept := sortKeys (entries.filter fun e =>
      match e.2 with
      | .str s => s != ""
      | _ => false)
    if kept.isEmpty then none else some (.obj (propertyOrder kept))
  | _ => none

def normalizeProjectSequentialScope (value : Option Json) : Option Json :=
  if value = some (.str "section") ∨ value = some (.str "project") then value else none

def projectTaskSortByValues : List String :=
  ["due", "start", "review", "title", "timeEstimate", "created", "created-desc", "completed"]

def normalizeProjectTaskSortBy (value : Option Json) : Option Json :=
  match value with
  | some (.str s) => if s ∈ projectTaskSortByValues then value else none
  | _ => none

section
variable [Runtime]

def normalizeAttachmentForContentComparison (attachment : Attachment) : Json :=
  if attachment.kind = some (.str "link") then
    .obj (definedEntries [("id", some (.str attachment.id)), ("kind", attachment.kind),
      ("title", attachment.title), ("uri", attachment.uri), ("deletedAt", attachment.deletedAt)])
  else
    .obj (definedEntries [("id", some (.str attachment.id)), ("kind", attachment.kind),
      ("title", attachment.title), ("deletedAt", attachment.deletedAt)])

def normalizeAttachmentsForContentComparison (attachments : Option (List Attachment)) : Option Json :=
  match attachments with
  | none => none
  | some [] => none
  | some l =>
    let sorted := l.insertionSort fun left right => Runtime.localeCompare left.id right.id ≤ 0
    some (.arr (sorted.map normalizeAttachmentForContentComparison))

def taskView (task : Task) : List (String × Json) :=
  let hasRecurrence := task.recurrence ≠ none ∧ task.recurrence ≠ some .null
  definedEntries <|
    [("id", some (.str task.id)), ("title", task.title),
      ("status", if task.status = some (.str "inbox") then none else task.status),
      ("priority", task.priority), ("energyLevel", task.energyLevel),
      ("assignedTo", task.assignedTo), ("taskMode", task.taskMode), ("startTime", task.startTime),
      ("relativeStartOffset", task.relativeStartOffset), ("dueDate", task.dueDate),
      ("recurrence", task.recurrence), ("tags", normalizeOptionalArrayForComparison task.tags),
      ("contexts", normalizeOptionalArrayForComparison task.contexts),
      ("checklist", normalizeOptionalArrayForComparison task.checklist),
      ("description", task.description), ("textDirection", task.textDirection),
      ("attachments", if truthy task.deletedAt then none
        else normalizeAttachmentsForContentComparison task.attachments),
      ("location", task.location), ("projectId", task.projectId), ("sectionId", task.sectionId),
      ("viewSectionIds", canonicalizeStringMapForComparison task.viewSectionIds.join),
      ("areaId", task.areaId), ("isFocusedToday", trueOrAbsent task.isFocusedToday),
      ("timeEstimate", task.timeEstimate),
      ("timeSpentMinutes", truthyOrAbsent task.timeSpentMinutes),
      ("showFutureRecurrence", if hasRecurrence then trueOrAbsent task.showFutureRecurrence else none),
      ("suppressMindwtrReminders", trueOrAbsent task.suppressMindwtrReminders),
      ("pushCount", if task.pushCount = some (.num 0) then none else task.pushCount),
      ("repeatReminderMinutes", truthyOrAbsent task.repeatReminderMinutes),
      ("reviewAt", task.reviewAt), ("completedAt", task.completedAt),
      ("cancelledAt", task.cancelledAt), ("deletedAt", task.deletedAt)]

def projectView (project : Project) : List (String × Json) :=
  definedEntries <|
    ({ project with
      tagIds := normalizeOptionalArrayForComparison project.tagIds
      attachments := none
      isSequential := trueOrAbsent project.isSequential
      sequentialScope :=
        if truthy project.isSequential ∧
            normalizeProjectSequentialScope project.sequentialScope = some (.str "section") then
          some (.str "section")
        else none
      taskSortBy := normalizeProjectTaskSortBy project.taskSortBy
      isFocused := trueOrAbsent project.isFocused
      status := if project.status = some (.str "active") then none else project.status
      color := if project.color = some defaultColor then none else project.color } : Project).fields ++
    [("attachments", if truthy project.deletedAt then none
      else normalizeAttachmentsForContentComparison project.attachments)]

def sectionView (s : Section) : List (String × Json) :=
  definedEntries { s with isCollapsed := trueOrAbsent s.isCollapsed }.fields

def areaView (area : Area) : List (String × Json) :=
  definedEntries
    { area with
      color := if area.color = some defaultColor then none else area.color
      order := none }.fields

/-- `text?.trim() || undefined`. -/
def trimmedOrAbsent (value : Option Json) : Option Json :=
  (asStr? value).bind fun s => if isBlank s then none else some (.str (trim s))

def personView (person : Person) : List (String × Json) :=
  definedEntries
    { person with
      note := trimmedOrAbsent person.note
      referenceLink := trimmedOrAbsent person.referenceLink }.fields

def normalizeTaskForContentComparison : ComparisonNormalizer Task where
  view := taskView
  id_mem_view _ := mem_definedEntries.2 (List.mem_cons_self)

def normalizeProjectForContentComparison : ComparisonNormalizer Project where
  view := projectView
  id_mem_view p := by
    rw [projectView, Project.fields, List.append_assoc, List.append_assoc]
    exact id_mem_fields p.toSyncMeta _

def normalizeSectionForContentComparison : ComparisonNormalizer Section where
  view := sectionView
  id_mem_view s := by
    rw [sectionView, Section.fields, List.append_assoc]
    exact id_mem_fields s.toSyncMeta _

def normalizeAreaForContentComparison : ComparisonNormalizer Area where
  view := areaView
  id_mem_view a := by
    rw [areaView, Area.fields, List.append_assoc]
    exact id_mem_fields a.toSyncMeta _

def normalizePersonForContentComparison : ComparisonNormalizer Person where
  view := personView
  id_mem_view p := by
    rw [personView, Person.fields, List.append_assoc]
    exact id_mem_fields p.toSyncMeta _

end

end Mindwtr
