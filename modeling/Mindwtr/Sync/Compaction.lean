import Mindwtr.Entity.Types
import Mindwtr.Js.Equality
import Mindwtr.Js.Map
import Mindwtr.Sync.Merge
import Mindwtr.Sync.Revision

/-!
# Compacted tombstones

`tombstone-compaction.ts`. A purged task or project keeps its conflict metadata and the neutral values
its type needs; on the device that purged it, also the files that are still to be removed. A section
of a purged project becomes a tombstone of the same time. A tombstone that still held other values
takes a repair revision.

Where the code compares two values by their JSON text, the values themselves are compared here; the
order of an attachment's own properties, which the text also shows, is not kept.
-/

namespace Mindwtr.Sync

open Mindwtr.Js

def sqliteNeutralFalseFields : List String :=
  ["showFutureRecurrence", "isFocusedToday", "suppressMindwtrReminders", "isSequential", "isFocused",
    "isCollapsed"]

def neutralZeroFields : List String := ["pushCount"]

/-- The value is `null`, `false` or zero where the compacted record has nothing. -/
def isNeutralValue (key : String) (item : Json) : Bool :=
  item == .null || (item == .bool false && sqliteNeutralFalseFields.contains key) ||
    (item == .num 0 && neutralZeroFields.contains key)

def hasValuesOutsideCompactedTombstone (value compacted : List (String × Json)) : Bool :=
  value.any fun (key, item) =>
    !((lookup key compacted).isNone && isNeutralValue key item) && lookup key compacted != some item

/-- `revision` of an entity that a repair changed. -/
def withNextRevision (m : SyncMeta) : SyncMeta :=
  { m with rev := some (.num (nextRevision m.rev)), revBy := some (.str syncRepairRevBy) }

/-- The conflict metadata of a tombstone that was purged at this time. -/
def purgedMeta (m : SyncMeta) (purgedAt : Option Json) : SyncMeta :=
  { m with createdAt := m.updatedAt, deletedAt := purgedAt }

def deletedTitle : Json := .str "(deleted)"

def compactPurgedTaskTombstone (task : Task) : Task :=
  if truthy task.purgedAt then
    { toSyncMeta := purgedMeta task.toSyncMeta task.purgedAt
      title := some deletedTitle
      status := some (.str "inbox")
      tags := some (.arr [])
      contexts := some (.arr [])
      purgedAt := task.purgedAt }
  else task

def compactPurgedProjectTombstone (project : Project) : Project :=
  if truthy project.purgedAt then
    { toSyncMeta := purgedMeta project.toSyncMeta project.purgedAt
      title := some deletedTitle
      status := some (.str "active")
      color := some (.str "#6B7280")
      order := some (.num 0)
      tagIds := some (.arr [])
      purgedAt := project.purgedAt }
  else project

def compactAttachmentCleanupMetadata (attachments : Option (List Attachment)) :
    Option (List Attachment) :=
  let files := ((attachments.getD []).filter fun a => a.kind == some (.str "file") && truthy a.uri).map
    fun a =>
      ({ id := a.id, createdAt := a.createdAt, updatedAt := a.updatedAt, kind := a.kind,
         title := some (.str ""), uri := a.uri } : Attachment)
  if files.isEmpty then none else some files

def compactPurgedTaskForLocalStorage (task : Task) : Task :=
  if truthy task.purgedAt then
    { compactPurgedTaskTombstone task with
      attachments := compactAttachmentCleanupMetadata task.attachments }
  else task

def compactPurgedProjectForLocalStorage (project : Project) : Project :=
  if truthy project.purgedAt then
    { compactPurgedProjectTombstone project with
      attachments := compactAttachmentCleanupMetadata project.attachments }
  else project

def hasUncompactedPurgedTaskTombstone (task : Task) (preserveLocalCleanupMetadata : Bool) : Bool :=
  truthy task.purgedAt &&
    let localCompacted := compactPurgedTaskForLocalStorage task
    let compacted :=
      if preserveLocalCleanupMetadata ∨ task.attachments = localCompacted.attachments then localCompacted
      else compactPurgedTaskTombstone task
    hasValuesOutsideCompactedTombstone (definedEntries task.fields) (definedEntries compacted.fields)

def hasUncompactedPurgedProjectTombstone (project : Project) (preserveLocalCleanupMetadata : Bool) :
    Bool :=
  truthy project.purgedAt &&
    let localCompacted := compactPurgedProjectForLocalStorage project
    let compacted :=
      if preserveLocalCleanupMetadata ∨ project.attachments = localCompacted.attachments then
        localCompacted
      else compactPurgedProjectTombstone project
    hasValuesOutsideCompactedTombstone (definedEntries project.fields) (definedEntries compacted.fields)

/-! ### Sections of purged projects -/

def compactPurgedProjectSectionTombstone (s : Section) (purgedAt : Json) : Section :=
  { id := s.id
    rev := s.rev
    revBy := s.revBy
    createdAt := some purgedAt
    updatedAt := some purgedAt
    deletedAt := some purgedAt
    projectId := s.projectId
    title := some (.str "")
    order := some (.num 0) }

/-- The purge times of the purged projects. -/
def purgedAtByProjectId (projects : List Project) : JsMap Json :=
  JsMap.ofList (projects.filterMap fun project =>
    (project.purgedAt.filter Json.truthy).map fun purgedAt => (project.id, purgedAt))

def compactSectionForPurgedProject (purgedAt : JsMap Json) (stampCompactionRevision : Bool)
    (s : Section) : Section :=
  match (asStr? s.projectId).bind purgedAt.get? with
  | none => s
  | some purgedAt =>
    let compacted := compactPurgedProjectSectionTombstone s purgedAt
    if stampCompactionRevision ∧
        hasValuesOutsideCompactedTombstone (definedEntries s.fields) (definedEntries compacted.fields) then
      { compacted with toSyncMeta := withNextRevision compacted.toSyncMeta }
    else compacted

def compactSectionsForPurgedProjects (sections : List Section) (projects : List Project)
    (stampCompactionRevision : Bool) : List Section :=
  sections.map (compactSectionForPurgedProject (purgedAtByProjectId projects) stampCompactionRevision)

end Mindwtr.Sync
