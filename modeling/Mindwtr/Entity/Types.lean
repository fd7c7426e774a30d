import Mindwtr.Js.Record
import Mindwtr.Sync.Entity

/-!
# The synced entities

`types.ts`. A field holds whatever JSON value a document gives it, `none` where the property is
absent or `undefined`; properties the application does not know are kept in `extra`. `record` lists
the own properties that are not `undefined`, as a spread copies them and a signature reads them.
-/

namespace Mindwtr

open Mindwtr.Js Mindwtr.Sync

def definedEntries (fields : List (String × Option Json)) : List (String × Json) :=
  fields.filterMap fun f => f.2.map fun v => (f.1, v)

theorem mem_definedEntries {fields : List (String × Option Json)} {k : String} {v : Json} :
    (k, v) ∈ definedEntries fields ↔ (k, some v) ∈ fields := by
  simp only [definedEntries, List.mem_filterMap, Option.map_eq_some_iff, Prod.mk.injEq]
  constructor
  · rintro ⟨⟨k', w⟩, hmem, u, hu, rfl, rfl⟩
    exact hu ▸ hmem
  · intro h
    exact ⟨_, h, v, rfl, rfl, rfl⟩

theorem lookup_definedEntries {fields : List (String × Option Json)} {key : String} {value : Option Json}
    (hnodup : (fields.map Prod.fst).Nodup) (hmem : (key, value) ∈ fields) :
    lookup key (definedEntries fields) = value := by
  induction fields with
  | nil => cases hmem
  | cons f fields ih =>
    obtain ⟨k, v⟩ := f
    rw [List.map_cons, List.nodup_cons] at hnodup
    rw [definedEntries, lookup_fields_cons]
    rcases List.mem_cons.1 hmem with h | h
    · obtain ⟨rfl, rfl⟩ := Prod.mk.inj h
      rw [if_pos rfl]
      cases value with
      | some v => rfl
      | none =>
        rw [Option.none_or]
        by_contra hne
        obtain ⟨w, hw⟩ := Option.ne_none_iff_exists'.1 hne
        have hfield : (key, some w) ∈ fields := mem_definedEntries.1 (mem_of_lookup hw)
        exact hnodup.1 (List.mem_map.2 ⟨_, hfield, rfl⟩)
    · have hne : k ≠ key := by
        rintro rfl
        exact hnodup.1 (List.mem_map.2 ⟨_, h, rfl⟩)
      rw [if_neg hne]
      exact ih hnodup.2 h

def syncMetaFields (m : SyncMeta) : List (String × Option Json) :=
  [("id", some (.str m.id)), ("rev", m.rev), ("revBy", m.revBy), ("createdAt", m.createdAt),
    ("updatedAt", m.updatedAt), ("deletedAt", m.deletedAt)]

def extraFields (extra : List (String × Json)) : List (String × Option Json) :=
  extra.map fun e => (e.1, some e.2)

structure Attachment extends SyncMeta where
  kind : Option Json := none
  title : Option Json := none
  uri : Option Json := none
  mimeType : Option Json := none
  size : Option Json := none
  cloudKey : Option Json := none
  fileHash : Option Json := none
  contentRev : Option Json := none
  contentMtimeMs : Option Json := none
  contentSize : Option Json := none
  pendingContentUpload : Option Json := none
  localStatus : Option Json := none
  extra : List (String × Json) := []
deriving DecidableEq, Repr

def Attachment.fields (a : Attachment) : List (String × Option Json) :=
  syncMetaFields a.toSyncMeta ++
    [("kind", a.kind), ("title", a.title), ("uri", a.uri), ("mimeType", a.mimeType), ("size", a.size),
      ("cloudKey", a.cloudKey), ("fileHash", a.fileHash), ("contentRev", a.contentRev),
      ("contentMtimeMs", a.contentMtimeMs), ("contentSize", a.contentSize),
      ("pendingContentUpload", a.pendingContentUpload), ("localStatus", a.localStatus)] ++
    extraFields a.extra

def Attachment.toJson (a : Attachment) : Json := .obj (definedEntries a.fields)

def attachmentsJson (attachments : Option (List Attachment)) : Option Json :=
  attachments.map fun l => .arr (l.map Attachment.toJson)

structure Section extends SyncMeta where
  projectId : Option Json := none
  title : Option Json := none
  description : Option Json := none
  order : Option Json := none
  isCollapsed : Option Json := none
  deletedAtBeforeProjectArchive : Option Json := none
  projectArchivedAt : Option Json := none
  extra : List (String × Json) := []
deriving DecidableEq, Repr

def Section.fields (s : Section) : List (String × Option Json) :=
  syncMetaFields s.toSyncMeta ++
    [("projectId", s.projectId), ("title", s.title), ("description", s.description),
      ("order", s.order), ("isCollapsed", s.isCollapsed),
      ("deletedAtBeforeProjectArchive", s.deletedAtBeforeProjectArchive),
      ("projectArchivedAt", s.projectArchivedAt)] ++
    extraFields s.extra

structure Area extends SyncMeta where
  name : Option Json := none
  color : Option Json := none
  icon : Option Json := none
  order : Option Json := none
  extra : List (String × Json) := []
deriving DecidableEq, Repr

def Area.fields (a : Area) : List (String × Option Json) :=
  syncMetaFields a.toSyncMeta ++
    [("name", a.name), ("color", a.color), ("icon", a.icon), ("order", a.order)] ++
    extraFields a.extra

structure Person extends SyncMeta where
  name : Option Json := none
  note : Option Json := none
  referenceLink : Option Json := none
  extra : List (String × Json) := []
deriving DecidableEq, Repr

def Person.fields (p : Person) : List (String × Option Json) :=
  syncMetaFields p.toSyncMeta ++
    [("name", p.name), ("note", p.note), ("referenceLink", p.referenceLink)] ++
    extraFields p.extra

structure Project extends SyncMeta where
  title : Option Json := none
  status : Option Json := none
  color : Option Json := none
  order : Option Json := none
  tagIds : Option Json := none
  isSequential : Option Json := none
  sequentialScope : Option Json := none
  taskSortBy : Option Json := none
  isFocused : Option Json := none
  supportNotes : Option Json := none
  attachments : Option (List Attachment) := none
  startDate : Option Json := none
  dueDate : Option Json := none
  reviewAt : Option Json := none
  cancelledAt : Option Json := none
  areaId : Option Json := none
  areaTitle : Option Json := none
  purgedAt : Option Json := none
  extra : List (String × Json) := []
deriving DecidableEq, Repr

def Project.fields (p : Project) : List (String × Option Json) :=
  syncMetaFields p.toSyncMeta ++
    [("title", p.title), ("status", p.status), ("color", p.color), ("order", p.order),
      ("tagIds", p.tagIds), ("isSequential", p.isSequential), ("sequentialScope", p.sequentialScope),
      ("taskSortBy", p.taskSortBy), ("isFocused", p.isFocused), ("supportNotes", p.supportNotes),
      ("attachments", attachmentsJson p.attachments), ("startDate", p.startDate),
      ("dueDate", p.dueDate), ("reviewAt", p.reviewAt), ("cancelledAt", p.cancelledAt),
      ("areaId", p.areaId), ("areaTitle", p.areaTitle), ("purgedAt", p.purgedAt)] ++
    extraFields p.extra

structure Task extends SyncMeta where
  title : Option Json := none
  status : Option Json := none
  priority : Option Json := none
  energyLevel : Option Json := none
  assignedTo : Option Json := none
  taskMode : Option Json := none
  startTime : Option Json := none
  relativeStartOffset : Option Json := none
  dueDate : Option Json := none
  recurrence : Option Json := none
  showFutureRecurrence : Option Json := none
  pushCount : Option Json := none
  tags : Option Json := none
  contexts : Option Json := none
  checklist : Option Json := none
  description : Option Json := none
  textDirection : Option Json := none
  attachments : Option (List Attachment) := none
  location : Option Json := none
  projectId : Option Json := none
  sectionId : Option Json := none
  /-- Whether this property is an own one matters to the merge, even where it is `undefined`. -/
  viewSectionIds : Option (Option Json) := none
  areaId : Option Json := none
  isFocusedToday : Option Json := none
  timeEstimate : Option Json := none
  timeSpentMinutes : Option Json := none
  suppressMindwtrReminders : Option Json := none
  repeatReminderMinutes : Option Json := none
  reviewAt : Option Json := none
  completedAt : Option Json := none
  cancelledAt : Option Json := none
  statusBeforeProjectArchive : Option Json := none
  completedAtBeforeProjectArchive : Option Json := none
  isFocusedTodayBeforeProjectArchive : Option Json := none
  projectArchivedAt : Option Json := none
  purgedAt : Option Json := none
  order : Option Json := none
  orderNum : Option Json := none
  boardOrder : Option Json := none
  focusOrder : Option Json := none
  extra : List (String × Json) := []
deriving DecidableEq, Repr

def Task.fields (t : Task) : List (String × Option Json) :=
  syncMetaFields t.toSyncMeta ++
    [("title", t.title), ("status", t.status), ("priority", t.priority),
      ("energyLevel", t.energyLevel), ("assignedTo", t.assignedTo), ("taskMode", t.taskMode),
      ("startTime", t.startTime), ("relativeStartOffset", t.relativeStartOffset),
      ("dueDate", t.dueDate), ("recurrence", t.recurrence),
      ("showFutureRecurrence", t.showFutureRecurrence), ("pushCount", t.pushCount),
      ("tags", t.tags), ("contexts", t.contexts), ("checklist", t.checklist),
      ("description", t.description), ("textDirection", t.textDirection),
      ("attachments", attachmentsJson t.attachments), ("location", t.location),
      ("projectId", t.projectId), ("sectionId", t.sectionId),
      ("viewSectionIds", t.viewSectionIds.join), ("areaId", t.areaId),
      ("isFocusedToday", t.isFocusedToday), ("timeEstimate", t.timeEstimate),
      ("timeSpentMinutes", t.timeSpentMinutes),
      ("suppressMindwtrReminders", t.suppressMindwtrReminders),
      ("repeatReminderMinutes", t.repeatReminderMinutes), ("reviewAt", t.reviewAt),
      ("completedAt", t.completedAt), ("cancelledAt", t.cancelledAt),
      ("statusBeforeProjectArchive", t.statusBeforeProjectArchive),
      ("completedAtBeforeProjectArchive", t.completedAtBeforeProjectArchive),
      ("isFocusedTodayBeforeProjectArchive", t.isFocusedTodayBeforeProjectArchive),
      ("projectArchivedAt", t.projectArchivedAt), ("purgedAt", t.purgedAt), ("order", t.order),
      ("orderNum", t.orderNum), ("boardOrder", t.boardOrder), ("focusOrder", t.focusOrder)] ++
    extraFields t.extra

/-! ### As merge candidates -/

theorem id_mem_fields (m : SyncMeta) (rest : List (String × Option Json)) :
    ("id", Json.str m.id) ∈ definedEntries (syncMetaFields m ++ rest) :=
  mem_definedEntries.2 (List.mem_append_left _ (by simp [syncMetaFields]))

instance : MergeableEntity Attachment where
  syncMeta a := a.toSyncMeta
  setCreatedAt c a := { a with createdAt := c }
  record a := definedEntries a.fields
  id_mem_record a := by rw [Attachment.fields, List.append_assoc]; exact id_mem_fields _ _
  syncMeta_setCreatedAt _ _ := rfl

instance : MergeableEntity Section where
  syncMeta s := s.toSyncMeta
  setCreatedAt c s := { s with createdAt := c }
  record s := definedEntries s.fields
  id_mem_record s := by rw [Section.fields, List.append_assoc]; exact id_mem_fields _ _
  syncMeta_setCreatedAt _ _ := rfl

instance : MergeableEntity Area where
  syncMeta a := a.toSyncMeta
  setCreatedAt c a := { a with createdAt := c }
  record a := definedEntries a.fields
  id_mem_record a := by rw [Area.fields, List.append_assoc]; exact id_mem_fields _ _
  syncMeta_setCreatedAt _ _ := rfl

instance : MergeableEntity Person where
  syncMeta p := p.toSyncMeta
  setCreatedAt c p := { p with createdAt := c }
  record p := definedEntries p.fields
  id_mem_record p := by rw [Person.fields, List.append_assoc]; exact id_mem_fields _ _
  syncMeta_setCreatedAt _ _ := rfl

instance : MergeableEntity Project where
  syncMeta p := p.toSyncMeta
  setCreatedAt c p := { p with createdAt := c }
  record p := definedEntries p.fields
  id_mem_record p := by rw [Project.fields, List.append_assoc]; exact id_mem_fields _ _
  syncMeta_setCreatedAt _ _ := rfl

instance : MergeableEntity Task where
  syncMeta t := t.toSyncMeta
  setCreatedAt c t := { t with createdAt := c }
  record t := definedEntries t.fields
  id_mem_record t := by rw [Task.fields, List.append_assoc]; exact id_mem_fields _ _
  syncMeta_setCreatedAt _ _ := rfl

end Mindwtr
