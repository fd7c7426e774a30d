import Mindwtr.Entity.RecurrenceReload
import Mindwtr.Js.SortedJson
import Mindwtr.Store.TaskLifecycle
import Mindwtr.Sync.Normalize
import Mindwtr.Sync.RepairAgain

/-!
# Normalising a normalised task

`normalizeTaskForSyncMerge` and then `normalizeRevisionMetadata`, on an object with the names of its properties. The
second pass hands back the object the first one made, unless a load of the first changes what the next one reads
(`staysNormalized_iff`): a status that names what every object inherits, a recurrence that does not load to itself, a
clock whose local day goes back.
-/

namespace Mindwtr.Sync

open Mindwtr.Js Mindwtr.Store

/-! ### Tasks as objects -/

/-- A task with the names of its own properties, those that are `undefined` among them. -/
structure TaskObject where
  names : List String
  fields : Task
  /-- The name of the inherited property that the status is; `fields` then has no status. -/
  inherited : Option String := none
deriving DecidableEq

/-- What a normaliser returns, and whether it is the object the normaliser was given. -/
structure Handed where
  task : TaskObject
  same : Bool
deriving DecidableEq

/-- `sameShallowRecord` of two tasks. A nested value that was normalised to an equal one is the same value, since the
normaliser of its field hands it back. -/
def sameTask (input candidate : TaskObject) : Bool :=
  input.names.length == candidate.names.length && candidate.names.all input.names.contains &&
    input.fields == candidate.fields && input.inherited == candidate.inherited

/-- The properties of the literal that `normalizeTaskForSyncMerge` builds. -/
def taskMergeNames : List String :=
  ["id", "title", "status", "priority", "energyLevel", "assignedTo", "taskMode", "startTime", "relativeStartOffset",
    "dueDate", "recurrence", "pushCount", "tags", "contexts", "checklist", "description", "textDirection",
    "attachments", "location", "projectId", "sectionId", "viewSectionIds", "areaId", "isFocusedToday", "timeEstimate",
    "timeSpentMinutes", "showFutureRecurrence", "suppressMindwtrReminders", "repeatReminderMinutes", "reviewAt",
    "completedAt", "cancelledAt", "statusBeforeProjectArchive", "completedAtBeforeProjectArchive",
    "isFocusedTodayBeforeProjectArchive", "projectArchivedAt", "rev", "revBy", "createdAt", "updatedAt", "deletedAt",
    "purgedAt", "order", "orderNum", "boardOrder", "focusOrder"]

/-- The properties of a tombstone. -/
def tombstoneNames (preserveLocalCleanupMetadata : Bool) : List String :=
  ["id", "title", "status", "tags", "contexts", "rev", "revBy", "createdAt", "updatedAt", "deletedAt", "purgedAt"] ++
    if preserveLocalCleanupMetadata then ["attachments"] else []

def hasNormalizedRevisionMetadata (task : TaskObject) : Bool :=
  (if isValidRevision task.fields.rev then
    (asNum? task.fields.rev).all (· ≤ (maxSyncRevision : Rat)) && task.names.contains "rev"
  else !task.names.contains "rev") &&
    match asStr? task.fields.revBy with
    | some s => trim s == s && s != ""
    | none => !task.names.contains "revBy"

def normalizeRevisionMetadata (task : TaskObject) : Handed :=
  if hasNormalizedRevisionMetadata task then ⟨task, true⟩
  else
    let kept (name : String) : Bool :=
      (name != "rev" || isValidRevision task.fields.rev) && (name != "revBy" || (nonBlank task.fields.revBy).isSome)
    ⟨{ task with names := task.names.filter kept, fields := normalizeTaskRevision task.fields }, false⟩

section
variable [Runtime]

/-- The name under which the lookup of a legacy status finds what every object inherits; `normalizeTaskStatus` then
returns that, a truthy value that is no status. -/
def inheritedStatus (value : Option Json) : Option String :=
  (asStr? value).bind fun s =>
    let lowered := trim (Runtime.toLowerCase s)
    if s ∈ taskStatusValues ∨ lowered ∈ taskStatusValues ∨ (legacyStatusMap.lookup lowered).isSome ∨
        (JsValue.inherited lowered).isUndefined then
      none
    else some lowered

def compactedTask (task : TaskObject) (preserveLocalCleanupMetadata : Bool) : TaskObject :=
  let compacted :=
    if preserveLocalCleanupMetadata then compactPurgedTaskForLocalStorage task.fields
    else compactPurgedTaskTombstone task.fields
  let uncompacted :=
    task.inherited.isSome || hasUncompactedPurgedTaskTombstone task.fields preserveLocalCleanupMetadata
  { names := tombstoneNames preserveLocalCleanupMetadata
    fields :=
      if uncompacted then { compacted with toSyncMeta := withNextRevision compacted.toSyncMeta } else compacted }

/-- `candidate` of `normalizeTaskForSyncMerge`. What is no status is neither finished nor archived, as the status
that stands for it below. -/
def mergeCandidate (task : TaskObject) (nowIso : String) : TaskObject :=
  let normalized := taskMergeFields (normalizeTaskForLoad task.fields nowIso)
  let inherited := inheritedStatus task.fields.status
  let fields := if inherited.isSome then { normalized with status := none } else normalized
  let kept (name : String) : Bool :=
    (name != "revBy" || fields.revBy.isSome) && (name != "viewSectionIds" || fields.viewSectionIds.isSome)
  { names := taskMergeNames.filter kept, fields, inherited }

def TaskObject.normalizeTaskForSyncMerge (task : TaskObject) (nowIso : String) (preserveLocalCleanupMetadata : Bool) :
    Except JsError Handed :=
  if truthy task.fields.purgedAt then .ok ⟨compactedTask task preserveLocalCleanupMetadata, false⟩
  else
    (loadRecurrence task.fields.recurrence).map fun _ =>
      let candidate := mergeCandidate task nowIso
      if sameTask task candidate then ⟨task, true⟩ else ⟨candidate, false⟩

/-- The two normalisers at the head of a merge. -/
def normalizeForSync (task : TaskObject) (nowIso : String) (preserveLocalCleanupMetadata : Bool) :
    Except JsError Handed :=
  (task.normalizeTaskForSyncMerge nowIso preserveLocalCleanupMetadata).map fun merged =>
    let normalized := normalizeRevisionMetadata merged.task
    ⟨normalized.task, merged.same && normalized.same⟩

/-- The second pass changes no name and no value, and builds no new object, except for a tombstone, which is built
anew each time. -/
def StaysNormalized (task : TaskObject) (nowIso nowIso' : String) (preserveLocalCleanupMetadata : Bool) : Prop :=
  ∃ once, normalizeForSync task nowIso preserveLocalCleanupMetadata = .ok once ∧
    normalizeForSync once.task nowIso' preserveLocalCleanupMetadata =
      .ok ⟨once.task, !truthy task.fields.purgedAt⟩

/-- A task in Today that starts after the local day of the second pass, though not after that of the first one. -/
def LeavesFocus (task : Task) (nowIso nowIso' : String) : Prop :=
  normalizeSyncedBoolean task.isFocusedToday = true ∧
    isTaskFinished (some (.str (normalizeTaskStatus task.status))) = false ∧
    isFutureStart task (dateParse nowIso) = false ∧ isFutureStart task (dateParse nowIso') = true

/-! ### Field values -/

omit [Runtime] in
theorem normalizeRevision_again (value : Option Json) :
    normalizeRevision (some (.num (normalizeRevision value))) = normalizeRevision value := by
  have hden : ((normalizeRevision value : Nat) : Rat).den = 1 := Rat.den_natCast _
  have hnum : ((normalizeRevision value : Nat) : Rat).num = normalizeRevision value := Rat.num_natCast _
  rw [normalizeRevision.eq_def (some _)]
  simp only [hden, hnum, Int.natCast_nonneg, and_self, if_true, Int.toNat_natCast]
  exact min_eq_left (normalizeRevision_le value)

omit [Runtime] in
theorem isValidRevision_natCast (n : Nat) : isValidRevision (some (.num n)) = true := by
  simp [isValidRevision, Rat.den_natCast, Rat.num_natCast]

omit [Runtime] in
theorem trimmedText_again (value : Option Json) :
    (nonBlank ((nonBlank value).map fun s => .str (trim s))).map (fun s => Json.str (trim s)) =
      (nonBlank value).map fun s => .str (trim s) := by
  cases h : nonBlank value with
  | none => rfl
  | some s =>
    have hblank : isBlank (trim s) = false := by
      rw [isBlank, trim_trim]
      exact (nonBlank_eq_some h).2
    simp [nonBlank, hblank, trim_trim]

omit [Runtime] in
theorem normalizeSyncMeta_again (m : SyncMeta) : normalizeSyncMeta (normalizeSyncMeta m) = normalizeSyncMeta m := by
  unfold normalizeSyncMeta
  simp only [SyncMeta.mk.injEq, true_and, and_true]
  refine ⟨?_, trimmedText_again m.revBy⟩
  by_cases h : isValidRevision m.rev = true
  · rw [if_pos h, if_pos (isValidRevision_natCast _), normalizeRevision_again]
  · rw [if_neg h]
    rfl

omit [Runtime] in
theorem normalizeSyncedBoolean_bool (b : Bool) : normalizeSyncedBoolean (some (.bool b)) = b := by
  cases b <;> decide

omit [Runtime] in
theorem normalizeStringArray_again (value : Option Json) :
    normalizeStringArray (some (normalizeStringArray value)) = normalizeStringArray value := by
  have harr (items : List Json) : normalizeStringArray (some (.arr items)) =
      .arr (items.filter fun item => item.asStr?.isSome) := rfl
  rw [normalizeStringArray.eq_def value]
  split
  · simp [harr]
  · rfl

omit [Runtime] in
theorem presentOrAbsent_again (value : Option Json) : presentOrAbsent (presentOrAbsent value) = presentOrAbsent value := by
  simp [presentOrAbsent, Option.filter_filter]

theorem safeAttachmentUri_again {limit : Nat} {value : Option Json} {uri : String}
    (h : safeAttachmentUri limit value = some uri) : safeAttachmentUri limit (some (.str uri)) = some uri := by
  unfold safeAttachmentUri at h
  split at h
  · cases h
  · rename_i s _
    simp only at h
    split_ifs at h with hempty htraversal
    obtain rfl := Option.some.inj h
    rw [not_or] at hempty
    simpa [safeAttachmentUri, asStr?, trim_trim, htraversal] using hempty

theorem normalizeAttachmentForSyncMerge_again (a : Attachment) :
    normalizeAttachmentForSyncMerge (normalizeAttachmentForSyncMerge a) = normalizeAttachmentForSyncMerge a := by
  by_cases hfile : a.kind = some (.str "file")
  · have huri : (sanitizeAttachmentUriForSyncMerge (some (.str ((sanitizeAttachmentUriForSyncMerge a.uri).getD "")))).getD
        "" = (sanitizeAttachmentUriForSyncMerge a.uri).getD "" := by
      cases h : sanitizeAttachmentUriForSyncMerge a.uri with
      | none => rfl
      | some uri => rw [Option.getD_some, sanitizeAttachmentUriForSyncMerge, safeAttachmentUri_again h, Option.getD_some]
    have hkey : sanitizeAttachmentCloudKeyForSyncMerge (sanitizeAttachmentCloudKeyForSyncMerge a.cloudKey) =
        sanitizeAttachmentCloudKeyForSyncMerge a.cloudKey := by
      cases hkey : sanitizeAttachmentCloudKeyForSyncMerge a.cloudKey with
      | none => rfl
      | some value =>
        unfold sanitizeAttachmentCloudKeyForSyncMerge at hkey
        split at hkey
        · rename_i key hsafe
          split_ifs at hkey with hpattern
          obtain rfl := Option.some.inj hkey
          simp [sanitizeAttachmentCloudKeyForSyncMerge, hpattern, safeAttachmentUri_again hsafe]
        · cases hkey
    have hhash : sanitizeAttachmentFileHashForSyncMerge (sanitizeAttachmentFileHashForSyncMerge a.fileHash) =
        sanitizeAttachmentFileHashForSyncMerge a.fileHash := by
      by_cases h : isSha256Hex a.fileHash = true
      · simp [sanitizeAttachmentFileHashForSyncMerge, h]
      · simp [sanitizeAttachmentFileHashForSyncMerge, h]
    simp [normalizeAttachmentForSyncMerge, hfile, huri, hkey, hhash]
  · simp [normalizeAttachmentForSyncMerge, hfile]

theorem normalizeAttachmentsForSyncMerge_again (attachments : Option (List Attachment)) :
    normalizeAttachmentsForSyncMerge (normalizeAttachmentsForSyncMerge attachments) =
      normalizeAttachmentsForSyncMerge attachments := by
  cases attachments with
  | none => rfl
  | some l => simp [normalizeAttachmentsForSyncMerge, normalizeAttachmentForSyncMerge_again]

theorem normalizeTaskStatus_mem (value : Option Json) : normalizeTaskStatus value ∈ taskStatusValues := by
  have hlegacy (lowered : String) : (legacyStatusMap.lookup lowered).getD "inbox" ∈ taskStatusValues := by
    simp only [legacyStatusMap, List.lookup]
    repeat' split
    all_goals decide
  unfold normalizeTaskStatus
  split
  · decide
  · split
    · assumption
    · simp only
      split
      · assumption
      · exact hlegacy _

theorem normalizeTaskStatus_again (value : Option Json) :
    normalizeTaskStatus (some (.str (normalizeTaskStatus value))) = normalizeTaskStatus value := by
  have hmem := normalizeTaskStatus_mem value
  generalize normalizeTaskStatus value = status at hmem
  simp [normalizeTaskStatus, hmem]

theorem inheritedStatus_of_mem {status : String} (h : status ∈ taskStatusValues) :
    inheritedStatus (some (.str status)) = none := by
  simp [inheritedStatus, h]

omit [Runtime] in
theorem normalizeRelativeStartOffset_again (value : Option Json) :
    normalizeRelativeStartOffset (normalizeRelativeStartOffset value) = normalizeRelativeStartOffset value := by
  cases h : normalizeRelativeStartOffset value with
  | none => rfl
  | some offset =>
    unfold normalizeRelativeStartOffset at h
    split at h
    · split at h
      · split_ifs at h with hvalid
        obtain rfl := Option.some.inj h
        simp [normalizeRelativeStartOffset, lookup, hvalid]
      · cases h
    · cases h

omit [Runtime] in
theorem normalizeRepeatReminderMinutes_again (value : Option Json) :
    normalizeRepeatReminderMinutes (normalizeRepeatReminderMinutes value) = normalizeRepeatReminderMinutes value := by
  cases h : normalizeRepeatReminderMinutes value with
  | none => rfl
  | some minutes =>
    unfold normalizeRepeatReminderMinutes at h
    split at h
    · split_ifs at h with hmem
      obtain rfl := Option.some.inj h
      simp [normalizeRepeatReminderMinutes, hmem]
    · cases h

omit [Runtime] in
theorem normalizeTimeSpentMinutes_again (value : Option Json) :
    normalizeTimeSpentMinutes (normalizeTimeSpentMinutes value) = normalizeTimeSpentMinutes value := by
  cases h : normalizeTimeSpentMinutes value with
  | none => rfl
  | some minutes =>
    unfold normalizeTimeSpentMinutes at h
    split at h
    · rename_i n
      split_ifs at h with hpos
      obtain rfl := Option.some.inj h
      have hround := mathRound_intCast (min (mathRound n) timeSpentMaxMinutes)
      have hmin : ¬min (mathRound n) timeSpentMaxMinutes ≤ 0 := by
        have hmax : (0 : Int) < timeSpentMaxMinutes := by decide
        omega
      simp only [normalizeTimeSpentMinutes, hround, if_neg hmin, min_assoc, min_self]
    · cases h

omit [Runtime] in
theorem preserveShallowIdentity_cases (input candidate : Option Json) :
    preserveShallowIdentity input candidate = input ∨ preserveShallowIdentity input candidate = candidate := by
  unfold preserveShallowIdentity
  split
  · split_ifs
    · exact .inl rfl
    · exact .inr rfl
  · exact .inr rfl

omit [Runtime] in
/-- A value that was kept, or that is normalised, is kept. -/
theorem preserveShallowIdentity_again {normalize : Option Json → Option Json} {value : Option Json}
    (h : normalize (normalize value) = normalize value) :
    preserveShallowIdentity (preserveShallowIdentity value (normalize value))
        (normalize (preserveShallowIdentity value (normalize value))) =
      preserveShallowIdentity value (normalize value) := by
  rcases preserveShallowIdentity_cases value (normalize value) with hkept | hnew
  · rw [hkept, hkept]
  · rw [hnew, h]
    exact (preserveShallowIdentity_cases _ _).elim id id

omit [Runtime] in
theorem finiteNumber_again (value : Option Json) : finiteNumber (finiteNumber value) = finiteNumber value := by
  unfold finiteNumber
  cases asNum? value <;> rfl

omit [Runtime] in
theorem finiteNumber_or (a b : Option Json) :
    finiteNumber ((finiteNumber a).or (finiteNumber b)) = (finiteNumber a).or (finiteNumber b) := by
  cases h : finiteNumber a with
  | none => rw [Option.none_or, finiteNumber_again]
  | some n => rw [Option.some_or, ← h, finiteNumber_again]

/-! ### The values after one pass -/

/-- The values of a task that was not purged, after one pass. -/
def mergedFields (task : Task) (nowIso : String) : Task :=
  normalizeTaskRevision (taskMergeFields (normalizeTaskForLoad task nowIso))

theorem dateParse_loadedCreatedAt {nowIso : String} (hnow : (dateParse nowIso).isSome = true) (task : Task) :
    (dateParse (loadedCreatedAt task nowIso)).isSome = true := by
  unfold loadedCreatedAt
  split
  · split
    · assumption
    · exact hnow
  · exact hnow

theorem loadedCreatedAt_of_date {task : Task} {created : String} (h : task.createdAt = some (.str created))
    (hdate : (dateParse created).isSome = true) (nowIso : String) : loadedCreatedAt task nowIso = created := by
  simp [loadedCreatedAt, h, Json.asStr?, hdate]

/-- The time of the last change is the time of the creation, or a date that is not before it. -/
theorem loadedUpdatedAt_cases {nowIso : String} (hnow : (dateParse nowIso).isSome = true) (task : Task) :
    ∃ updatedMs, dateParse (loadedUpdatedAt task nowIso) = some updatedMs ∧
      (dateParse (loadedCreatedAt task nowIso)).any (updatedMs < ·) = false := by
  obtain ⟨createdMs, hcreated⟩ := Option.isSome_iff_exists.1 (dateParse_loadedCreatedAt hnow task)
  have hsame : ∃ updatedMs, dateParse (loadedCreatedAt task nowIso) = some updatedMs ∧
      (dateParse (loadedCreatedAt task nowIso)).any (updatedMs < ·) = false := ⟨createdMs, hcreated, by simp [hcreated]⟩
  unfold loadedUpdatedAt
  simp only
  split
  · exact hsame
  · split
    · exact hsame
    · rename_i updatedMs hupdated
      split
      · exact hsame
      · exact ⟨updatedMs, hupdated, Bool.eq_false_iff.2 ‹_›⟩

theorem loadedUpdatedAt_of_date {task : Task} {created updated : String} {updatedMs : Int}
    (hcreatedAt : task.createdAt = some (.str created)) (hdate : (dateParse created).isSome = true)
    (hupdatedAt : task.updatedAt = some (.str updated)) (hupdated : dateParse updated = some updatedMs)
    (hafter : (dateParse created).any (updatedMs < ·) = false) (nowIso : String) :
    loadedUpdatedAt task nowIso = updated := by
  simp [loadedUpdatedAt, loadedCreatedAt_of_date hcreatedAt hdate, hupdatedAt, Json.asStr?, hupdated, hafter]

theorem rev_merged (task : Task) (nowIso : String) : (mergedFields task nowIso).rev =
    some (.num (normalizeRevision (if isValidRevision task.rev then task.rev else some (.num 0)))) := by
  have hvalid : isValidRevision (if isValidRevision task.rev then task.rev else some (.num 0)) = true := by
    split
    · assumption
    · decide
  exact if_pos hvalid

theorem isValidRevision_merged (task : Task) (nowIso : String) :
    isValidRevision (mergedFields task nowIso).rev = true := by
  rw [rev_merged]
  exact isValidRevision_natCast _

section
variable {task : Task} {nowIso : String}

theorem normalizeTaskFields_merged (hnow : (dateParse nowIso).isSome = true)
    (hrecurrence : preserveShallowIdentity (mergedFields task nowIso).recurrence
      (normalizeRecurrenceForLoad (mergedFields task nowIso).recurrence) = (mergedFields task nowIso).recurrence)
    (nowIso' : String) : normalizeTaskFields (mergedFields task nowIso) nowIso' = mergedFields task nowIso := by
  obtain ⟨updatedMs, hupdated, hafter⟩ := loadedUpdatedAt_cases hnow task
  have hcreatedAt : (mergedFields task nowIso).createdAt = some (.str (loadedCreatedAt task nowIso)) := rfl
  have hdate := dateParse_loadedCreatedAt hnow task
  have hupdatedAt : (mergedFields task nowIso).updatedAt = some (.str (loadedUpdatedAt task nowIso)) := rfl
  have hcreated := loadedCreatedAt_of_date hcreatedAt hdate nowIso'
  have hchanged := loadedUpdatedAt_of_date hcreatedAt hdate hupdatedAt hupdated hafter nowIso'
  have hstatus : some (.str (normalizeTaskStatus (mergedFields task nowIso).status)) =
      (mergedFields task nowIso).status :=
    congrArg (fun status => some (Json.str status)) (normalizeTaskStatus_again task.status)
  have hproject : normalizeOptionalString (mergedFields task nowIso).projectId = (mergedFields task nowIso).projectId :=
    normalizeOptionalString_again task.projectId
  have harea : (if (mergedFields task nowIso).projectId.isSome then none
      else normalizeOptionalString (mergedFields task nowIso).areaId) = (mergedFields task nowIso).areaId := by
    show (if (normalizeOptionalString task.projectId).isSome then none
      else normalizeOptionalString (if (normalizeOptionalString task.projectId).isSome then none
        else normalizeOptionalString task.areaId)) = if (normalizeOptionalString task.projectId).isSome then none
          else normalizeOptionalString task.areaId
    split
    · rfl
    · exact normalizeOptionalString_again task.areaId
  have horder : loadedOrder (mergedFields task nowIso) = loadedOrder task := by
    show (finiteNumber (loadedOrder task)).or (finiteNumber (loadedOrder task)) = loadedOrder task
    rw [loadedOrder, finiteNumber_or, Option.or_self]
  have hrepeat : normalizeRepeatReminderMinutes (mergedFields task nowIso).repeatReminderMinutes =
      (mergedFields task nowIso).repeatReminderMinutes := normalizeRepeatReminderMinutes_again _
  have hspent : normalizeTimeSpentMinutes (mergedFields task nowIso).timeSpentMinutes =
      (mergedFields task nowIso).timeSpentMinutes := normalizeTimeSpentMinutes_again _
  have hoffset : (if truthy (mergedFields task nowIso).dueDate then
      preserveShallowIdentity (mergedFields task nowIso).relativeStartOffset
        (normalizeRelativeStartOffset (mergedFields task nowIso).relativeStartOffset)
      else none) = (mergedFields task nowIso).relativeStartOffset := by
    by_cases hdue : truthy task.dueDate = true
    · have hvalue : (mergedFields task nowIso).relativeStartOffset = preserveShallowIdentity task.relativeStartOffset
          (normalizeRelativeStartOffset task.relativeStartOffset) := if_pos hdue
      have hdue' : truthy (mergedFields task nowIso).dueDate = true := hdue
      rw [if_pos hdue', hvalue]
      exact preserveShallowIdentity_again (normalizeRelativeStartOffset_again _)
    · have hvalue : (mergedFields task nowIso).relativeStartOffset = none := if_neg hdue
      rw [hvalue]
      exact if_neg hdue
  have hrev : (if isValidRevision (mergedFields task nowIso).rev then (mergedFields task nowIso).rev
      else some (.num 0)) = (mergedFields task nowIso).rev := by
    by_cases hvalid : isValidRevision (mergedFields task nowIso).rev = true
    · exact if_pos hvalid
    · exact absurd (isValidRevision_merged task nowIso) hvalid
  have hrevBy : (nonBlank (mergedFields task nowIso).revBy).map (fun s => .str (trim s)) =
      (mergedFields task nowIso).revBy := trimmedText_again _
  have hpush : (if (asNum? (mergedFields task nowIso).pushCount).isSome ∨ truthy (mergedFields task nowIso).purgedAt then
      (mergedFields task nowIso).pushCount else some (.num 0)) = (mergedFields task nowIso).pushCount := by
    by_cases hcount : (asNum? task.pushCount).isSome = true ∨ truthy task.purgedAt = true
    · have hvalue : (mergedFields task nowIso).pushCount = task.pushCount := if_pos hcount
      rw [hvalue]
      exact if_pos hcount
    · have hvalue : (mergedFields task nowIso).pushCount = some (.num 0) := if_neg hcount
      rw [hvalue]
      exact if_pos (.inl rfl)
  simp only [normalizeTaskFields, hcreated, ← hcreatedAt, hchanged, ← hupdatedAt, hstatus, hproject, harea, horder,
    hrecurrence, hrepeat, hspent, hoffset, hrev, hrevBy, hpush]
  rfl

omit [Runtime] in
theorem truthy_of_normalizeSyncedBoolean {value : Option Json} (h : normalizeSyncedBoolean value = true) :
    truthy value = true := by
  rw [normalizeSyncedBoolean, Bool.or_eq_true, beq_iff_eq, beq_iff_eq] at h
  rcases h with rfl | rfl <;> decide

/-- Whether the task is in Today after the pass. -/
theorem isFocusedToday_merged : (mergedFields task nowIso).isFocusedToday =
    some (.bool (normalizeSyncedBoolean task.isFocusedToday &&
      !isTaskFinished (some (.str (normalizeTaskStatus task.status))) && !isFutureStart task (dateParse nowIso))) := by
  show some (Json.bool (normalizeSyncedBoolean
    (if (truthy (if isTaskFinished (some (.str (normalizeTaskStatus task.status))) then some (.bool false)
        else task.isFocusedToday) && isFutureStart task (dateParse nowIso)) = true then some (.bool false)
      else if isTaskFinished (some (.str (normalizeTaskStatus task.status))) then some (.bool false)
        else task.isFocusedToday))) = _
  cases isTaskFinished (some (.str (normalizeTaskStatus task.status))) with
  | true => simp [Json.truthy, normalizeSyncedBoolean_bool]
  | false =>
    cases isFutureStart task (dateParse nowIso) with
    | false => simp
    | true =>
      by_cases hfocused : truthy task.isFocusedToday = true
      · simp [hfocused, normalizeSyncedBoolean_bool]
      · have hsynced : normalizeSyncedBoolean task.isFocusedToday = false :=
          Bool.eq_false_iff.2 fun h => hfocused (truthy_of_normalizeSyncedBoolean h)
        simp [hfocused, hsynced]

theorem normalizeTaskLifecycleFields_merged :
    normalizeTaskLifecycleFields (mergedFields task nowIso) = mergedFields task nowIso := by
  have hidem := normalizeTaskLifecycleFields_idem (normalizeTaskFields task nowIso)
  have hcancelled : (normalizeTaskLifecycleFields (mergedFields task nowIso)).cancelledAt =
      (mergedFields task nowIso).cancelledAt := by
    have h := congrArg Task.cancelledAt hidem
    exact h
  have hcompleted : (normalizeTaskLifecycleFields (mergedFields task nowIso)).completedAt =
      (mergedFields task nowIso).completedAt := by
    have h := congrArg Task.completedAt hidem
    exact h
  have hfocused : (normalizeTaskLifecycleFields (mergedFields task nowIso)).isFocusedToday =
      (mergedFields task nowIso).isFocusedToday := by
    by_cases hfinished : isTaskFinished (some (.str (normalizeTaskStatus task.status))) = true
    · rw [isFocusedToday_merged, hfinished, Bool.not_true, Bool.and_false, Bool.false_and]
      exact if_pos hfinished
    · exact if_neg hfinished
  have horder : (normalizeTaskLifecycleFields (mergedFields task nowIso)).focusOrder =
      (mergedFields task nowIso).focusOrder := by
    by_cases hfinished : isTaskFinished (some (.str (normalizeTaskStatus task.status))) = true
    · have hlifecycle : (normalizeTaskLifecycleFields (normalizeTaskFields task nowIso)).focusOrder = none :=
        if_pos hfinished
      have hnone : (mergedFields task nowIso).focusOrder = none := by
        show (if _ then none else (normalizeTaskLifecycleFields (normalizeTaskFields task nowIso)).focusOrder) = none
        rw [hlifecycle, ite_self]
      rw [hnone]
      exact if_pos hfinished
    · exact if_neg hfinished
  calc normalizeTaskLifecycleFields (mergedFields task nowIso)
      = { mergedFields task nowIso with
          cancelledAt := (normalizeTaskLifecycleFields (mergedFields task nowIso)).cancelledAt
          completedAt := (normalizeTaskLifecycleFields (mergedFields task nowIso)).completedAt
          isFocusedToday := (normalizeTaskLifecycleFields (mergedFields task nowIso)).isFocusedToday
          focusOrder := (normalizeTaskLifecycleFields (mergedFields task nowIso)).focusOrder } := rfl
    _ = mergedFields task nowIso := by rw [hcancelled, hcompleted, hfocused, horder]

theorem deferFutureFocus_merged_iff (nowIso' : String) :
    deferFutureFocus (mergedFields task nowIso) nowIso' = mergedFields task nowIso ↔ ¬LeavesFocus task nowIso nowIso' := by
  have hdeferred : (truthy (mergedFields task nowIso).isFocusedToday &&
      isFutureStart (mergedFields task nowIso) (dateParse nowIso')) = true ↔ LeavesFocus task nowIso nowIso' := by
    have hstart : isFutureStart (mergedFields task nowIso) (dateParse nowIso') =
        isFutureStart task (dateParse nowIso') := rfl
    rw [isFocusedToday_merged, hstart, LeavesFocus]
    simp [Json.truthy, and_assoc]
  constructor
  · intro h hleaves
    have hfocused : some (Json.bool false) = (mergedFields task nowIso).isFocusedToday :=
      (if_pos (hdeferred.2 hleaves)).symm.trans (congrArg Task.isFocusedToday h)
    obtain ⟨hfocus, hopen, hstarted, -⟩ := hleaves
    rw [isFocusedToday_merged, hfocus, hopen, hstarted] at hfocused
    cases hfocused
  · intro hstays
    have hno := mt hdeferred.1 hstays
    simp only [deferFutureFocus, if_neg hno]

theorem taskMergeFields_merged : taskMergeFields (mergedFields task nowIso) = mergedFields task nowIso := by
  have htags : some (normalizeStringArray (mergedFields task nowIso).tags) = (mergedFields task nowIso).tags :=
    congrArg some (normalizeStringArray_again _)
  have hcontexts : some (normalizeStringArray (mergedFields task nowIso).contexts) =
      (mergedFields task nowIso).contexts := congrArg some (normalizeStringArray_again _)
  have hattachments : normalizeAttachmentsForSyncMerge (mergedFields task nowIso).attachments =
      (mergedFields task nowIso).attachments := normalizeAttachmentsForSyncMerge_again _
  have hsection : normalizeOptionalString (mergedFields task nowIso).sectionId =
      (mergedFields task nowIso).sectionId := normalizeOptionalString_again _
  have hbool {value : Option Json} {b : Bool} (h : value = some (.bool b)) :
      some (.bool (normalizeSyncedBoolean value)) = value := by
    rw [h, normalizeSyncedBoolean_bool]
  have hfocused := hbool (@isFocusedToday_merged _ task nowIso)
  have hsuppressed : some (.bool (normalizeSyncedBoolean (mergedFields task nowIso).suppressMindwtrReminders)) =
      (mergedFields task nowIso).suppressMindwtrReminders := hbool rfl
  have hfuture : (if (presentOrAbsent (mergedFields task nowIso).recurrence).isSome ∧
      normalizeSyncedBoolean (mergedFields task nowIso).showFutureRecurrence then some (.bool true) else none) =
        (mergedFields task nowIso).showFutureRecurrence := by
    by_cases hshown : (presentOrAbsent (mergedFields task nowIso).recurrence).isSome = true ∧
        normalizeSyncedBoolean task.showFutureRecurrence = true
    · have hvalue : (mergedFields task nowIso).showFutureRecurrence = some (.bool true) := if_pos hshown
      rw [hvalue]
      exact if_pos ⟨hshown.1, rfl⟩
    · have hvalue : (mergedFields task nowIso).showFutureRecurrence = none := if_neg hshown
      rw [hvalue]
      exact if_neg fun h => absurd h.2 (by decide)
  have hcompleted : presentOrAbsent (mergedFields task nowIso).completedAtBeforeProjectArchive =
      (mergedFields task nowIso).completedAtBeforeProjectArchive := presentOrAbsent_again _
  have hbefore : presentOrAbsent (mergedFields task nowIso).isFocusedTodayBeforeProjectArchive =
      (mergedFields task nowIso).isFocusedTodayBeforeProjectArchive := presentOrAbsent_again _
  simp only [taskMergeFields, htags, hcontexts, hattachments, hsection, hfocused, hsuppressed, hfuture, hcompleted,
    hbefore]
  rfl

theorem mergedFields_again (hnow : (dateParse nowIso).isSome = true) {nowIso' : String}
    (hrecurrence : preserveShallowIdentity (mergedFields task nowIso).recurrence
      (normalizeRecurrenceForLoad (mergedFields task nowIso).recurrence) = (mergedFields task nowIso).recurrence)
    (hstays : ¬LeavesFocus task nowIso nowIso') :
    taskMergeFields (normalizeTaskForLoad (mergedFields task nowIso) nowIso') = mergedFields task nowIso := by
  rw [normalizeTaskForLoad, normalizeTaskFields_merged hnow hrecurrence, normalizeTaskLifecycleFields_merged,
    (deferFutureFocus_merged_iff nowIso').2 hstays, taskMergeFields_merged]

theorem stays_of_again {nowIso' : String}
    (h : mergedFields (mergedFields task nowIso) nowIso' = mergedFields task nowIso) : ¬LeavesFocus task nowIso nowIso' := by
  rintro ⟨hfocus, hopen, hstarted, hlater⟩
  have hbefore : (mergedFields task nowIso).isFocusedToday = some (.bool true) := by
    rw [isFocusedToday_merged, hfocus, hopen, hstarted]
    rfl
  have hafter : (mergedFields (mergedFields task nowIso) nowIso').isFocusedToday = some (.bool false) := by
    have hstart : isFutureStart (mergedFields task nowIso) (dateParse nowIso') = true := hlater
    rw [isFocusedToday_merged, hstart, Bool.not_true, Bool.and_false]
  rw [h, hbefore] at hafter
  cases hafter

end

/-! ### The recurrence -/

theorem exists_toJson {value : Option Json} {json : Json} (h : normalizeRecurrenceForLoad value = some json) :
    ∃ l : LoadedRecurrence, json = l.toJson := by
  unfold normalizeRecurrenceForLoad at h
  split at h
  · rename_i s
    by_cases hblank : isBlank s = true
    · rw [recurrenceOfString, if_pos (beq_iff_eq.1 hblank)] at h
      cases h
    · have hne : trim s ≠ "" := fun hempty => hblank (beq_iff_eq.mpr hempty)
      by_cases hword : trim s ∈ recurrenceRules
      · rw [recurrenceOfString, if_neg hne, if_pos hword] at h
        exact ⟨.mk (trim s) none none none none none none none none none none none none none, (Option.some.inj h).symm⟩
      · cases hrule : (parseRRuleString (trim s)).rule with
        | none =>
          simp only [recurrenceOfString, hne, hword, if_false, hrule] at h
          cases h
        | some rule =>
          rw [recurrenceOfString_rule hword hrule (Bool.eq_false_iff.2 hblank)] at h
          exact ⟨_, (Option.some.inj h).symm⟩
  · rw [recurrenceOfRecord_eq] at h
    obtain ⟨rule, -, rfl⟩ := Option.map_eq_some_iff.1 h
    exact ⟨_, rfl⟩
  · cases h

omit [Runtime] in
/-- The fields of a normal form are what is read of it. -/
theorem fields_eq_reads (l : LoadedRecurrence) :
    l.fields = (l.fields.map Prod.fst).map fun key => (key, lookup key (definedEntries l.fields)) := by
  rw [List.map_map]
  refine Eq.trans (List.map_id _).symm (List.map_congr_left fun f hf => ?_)
  exact Prod.ext rfl (lookup_toJson hf).symm

omit [Runtime] in
theorem toJson_eq_of_reads {l l' : LoadedRecurrence}
    (h : ∀ key, lookup key (definedEntries l.fields) = lookup key (definedEntries l'.fields)) : l.toJson = l'.toJson := by
  have hkeys : l.fields.map Prod.fst = l'.fields.map Prod.fst := rfl
  have hfields : l.fields = l'.fields := by
    rw [fields_eq_reads l, fields_eq_reads l', hkeys]
    exact List.map_congr_left fun key _ => by rw [h key]
  rw [LoadedRecurrence.toJson, LoadedRecurrence.toJson, hfields]

theorem loadRecurrence_ok {value loaded : Option Json} (h : loadRecurrence value = .ok loaded) :
    loaded = normalizeRecurrenceForLoad value := by
  unfold loadRecurrence at h
  simp only at h
  split at h
  · cases h
  · exact (Except.ok.inj h).symm

theorem loadRecurrence_congr {as bs : List (String × Json)} (h : ∀ key, lookup key as = lookup key bs) :
    loadRecurrence (some (.obj as)) = loadRecurrence (some (.obj bs)) := by
  simp only [loadRecurrence, normalizeRecurrenceForLoad_congr h, Option.bind_some, Json.asObj?, h]
  rfl

omit [Runtime] in
theorem nodup_definedEntries {fields : List (String × Option Json)} (h : (fields.map Prod.fst).Nodup) :
    ((definedEntries fields).map Prod.fst).Nodup := by
  refine List.Nodup.sublist ?_ h
  induction fields with
  | nil => exact .slnil
  | cons f fields ih =>
    obtain ⟨key, value⟩ := f
    have hrest := ih (List.nodup_cons.1 h).2
    cases value with
    | none => exact hrest.cons key
    | some v => exact hrest.cons_cons key

omit [Runtime] in
theorem reads_of_same {value : Option Json} {l : LoadedRecurrence}
    (h : preserveShallowIdentity value (some l.toJson) = value) :
    value = some l.toJson ∨ ∃ entries, value = some (.obj entries) ∧
      ∀ key, lookup key entries = lookup key (definedEntries l.fields) := by
  by_cases heq : some l.toJson = value
  · exact .inl heq.symm
  · obtain ⟨before, after, hbefore, hafter, hsame⟩ := preserveShallowIdentity_eq heq h
    obtain rfl := Json.obj.inj (Option.some.inj hafter)
    have hnodup : ((definedEntries l.fields).map Prod.fst).Nodup :=
      nodup_definedEntries (by simp [LoadedRecurrence.fields])
    exact .inr ⟨before, hbefore, lookup_eq_of_sameShallowRecord hnodup hsame⟩

/-- A recurrence stays what the pass left in the task, for one more pass. -/
def RecurrenceStays (value : Option Json) : Prop :=
  ∃ loaded, loadRecurrence value = .ok loaded ∧ ∃ again,
    loadRecurrence (preserveShallowIdentity value loaded) = .ok again ∧
      preserveShallowIdentity (preserveShallowIdentity value loaded) again = preserveShallowIdentity value loaded

theorem recurrenceStays_iff [RuleTextLaws] (value : Option Json) : RecurrenceStays value ↔ LoadsTheSame value := by
  rw [← loads_again_iff]
  constructor
  · rintro ⟨loaded, hload, again, hagain, hsame⟩
    refine ⟨loaded, hload, ?_⟩
    cases loaded with
    | none => rfl
    | some json =>
      obtain ⟨l, rfl⟩ := exists_toJson (loadRecurrence_ok hload).symm
      rcases preserveShallowIdentity_cases value (some l.toJson) with hkept | hnew
      · rcases reads_of_same hkept with rfl | ⟨entries, rfl, hreads⟩
        · exact hload
        · rw [LoadedRecurrence.toJson, ← loadRecurrence_congr hreads]
          exact hload
      · rw [hnew] at hagain hsame
        cases again with
        | none => rw [hagain, show none = some l.toJson from hsame]
        | some json' =>
          obtain ⟨l', rfl⟩ := exists_toJson (loadRecurrence_ok hagain).symm
          rcases reads_of_same hsame with heq | ⟨entries, hentries, hreads⟩
          · rw [hagain, heq]
          · obtain rfl := Json.obj.inj (Option.some.inj hentries)
            rw [hagain, toJson_eq_of_reads hreads]
  · rintro ⟨loaded, hload, hagain⟩
    refine ⟨loaded, hload, loaded, ?_, ?_⟩
    · rcases preserveShallowIdentity_cases value loaded with hkept | hnew
      · rw [hkept, hload]
      · rw [hnew, hagain]
    · rcases preserveShallowIdentity_cases value loaded with hkept | hnew
      · rw [hkept, hkept]
      · rw [hnew]
        exact (preserveShallowIdentity_cases loaded loaded).elim id id

/-! ### The object of the first pass -/

section
variable {task : TaskObject} {nowIso : String}

theorem mergeCandidate_toSyncMeta : (mergeCandidate task nowIso).fields.toSyncMeta =
    (taskMergeFields (normalizeTaskForLoad task.fields nowIso)).toSyncMeta := by
  unfold mergeCandidate
  simp only
  split <;> rfl

theorem mergeCandidate_viewSectionIds :
    (mergeCandidate task nowIso).fields.viewSectionIds = task.fields.viewSectionIds := by
  unfold mergeCandidate
  simp only
  split <;> rfl

theorem purgedAt_candidate : (mergeCandidate task nowIso).fields.purgedAt = task.fields.purgedAt := by
  unfold mergeCandidate
  simp only
  split <;> rfl

theorem isValidRevision_candidate : isValidRevision (mergeCandidate task nowIso).fields.rev = true := by
  rw [mergeCandidate_toSyncMeta]
  show isValidRevision (if isValidRevision task.fields.rev then task.fields.rev else some (.num 0)) = true
  split
  · assumption
  · decide

theorem revBy_candidate : (mergeCandidate task nowIso).fields.revBy =
    (nonBlank task.fields.revBy).map fun s => .str (trim s) := by
  rw [mergeCandidate_toSyncMeta]
  rfl

/-- Who made the last revision is a trimmed text, or is absent. -/
theorem revBy_candidate_cases : (mergeCandidate task nowIso).fields.revBy = none ∨
    ∃ s, (mergeCandidate task nowIso).fields.revBy = some (.str s) ∧ trim s = s ∧ s ≠ "" := by
  rw [revBy_candidate]
  cases h : nonBlank task.fields.revBy with
  | none => exact .inl rfl
  | some s =>
    refine .inr ⟨trim s, rfl, trim_trim s, fun hempty => ?_⟩
    have hblank := (nonBlank_eq_some h).2
    rw [isBlank, hempty] at hblank
    cases hblank

omit [Runtime] in
theorem nodup_taskMergeNames : taskMergeNames.Nodup := by decide +kernel

theorem names_candidate : (mergeCandidate task nowIso).names = taskMergeNames.filter fun name =>
    (name != "revBy" || ((nonBlank task.fields.revBy).map fun s => Json.str (trim s)).isSome) &&
      (name != "viewSectionIds" || task.fields.viewSectionIds.isSome) := by
  rw [← @revBy_candidate _ task nowIso, ← @mergeCandidate_viewSectionIds _ task nowIso]
  rfl

theorem nodup_candidate : (mergeCandidate task nowIso).names.Nodup := by
  rw [names_candidate]
  exact nodup_taskMergeNames.filter _

theorem rev_mem_candidate : "rev" ∈ (mergeCandidate task nowIso).names := by
  rw [names_candidate]
  exact List.mem_filter.2 ⟨by decide, by simp⟩

theorem revBy_mem_candidate_iff :
    "revBy" ∈ (mergeCandidate task nowIso).names ↔ (mergeCandidate task nowIso).fields.revBy.isSome = true := by
  rw [names_candidate, revBy_candidate, List.mem_filter]
  simp [taskMergeNames]

omit [Runtime] in
theorem sameTask_iff {input candidate : TaskObject} (hnodup : candidate.names.Nodup) :
    sameTask input candidate = true ↔
      input.names.Perm candidate.names ∧ input.fields = candidate.fields ∧ input.inherited = candidate.inherited := by
  simp only [sameTask, Bool.and_eq_true, beq_iff_eq, List.all_eq_true, List.contains_iff_mem, and_assoc]
  constructor
  · rintro ⟨hlen, hsub, hfields, hinherited⟩
    exact ⟨(keys_perm hnodup hsub hlen.le).symm, hfields, hinherited⟩
  · rintro ⟨hperm, hfields, hinherited⟩
    exact ⟨hperm.length_eq, fun name hname => hperm.mem_iff.2 hname, hfields, hinherited⟩

/-- What holds of the object between the two normalisers. -/
structure IsCandidate (task : TaskObject) (nowIso : String) (merged : TaskObject) : Prop where
  names : merged.names.Perm (mergeCandidate task nowIso).names
  fields : merged.fields = (mergeCandidate task nowIso).fields
  inherited : merged.inherited = (mergeCandidate task nowIso).inherited

omit [Runtime] in
theorem normalizeSyncMeta_eq_self {m : SyncMeta} (hvalid : isValidRevision m.rev = true)
    (hmax : (asNum? m.rev).all (· ≤ (maxSyncRevision : Rat)) = true)
    (hrevBy : m.revBy = none ∨ ∃ s, m.revBy = some (.str s) ∧ trim s = s ∧ s ≠ "") : normalizeSyncMeta m = m := by
  have hrev : (some (.num (normalizeRevision m.rev)) : Option Json) = m.rev := by
    generalize m.rev = rev at hvalid hmax
    unfold isValidRevision at hvalid
    split at hvalid
    · rename_i n
      simp only [Bool.and_eq_true, beq_iff_eq, decide_eq_true_eq] at hvalid
      obtain ⟨hden, hnum⟩ := hvalid
      have hn : ((n.num.toNat : Nat) : Rat) = n := by
        rw [← Rat.coe_int_num_of_den_eq_one hden, Rat.num_intCast, ← Int.cast_natCast, Int.toNat_of_nonneg hnum]
      have hle : n.num.toNat ≤ maxSyncRevision := by
        have hcast : ((n.num.toNat : Nat) : Rat) ≤ (maxSyncRevision : Nat) := by
          rw [hn]
          simpa [Json.asNum?] using hmax
        exact_mod_cast hcast
      simp only [normalizeRevision, hden, hnum, and_self, if_true, min_eq_left hle, hn]
    · cases hvalid
  have hby : (nonBlank m.revBy).map (fun s => Json.str (trim s)) = m.revBy := by
    rcases hrevBy with hnone | ⟨s, hs, htrim, hne⟩
    · rw [hnone]
      rfl
    · simp [hs, nonBlank, isBlank, htrim, hne, Json.asStr?]
  simp only [normalizeSyncMeta, hvalid, if_true, hrev, hby]

theorem normalizeRevisionMetadata_candidate {merged : TaskObject} (h : IsCandidate task nowIso merged) :
    (normalizeRevisionMetadata merged).task = { merged with fields := normalizeTaskRevision merged.fields } := by
  have hvalid : isValidRevision merged.fields.rev = true := by
    rw [h.fields]
    exact isValidRevision_candidate
  have hrevBy : merged.fields.revBy = none ∨ ∃ s, merged.fields.revBy = some (.str s) ∧ trim s = s ∧ s ≠ "" := by
    rw [h.fields]
    exact revBy_candidate_cases
  unfold normalizeRevisionMetadata
  split
  · rename_i hnormalized
    have hmeta : normalizeSyncMeta merged.fields.toSyncMeta = merged.fields.toSyncMeta := by
      refine normalizeSyncMeta_eq_self hvalid ?_ hrevBy
      rw [hasNormalizedRevisionMetadata, if_pos hvalid, Bool.and_eq_true, Bool.and_eq_true] at hnormalized
      exact hnormalized.1.1
    rw [normalizeTaskRevision, hmeta]
  · have hkept (name : String) (hname : name ∈ merged.names) : ((name != "rev" || isValidRevision merged.fields.rev) &&
        (name != "revBy" || (nonBlank merged.fields.revBy).isSome)) = true := by
      rw [hvalid, Bool.or_true, Bool.true_and]
      by_cases hby : name = "revBy"
      · have hsome := revBy_mem_candidate_iff.1 (h.names.mem_iff.1 (hby ▸ hname))
        rw [← h.fields] at hsome
        rcases hrevBy with hnone | ⟨s, hs, htrim, hne⟩
        · rw [hnone] at hsome
          cases hsome
        · simp [hs, nonBlank, isBlank, htrim, hne, Json.asStr?]
      · simp [hby]
    have hnames := List.filter_eq_self.2 hkept
    simp only [hnames]

theorem isCandidate_handed : IsCandidate task nowIso
    (if sameTask task (mergeCandidate task nowIso) then Handed.mk task true
      else ⟨mergeCandidate task nowIso, false⟩).task := by
  split
  · rename_i hsame
    obtain ⟨hnames, hfields, hinherited⟩ := (sameTask_iff nodup_candidate).1 hsame
    exact ⟨hnames, hfields, hinherited⟩
  · exact ⟨.refl _, rfl, rfl⟩

/-- What holds of the object after both. -/
structure IsMerged (task : TaskObject) (nowIso : String) (once : TaskObject) : Prop where
  names : once.names.Perm (mergeCandidate task nowIso).names
  fields : once.fields = normalizeTaskRevision (mergeCandidate task nowIso).fields
  inherited : once.inherited = (mergeCandidate task nowIso).inherited

/-- A pass over a task that was not purged throws where its recurrence does. -/
theorem normalizeForSync_live (hlive : truthy task.fields.purgedAt = false) {preserve : Bool} {once : Handed} :
    normalizeForSync task nowIso preserve = .ok once →
      (∃ loaded, loadRecurrence task.fields.recurrence = .ok loaded) ∧ IsMerged task nowIso once.task := by
  intro h
  rw [normalizeForSync, TaskObject.normalizeTaskForSyncMerge, if_neg (by simp [hlive])] at h
  obtain ⟨merged, hmerged, rfl⟩ := map_eq_ok h
  obtain ⟨loaded, hload, rfl⟩ := map_eq_ok hmerged
  have hcandidate := @isCandidate_handed _ task nowIso
  have hrevision := normalizeRevisionMetadata_candidate hcandidate
  refine ⟨⟨loaded, hload⟩, ?_, ?_, ?_⟩
  · simp only [hrevision]
    exact hcandidate.names
  · simp only [hrevision]
    rw [hcandidate.fields]
  · simp only [hrevision]
    exact hcandidate.inherited

theorem exists_normalizeForSync (hlive : truthy task.fields.purgedAt = false) {loaded : Option Json}
    (hload : loadRecurrence task.fields.recurrence = .ok loaded) (preserve : Bool) :
    ∃ once, normalizeForSync task nowIso preserve = .ok once := by
  rw [normalizeForSync, TaskObject.normalizeTaskForSyncMerge, if_neg (by simp [hlive]), hload]
  exact ⟨_, rfl⟩

/-- An object that is its own candidate is handed back. -/
theorem normalizeForSync_kept (hlive : truthy task.fields.purgedAt = false) {loaded : Option Json}
    (hload : loadRecurrence task.fields.recurrence = .ok loaded) (hcandidate : IsCandidate task nowIso task)
    (hnormalized : hasNormalizedRevisionMetadata task = true) (preserve : Bool) :
    normalizeForSync task nowIso preserve = .ok ⟨task, true⟩ := by
  have hsame := (sameTask_iff nodup_candidate).2 ⟨hcandidate.names, hcandidate.fields, hcandidate.inherited⟩
  rw [normalizeForSync, TaskObject.normalizeTaskForSyncMerge, if_neg (by simp [hlive]), hload]
  simp only [Except.map, hsame, if_true, normalizeRevisionMetadata, hnormalized, Bool.and_self]

/-! ### The object of the second pass -/

section
variable {once : TaskObject} (hmerged : IsMerged task nowIso once) (hstatus : inheritedStatus task.fields.status = none)

include hmerged hstatus in
theorem fields_merged : once.fields = mergedFields task.fields nowIso := by
  have hfields : (mergeCandidate task nowIso).fields = taskMergeFields (normalizeTaskForLoad task.fields nowIso) := by
    simp [mergeCandidate, hstatus]
  rw [hmerged.fields, hfields, mergedFields]

theorem inheritedStatus_merged (fields : Task) (nowIso : String) :
    inheritedStatus (mergedFields fields nowIso).status = none :=
  inheritedStatus_of_mem (normalizeTaskStatus_mem fields.status)

include hmerged hstatus in
theorem hasNormalizedRevisionMetadata_merged : hasNormalizedRevisionMetadata once = true := by
  have hfields := fields_merged hmerged hstatus
  have hvalid : isValidRevision once.fields.rev = true := by
    rw [hfields]
    exact isValidRevision_merged task.fields nowIso
  have hmax : (asNum? once.fields.rev).all (· ≤ (maxSyncRevision : Rat)) = true := by
    rw [hfields, rev_merged]
    have hle : ((normalizeRevision (if isValidRevision task.fields.rev then task.fields.rev else some (.num 0)) : Nat) :
        Rat) ≤ (maxSyncRevision : Nat) := by exact_mod_cast normalizeRevision_le _
    simpa [Json.asNum?] using hle
  have hrev : "rev" ∈ once.names := hmerged.names.mem_iff.mpr rev_mem_candidate
  have hby : once.fields.revBy = (mergeCandidate task nowIso).fields.revBy := by
    rw [hfields, revBy_candidate]
    exact trimmedText_again _
  have hnamed : "revBy" ∈ once.names ↔ once.fields.revBy.isSome = true := by
    rw [hby, ← revBy_mem_candidate_iff]
    exact hmerged.names.mem_iff
  rw [hasNormalizedRevisionMetadata, if_pos hvalid, hmax, List.contains_iff_mem.2 hrev]
  rcases @revBy_candidate_cases _ task nowIso with hnone | ⟨s, hs, htrim, hne⟩
  · rw [hby.trans hnone] at hnamed ⊢
    simpa using hnamed
  · rw [hby.trans hs]
    simp [Json.asStr?, htrim, hne]

include hmerged hstatus in
theorem isCandidate_merged {nowIso' : String}
    (hagain : taskMergeFields (normalizeTaskForLoad (mergedFields task.fields nowIso) nowIso') =
      mergedFields task.fields nowIso) : IsCandidate once nowIso' once where
  names := by
    have hby : (nonBlank once.fields.revBy).map (fun s => Json.str (trim s)) =
        (nonBlank task.fields.revBy).map fun s => .str (trim s) := by
      rw [fields_merged hmerged hstatus]
      show (nonBlank ((nonBlank ((nonBlank task.fields.revBy).map fun s => .str (trim s))).map fun s =>
        .str (trim s))).map (fun s => Json.str (trim s)) = _
      rw [trimmedText_again, trimmedText_again]
    have hview : once.fields.viewSectionIds = task.fields.viewSectionIds := by
      rw [fields_merged hmerged hstatus]
      rfl
    have hnames : (mergeCandidate once nowIso').names = (mergeCandidate task nowIso).names := by
      rw [names_candidate, names_candidate, hby, hview]
    rw [hnames]
    exact hmerged.names
  fields := by
    have hnone : inheritedStatus once.fields.status = none := by
      rw [fields_merged hmerged hstatus]
      exact inheritedStatus_merged _ _
    have hcandidate : (mergeCandidate once nowIso').fields = taskMergeFields (normalizeTaskForLoad once.fields nowIso') := by
      simp [mergeCandidate, hnone]
    rw [hcandidate, fields_merged hmerged hstatus, hagain]
  inherited := by
    have hnone : inheritedStatus once.fields.status = none := by
      rw [fields_merged hmerged hstatus]
      exact inheritedStatus_merged _ _
    have hcandidate : (mergeCandidate once nowIso').inherited = inheritedStatus once.fields.status := rfl
    have hfirst : (mergeCandidate task nowIso).inherited = inheritedStatus task.fields.status := rfl
    rw [hcandidate, hnone, hmerged.inherited, hfirst, hstatus]

end

end

/-! ### Tombstones -/

/-- A compacted task. -/
def tombstone (m : SyncMeta) (purgedAt : Option Json) (attachments : Option (List Attachment)) : Task :=
  { toSyncMeta := m
    title := some deletedTitle
    status := some (.str "inbox")
    tags := some (.arr [])
    contexts := some (.arr [])
    attachments
    purgedAt }

/-- The files a compacted task keeps. -/
def keptFiles (preserve : Bool) (attachments : Option (List Attachment)) : Option (List Attachment) :=
  if preserve then compactAttachmentCleanupMetadata attachments else none

omit [Runtime] in
theorem compactAttachmentCleanupMetadata_again (attachments : Option (List Attachment)) :
    compactAttachmentCleanupMetadata (compactAttachmentCleanupMetadata attachments) =
      compactAttachmentCleanupMetadata attachments := by
  cases h : compactAttachmentCleanupMetadata attachments with
  | none => rfl
  | some files =>
    unfold compactAttachmentCleanupMetadata at h
    simp only at h
    split_ifs at h with hempty
    obtain rfl := Option.some.inj h
    generalize hfiles : List.map _ _ = files at hempty ⊢
    have hmade : ∀ file ∈ files, ∃ a : Attachment, a.kind = some (.str "file") ∧ truthy a.uri = true ∧
        file = { id := a.id, createdAt := a.createdAt, updatedAt := a.updatedAt, kind := a.kind,
                 title := some (.str ""), uri := a.uri } := by
      intro file hfile
      rw [← hfiles] at hfile
      obtain ⟨a, ha, rfl⟩ := List.mem_map.1 hfile
      have hkeep := (List.mem_filter.1 ha).2
      rw [Bool.and_eq_true, beq_iff_eq] at hkeep
      exact ⟨a, hkeep.1, hkeep.2, rfl⟩
    have hfilter : files.filter (fun a => a.kind == some (.str "file") && truthy a.uri) = files := by
      refine List.filter_eq_self.2 fun file hfile => ?_
      obtain ⟨a, hkind, huri, rfl⟩ := hmade file hfile
      simp [hkind, huri]
    have hmap : files.map (fun a =>
        ({ id := a.id, createdAt := a.createdAt, updatedAt := a.updatedAt, kind := a.kind,
           title := some (.str ""), uri := a.uri } : Attachment)) = files := by
      refine Eq.trans (List.map_congr_left fun file hfile => ?_) (List.map_id files)
      obtain ⟨a, -, -, rfl⟩ := hmade file hfile
      rfl
    rw [compactAttachmentCleanupMetadata]
    simp only [Option.getD_some, hfilter, hmap]
    exact if_neg hempty

omit [Runtime] in
theorem keptFiles_again (preserve : Bool) (attachments : Option (List Attachment)) :
    keptFiles preserve (keptFiles preserve attachments) = keptFiles preserve attachments := by
  cases preserve with
  | false => rfl
  | true => exact compactAttachmentCleanupMetadata_again attachments

section
variable {m : SyncMeta} {purgedAt : Option Json} (hpurged : truthy purgedAt = true)

omit [Runtime] in
include hpurged in
theorem compact_of_purged {task : Task} (htask : task.purgedAt = purgedAt) (preserve : Bool) :
    (if preserve then compactPurgedTaskForLocalStorage task else compactPurgedTaskTombstone task) =
      tombstone (purgedMeta task.toSyncMeta purgedAt) purgedAt (keptFiles preserve task.attachments) := by
  subst htask
  cases preserve with
  | false => simp [compactPurgedTaskTombstone, hpurged, tombstone, keptFiles]
  | true =>
    simp [compactPurgedTaskForLocalStorage, compactPurgedTaskTombstone, hpurged, tombstone, keptFiles]

omit [Runtime] in
/-- The record of a tombstone has each of its names once. -/
theorem nodup_tombstone (attachments : Option (List Attachment)) :
    ((definedEntries (tombstone m purgedAt attachments).fields).map Prod.fst).Nodup := by
  have hkeys : (tombstone m purgedAt attachments).fields.map Prod.fst =
      (tombstone { id := "" } none none).fields.map Prod.fst := rfl
  refine nodup_definedEntries ?_
  rw [hkeys]
  decide +kernel

omit [Runtime] in
theorem purgedMeta_eq_self (hcreated : m.createdAt = m.updatedAt) (hdeleted : m.deletedAt = purgedAt) :
    purgedMeta m purgedAt = m := by
  obtain ⟨id, rev, revBy, createdAt, updatedAt, deletedAt⟩ := m
  simp only at hcreated hdeleted
  subst hcreated hdeleted
  rfl

omit [Runtime] in
theorem hasValuesOutside_self {entries : List (String × Json)} (h : (entries.map Prod.fst).Nodup) :
    hasValuesOutsideCompactedTombstone entries entries = false := by
  rw [hasValuesOutsideCompactedTombstone, List.any_eq_false]
  intro e he
  simp [lookup_of_mem h he]

omit [Runtime] in
include hpurged in
theorem not_uncompacted (hcreated : m.createdAt = m.updatedAt) (hdeleted : m.deletedAt = purgedAt) (preserve : Bool)
    (attachments : Option (List Attachment)) :
    hasUncompactedPurgedTaskTombstone (tombstone m purgedAt (keptFiles preserve attachments)) preserve = false := by
  have hmeta := purgedMeta_eq_self hcreated hdeleted
  have hfiles : compactAttachmentCleanupMetadata (keptFiles preserve attachments) = keptFiles preserve attachments := by
    cases preserve with
    | false => rfl
    | true => exact compactAttachmentCleanupMetadata_again attachments
  have hlocal : compactPurgedTaskForLocalStorage (tombstone m purgedAt (keptFiles preserve attachments)) =
      tombstone m purgedAt (keptFiles preserve attachments) := by
    refine (compact_of_purged hpurged rfl true).trans ?_
    exact congrArg₂ (fun m files => tombstone m purgedAt files) hmeta hfiles
  simp only [hasUncompactedPurgedTaskTombstone, hlocal, or_true, if_true,
    hasValuesOutside_self (nodup_tombstone _), Bool.and_false]

end

/-- The metadata that a tombstone takes from its task. -/
def tombstoneMeta (task : TaskObject) (preserve : Bool) : SyncMeta :=
  let m := purgedMeta task.fields.toSyncMeta task.fields.purgedAt
  if task.inherited.isSome || hasUncompactedPurgedTaskTombstone task.fields preserve then withNextRevision m else m

omit [Runtime] in
theorem compactedTask_eq {task : TaskObject} (hpurged : truthy task.fields.purgedAt = true) (preserve : Bool) :
    compactedTask task preserve =
      ⟨tombstoneNames preserve,
        tombstone (tombstoneMeta task preserve) task.fields.purgedAt (keptFiles preserve task.fields.attachments), none⟩ := by
  rw [compactedTask, compact_of_purged hpurged rfl, tombstoneMeta]
  simp only
  split <;> rfl

/-- The names of a tombstone that the revision metadata leaves. -/
def tombstoneNamesOf (m : SyncMeta) (preserve : Bool) : List String :=
  (tombstoneNames preserve).filter fun name =>
    (name != "rev" || isValidRevision m.rev) && (name != "revBy" || (nonBlank m.revBy).isSome)

omit [Runtime] in
theorem normalizeRevisionMetadata_tombstone (m : SyncMeta) (purgedAt : Option Json)
    (attachments : Option (List Attachment)) (preserve : Bool) :
    (normalizeRevisionMetadata ⟨tombstoneNames preserve, tombstone m purgedAt attachments, none⟩).task =
      ⟨tombstoneNamesOf m preserve, tombstone (normalizeSyncMeta m) purgedAt attachments, none⟩ := by
  have hrev : "rev" ∈ tombstoneNames preserve := by simp [tombstoneNames]
  have hby : "revBy" ∈ tombstoneNames preserve := by simp [tombstoneNames]
  unfold normalizeRevisionMetadata
  split
  · rename_i hnormalized
    rw [hasNormalizedRevisionMetadata, Bool.and_eq_true] at hnormalized
    obtain ⟨hrevision, hrevBy⟩ := hnormalized
    by_cases hvalid : isValidRevision m.rev = true
    · have hvalid' : isValidRevision (tombstone m purgedAt attachments).rev = true := hvalid
      rw [if_pos hvalid', Bool.and_eq_true] at hrevision
      cases hstr : asStr? m.revBy with
      | none =>
        have hstr' : asStr? (tombstone m purgedAt attachments).revBy = none := hstr
        rw [hstr'] at hrevBy
        simp [hby] at hrevBy
      | some s =>
        have hstr' : asStr? (tombstone m purgedAt attachments).revBy = some s := hstr
        rw [hstr'] at hrevBy
        simp only [Bool.and_eq_true, beq_iff_eq, bne_iff_ne] at hrevBy
        have hvalue : m.revBy = some (.str s) := eq_str_of_asStr? hstr
        have hblank : (nonBlank m.revBy).isSome = true := by simp [hvalue, nonBlank, isBlank, hrevBy, Json.asStr?]
        have hmeta := normalizeSyncMeta_eq_self hvalid hrevision.1 (.inr ⟨s, hvalue, hrevBy⟩)
        have hnames : tombstoneNamesOf m preserve = tombstoneNames preserve := by
          rw [tombstoneNamesOf, hvalid, hblank]
          simp
        rw [hmeta, hnames]
    · have hvalid' : ¬isValidRevision (tombstone m purgedAt attachments).rev = true := hvalid
      rw [if_neg hvalid'] at hrevision
      simp [hrev] at hrevision
  · rfl

omit [Runtime] in
/-- The metadata of a tombstone says the same when it is normalised. -/
theorem tombstoneNamesOf_normalized (m : SyncMeta) (preserve : Bool) :
    tombstoneNamesOf (normalizeSyncMeta m) preserve = tombstoneNamesOf m preserve := by
  have hvalid : isValidRevision (normalizeSyncMeta m).rev = isValidRevision m.rev := by
    show isValidRevision (if isValidRevision m.rev then some (.num (normalizeRevision m.rev)) else none) = _
    by_cases h : isValidRevision m.rev = true
    · rw [if_pos h, isValidRevision_natCast, h]
    · rw [if_neg h, Bool.eq_false_iff.2 h]
      rfl
  have hby : (nonBlank (normalizeSyncMeta m).revBy).isSome = (nonBlank m.revBy).isSome := by
    have h := congrArg Option.isSome (trimmedText_again m.revBy)
    rw [Option.isSome_map, Option.isSome_map] at h
    exact h
  rw [tombstoneNamesOf, hvalid, hby, tombstoneNamesOf]

theorem staysNormalized_purged {task : TaskObject} (hpurged : truthy task.fields.purgedAt = true)
    (nowIso nowIso' : String) (preserve : Bool) : StaysNormalized task nowIso nowIso' preserve := by
  have hpass (task : TaskObject) (hpurged : truthy task.fields.purgedAt = true) (nowIso : String) :
      normalizeForSync task nowIso preserve =
        .ok ⟨⟨tombstoneNamesOf (tombstoneMeta task preserve) preserve,
          tombstone (normalizeSyncMeta (tombstoneMeta task preserve)) task.fields.purgedAt
            (keptFiles preserve task.fields.attachments), none⟩, false⟩ := by
    rw [normalizeForSync, TaskObject.normalizeTaskForSyncMerge, if_pos hpurged, compactedTask_eq hpurged]
    simp only [Except.map, normalizeRevisionMetadata_tombstone, Bool.false_and]
  refine ⟨_, hpass task hpurged nowIso, ?_⟩
  generalize hm : tombstoneMeta task preserve = m
  have hcreated : (normalizeSyncMeta m).createdAt = (normalizeSyncMeta m).updatedAt := by
    rw [← hm, tombstoneMeta]
    split <;> rfl
  have hdeleted : (normalizeSyncMeta m).deletedAt = task.fields.purgedAt := by
    rw [← hm, tombstoneMeta]
    split <;> rfl
  have hmeta : tombstoneMeta ⟨tombstoneNamesOf m preserve,
      tombstone (normalizeSyncMeta m) task.fields.purgedAt (keptFiles preserve task.fields.attachments), none⟩ preserve =
        normalizeSyncMeta m := by
    rw [tombstoneMeta]
    simp only [not_uncompacted hpurged hcreated hdeleted, Option.isSome_none, Bool.or_false]
    exact purgedMeta_eq_self hcreated hdeleted
  rw [hpass ⟨tombstoneNamesOf m preserve, tombstone (normalizeSyncMeta m) task.fields.purgedAt
    (keptFiles preserve task.fields.attachments), none⟩ hpurged nowIso', hmeta, tombstoneNamesOf_normalized,
    normalizeSyncMeta_again, hpurged]
  show Except.ok (Handed.mk ⟨_, tombstone _ _ (keptFiles preserve (keptFiles preserve task.fields.attachments)), none⟩ _) = _
  rw [keptFiles_again]
  rfl

/-! ### Both passes -/

theorem staysNormalized_live_iff [RuleTextLaws] {task : TaskObject} (hlive : truthy task.fields.purgedAt = false)
    {nowIso : String} (hnow : (dateParse nowIso).isSome = true) (nowIso' : String) (preserve : Bool) :
    StaysNormalized task nowIso nowIso' preserve ↔
      inheritedStatus task.fields.status = none ∧ LoadsTheSame task.fields.recurrence ∧
        ¬LeavesFocus task.fields nowIso nowIso' := by
  rw [← recurrenceStays_iff]
  constructor
  · rintro ⟨once, hfirst, hsecond⟩
    obtain ⟨⟨loaded, hload⟩, hmerged⟩ := normalizeForSync_live hlive hfirst
    have hlive' : truthy once.task.fields.purgedAt = false := by
      rw [hmerged.fields]
      exact (congrArg truthy purgedAt_candidate).trans hlive
    obtain ⟨⟨again, hagain⟩, hsettled⟩ := normalizeForSync_live hlive' hsecond
    have hstatus : inheritedStatus task.fields.status = none := by
      by_contra hinherited
      have hnone : once.task.fields.status = none := by
        rw [hmerged.fields]
        show (mergeCandidate task nowIso).fields.status = none
        simp [mergeCandidate, Option.isSome_iff_ne_none, hinherited]
      have hfirst : once.task.inherited = inheritedStatus task.fields.status := hmerged.inherited
      have hlater : once.task.inherited = inheritedStatus once.task.fields.status := hsettled.inherited
      rw [hlater, hnone] at hfirst
      exact hinherited hfirst.symm
    have hfields := fields_merged hmerged hstatus
    have hnone : inheritedStatus once.task.fields.status = none := by
      rw [hfields]
      exact inheritedStatus_merged _ _
    have hfixed : mergedFields (mergedFields task.fields nowIso) nowIso' = mergedFields task.fields nowIso := by
      rw [← hfields]
      exact (fields_merged hsettled hnone).symm
    refine ⟨hstatus, ⟨loaded, hload, again, ?_, ?_⟩, stays_of_again hfixed⟩
    · rw [hfields] at hagain
      rw [loadRecurrence_ok hload]
      exact hagain
    · have hrecurrence := congrArg Task.recurrence hfixed
      rw [loadRecurrence_ok hagain, hfields, loadRecurrence_ok hload]
      exact hrecurrence
  · rintro ⟨hstatus, ⟨loaded, hload, again, hagain, hsame⟩, hstays⟩
    obtain ⟨once, hfirst⟩ := exists_normalizeForSync hlive hload preserve
    have hmerged := (normalizeForSync_live hlive hfirst).2
    have hfields := fields_merged hmerged hstatus
    have hrecurrence : preserveShallowIdentity (mergedFields task.fields nowIso).recurrence
        (normalizeRecurrenceForLoad (mergedFields task.fields nowIso).recurrence) =
          (mergedFields task.fields nowIso).recurrence := by
      rw [loadRecurrence_ok hagain, loadRecurrence_ok hload] at hsame
      exact hsame
    have hload' : loadRecurrence once.task.fields.recurrence = .ok again := by
      rw [loadRecurrence_ok hload] at hagain
      rw [hfields]
      exact hagain
    have hlive' : truthy once.task.fields.purgedAt = false := by
      rw [hfields]
      exact hlive
    refine ⟨once, hfirst, ?_⟩
    rw [hlive, Bool.not_false]
    exact normalizeForSync_kept hlive' hload'
      (isCandidate_merged hmerged hstatus (mergedFields_again hnow hrecurrence hstays))
      (hasNormalizedRevisionMetadata_merged hmerged hstatus) preserve

/-- `endOfToday` of `isFutureStart`. -/
def endOfLocalDay (now : Int) : Option Int :=
  Runtime.localTime (Runtime.localDay now).1 (Runtime.localDay now).2.1 (Runtime.localDay now).2.2 23 59 59 999

theorem isFutureStart_eq {task : Task} {start : Int} (h : safeParseDate task.startTime = some start) (now : Int) :
    isFutureStart task (some now) = (endOfLocalDay now).any (· < start) := by
  simp only [isFutureStart, h]
  unfold endOfLocalDay
  cases Runtime.localTime (Runtime.localDay now).1 (Runtime.localDay now).2.1 (Runtime.localDay now).2.2 23 59 59 999 with
  | none => rfl
  | some endOfToday => rfl

/-- A pass that is not on an earlier day defers no task that the first one left in Today. -/
theorem not_leavesFocus {nowIso nowIso' : String} {now now' : Int} (hnow : dateParse nowIso = some now)
    (hnow' : dateParse nowIso' = some now')
    (hday : ∀ later, endOfLocalDay now' = some later → ∃ earlier, endOfLocalDay now = some earlier ∧ earlier ≤ later)
    (task : Task) : ¬LeavesFocus task nowIso nowIso' := by
  rintro ⟨-, -, hstarted, hlater⟩
  rw [hnow] at hstarted
  rw [hnow'] at hlater
  cases hstart : safeParseDate task.startTime with
  | none =>
    simp only [isFutureStart, hstart] at hlater
    cases hlater
  | some start =>
    rw [isFutureStart_eq hstart] at hstarted hlater
    obtain ⟨later, hend, hafter⟩ := (Option.any_eq_true _ _).1 hlater
    obtain ⟨earlier, hend', hle⟩ := hday later hend
    rw [hend', Option.any_some, decide_eq_false_iff_not] at hstarted
    exact hstarted (lt_of_le_of_lt hle (of_decide_eq_true hafter))

end

/-! ### Two tasks -/

/-- A task with fields of every kind that the first pass repairs. -/
def importedTask : TaskObject where
  names := ["id", "title", "status", "rev", "revBy", "isFocusedToday", "tags", "recurrence", "pushCount"]
  fields :=
    { id := "t1", title := some (.str "Call"), status := some (.str " In-Progress"), rev := some (.num (-1))
      revBy := some (.str "  "), isFocusedToday := some (.num 1), tags := some (.arr [.str "home", .null])
      recurrence := some (.str " weekly "), pushCount := some .null }

/-- A status that names the constructor of every object. -/
def constructorTask : TaskObject where
  names := ["id", "title", "status"]
  fields := { id := "t1", title := some (.str "Call"), status := some (.str "constructor") }

end Mindwtr.Sync
