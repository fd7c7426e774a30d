import Mindwtr.Desktop.SignatureParity
import Mindwtr.Sync.MergeLoop
import Mindwtr.Sync.Normalize

/-!
# The native store keeps what the merge keeps

Both cascades are read as one order of two versions: by revision, by time, by writer, then by signature. Up to the
signatures the two orders are the same for versions whose times both languages read alike. The native store then
fills in the switches one of two versions lacks before it writes their signatures, and the merge does not, so where
the signatures decide the two agree exactly when that changes nothing (`arbitration_agrees_iff`).
-/

namespace Mindwtr.Desktop

open Mindwtr.Js Mindwtr.Sync MergeableEntity

/-- What `normalizeSyncMeta` leaves of a revision and its writer. -/
structure NormalRevision (m : SyncMeta) : Prop where
  rev : m.rev = none ∨ ∃ n : Nat, n ≤ maxSyncRevision ∧ m.rev = some (.num n)
  revBy : m.revBy = none ∨ ∃ s, trim s = s ∧ s ≠ "" ∧ m.revBy = some (.str s)

/-- A type of the merged lists, with its own normaliser. -/
class MergedType (α : Type) [MergeableEntity α] [Runtime] where
  fields : α → List (String × Option Json)
  record_eq : ∀ a, record a = definedEntries (fields a)
  syncMeta_mem : ∀ a, ∀ f ∈ syncMetaFields (syncMeta a), f ∈ fields a
  /-- The type's `normalize…ForSyncMerge` at an instant, then `normalizeRevisionMetadata`. -/
  normalize : String → Bool → α → α
  normalRevision : ∀ nowIso keep a, normalize nowIso keep a = a → NormalRevision (syncMeta a)
  /-- A purge is an operation of the type. -/
  ownsPurge : Bool
  deletedAt_of_purged : ∀ nowIso keep a, ownsPurge = true → ((fields a).map Prod.fst).Nodup →
    normalize nowIso keep a = a → truthy (lookup "purgedAt" (record a)) = true →
    deletedAt a = lookup "purgedAt" (record a)

/-! ### The five types -/

theorem normalRevision_normalizeSyncMeta (m : SyncMeta) : NormalRevision (normalizeSyncMeta m) := by
  constructor
  · simp only [normalizeSyncMeta]
    split_ifs
    · exact .inr ⟨normalizeRevision m.rev, normalizeRevision_le m.rev, rfl⟩
    · exact .inl rfl
  · simp only [normalizeSyncMeta]
    cases hrevBy : nonBlank m.revBy with
    | none => exact .inl rfl
    | some s =>
      obtain ⟨-, hs⟩ := Option.filter_eq_some_iff.1 hrevBy
      refine .inr ⟨trim s, trim_trim s, ?_, rfl⟩
      simpa [isBlank] using hs

section
variable [Runtime]

theorem deletedAt_purgedTask {task : Task} (h : truthy task.purgedAt = true) (nowIso : String) (keep : Bool) :
    (normalizeTaskForSyncMerge task nowIso keep).deletedAt = task.purgedAt := by
  rw [normalizeTaskForSyncMerge, if_pos h]
  have htombstone : (compactPurgedTaskTombstone task).deletedAt = task.purgedAt := by
    simp [compactPurgedTaskTombstone, h, purgedMeta]
  have hlocal : (compactPurgedTaskForLocalStorage task).deletedAt = task.purgedAt := by
    simp [compactPurgedTaskForLocalStorage, h, htombstone]
  cases keep <;> simp only [Bool.false_eq_true, if_false, if_true] <;> split_ifs
  · exact htombstone
  · exact htombstone
  · exact hlocal
  · exact hlocal

theorem deletedAt_purgedProject {project : Project} (h : truthy project.purgedAt = true) (keep : Bool) :
    (normalizeProjectForSyncMerge project keep).deletedAt = project.purgedAt := by
  rw [normalizeProjectForSyncMerge, if_pos h]
  have htombstone : (compactPurgedProjectTombstone project).deletedAt = project.purgedAt := by
    simp [compactPurgedProjectTombstone, h, purgedMeta]
  have hlocal : (compactPurgedProjectForLocalStorage project).deletedAt = project.purgedAt := by
    simp [compactPurgedProjectForLocalStorage, h, htombstone]
  cases keep <;> simp only [Bool.false_eq_true, if_false, if_true] <;> split_ifs
  · exact htombstone
  · exact htombstone
  · exact hlocal
  · exact hlocal

instance : MergedType Task where
  fields := Task.fields
  record_eq _ := rfl
  syncMeta_mem t f hf := by
    rw [Task.fields, List.append_assoc]
    exact List.mem_append_left _ hf
  normalize nowIso keep t := normalizeTaskRevision (normalizeTaskForSyncMerge t nowIso keep)
  normalRevision nowIso keep t h := by
    rw [← h]
    exact normalRevision_normalizeSyncMeta _
  ownsPurge := true
  deletedAt_of_purged nowIso keep t _ hnodup h hpurged := by
    have hmem : ("purgedAt", t.purgedAt) ∈ t.fields := by simp [Task.fields]
    have hlookup : lookup "purgedAt" (record t) = t.purgedAt := lookup_definedEntries hnodup hmem
    rw [hlookup] at hpurged ⊢
    have hdeleted := congrArg (fun task : Task => task.deletedAt) h
    exact hdeleted.symm.trans (deletedAt_purgedTask hpurged nowIso keep)

instance : MergedType Project where
  fields := Project.fields
  record_eq _ := rfl
  syncMeta_mem p f hf := by
    rw [Project.fields, List.append_assoc]
    exact List.mem_append_left _ hf
  normalize _ keep p := normalizeProjectRevision (normalizeProjectForSyncMerge p keep)
  normalRevision nowIso keep p h := by
    rw [← h]
    exact normalRevision_normalizeSyncMeta _
  ownsPurge := true
  deletedAt_of_purged nowIso keep p _ hnodup h hpurged := by
    have hmem : ("purgedAt", p.purgedAt) ∈ p.fields := by simp [Project.fields]
    have hlookup : lookup "purgedAt" (record p) = p.purgedAt := lookup_definedEntries hnodup hmem
    rw [hlookup] at hpurged ⊢
    have hdeleted := congrArg (fun project : Project => project.deletedAt) h
    exact hdeleted.symm.trans (deletedAt_purgedProject hpurged keep)

instance : MergedType Section where
  fields := Section.fields
  record_eq _ := rfl
  syncMeta_mem s f hf := by
    rw [Section.fields, List.append_assoc]
    exact List.mem_append_left _ hf
  normalize _ _ s := normalizeSectionRevision (normalizeSectionForSyncMerge s)
  normalRevision nowIso keep s h := by
    rw [← h]
    exact normalRevision_normalizeSyncMeta _
  ownsPurge := false
  deletedAt_of_purged nowIso keep s hpurge := by cases hpurge

instance : MergedType Area where
  fields := Area.fields
  record_eq _ := rfl
  syncMeta_mem a f hf := by
    rw [Area.fields, List.append_assoc]
    exact List.mem_append_left _ hf
  normalize nowIso _ a := normalizeAreaRevision (normalizeAreaForSyncMerge a nowIso)
  normalRevision nowIso keep a h := by
    rw [← h]
    exact normalRevision_normalizeSyncMeta _
  ownsPurge := false
  deletedAt_of_purged nowIso keep a hpurge := by cases hpurge

instance : MergedType Person where
  fields := Person.fields
  record_eq _ := rfl
  syncMeta_mem p f hf := by
    rw [Person.fields, List.append_assoc]
    exact List.mem_append_left _ hf
  normalize nowIso _ p := normalizePersonRevision (normalizePersonForSyncMerge p nowIso)
  normalRevision nowIso keep p h := by
    rw [← h]
    exact normalRevision_normalizeSyncMeta _
  ownsPurge := false
  deletedAt_of_purged nowIso keep p hpurge := by cases hpurge

end

/-! ### Versions both cascades can be asked about -/

theorem asInteger?_natCast {n : Nat} (h : n ≤ maxSyncRevision) : asInteger? (some (.num n)) = some (n : Int) := by
  have hmax : n ≤ 2147483647 := h
  rw [asInteger?, asNum?_some, Json.asNum?_num]
  simp only [Rat.den_natCast, Rat.num_natCast, true_and]
  rw [if_pos (by omega)]

/-- Absent, or text that is not empty. -/
def isTimeField (v : Option Json) : Bool := truthy v == (asStr? v).isSome

section
variable [Runtime] {α : Type} [MergeableEntity α] [MergedType α]

/-- A version as the merge normaliser leaves it. -/
structure NormalVersion (nowIso : String) (keep : Bool) (a : α) : Prop where
  hasId : isBlank (entityId a) = false
  names : ((MergedType.fields a).map Prod.fst).Nodup
  normalized : MergedType.normalize nowIso keep a = a
  inOrder : createdAfterUpdated a = false
  ascii : isAsciiRecord (record a) = true
  deletedField : isTimeField (deletedAt a) = true
  purgedField : isTimeField (lookup "purgedAt" (record a)) = true

namespace NormalVersion

variable {nowIso : String} {keep : Bool} {a : α}

theorem lookup_field (h : NormalVersion nowIso keep a) {key : String} {value : Option Json}
    (hmem : (key, value) ∈ syncMetaFields (syncMeta a)) : lookup key (record a) = value := by
  rw [MergedType.record_eq]
  exact lookup_definedEntries h.names (MergedType.syncMeta_mem a _ hmem)

theorem lookup_id (h : NormalVersion nowIso keep a) : lookup "id" (record a) = some (.str (entityId a)) :=
  h.lookup_field (by simp [syncMetaFields, entityId])

theorem lookup_rev (h : NormalVersion nowIso keep a) : lookup "rev" (record a) = rev a :=
  h.lookup_field (by simp [syncMetaFields, rev])

theorem lookup_revBy (h : NormalVersion nowIso keep a) : lookup "revBy" (record a) = revBy a :=
  h.lookup_field (by simp [syncMetaFields, revBy])

theorem lookup_updatedAt (h : NormalVersion nowIso keep a) : lookup "updatedAt" (record a) = updatedAt a :=
  h.lookup_field (by simp [syncMetaFields, updatedAt])

theorem lookup_deletedAt (h : NormalVersion nowIso keep a) : lookup "deletedAt" (record a) = deletedAt a :=
  h.lookup_field (by simp [syncMetaFields, deletedAt])

theorem normalRevision (h : NormalVersion nowIso keep a) : NormalRevision (syncMeta a) :=
  MergedType.normalRevision nowIso keep a h.normalized

/-- The revision is the same number in both languages. -/
theorem revision (h : NormalVersion nowIso keep a) :
    ∃ n : Nat, n ≤ maxSyncRevision ∧ revOf a = n ∧ entityRevision (.obj (record a)) = n := by
  rcases h.normalRevision.rev with hrev | ⟨n, hn, hrev⟩
  · refine ⟨0, Nat.zero_le _, ?_, ?_⟩
    · rw [revOf, MergeableEntity.rev, hrev]
      rfl
    · rw [entityRevision, prop_obj, h.lookup_rev, MergeableEntity.rev, hrev]
      rfl
  · refine ⟨n, hn, ?_, ?_⟩
    · rw [revOf, MergeableEntity.rev, hrev]
      rfl
    · have hmax : n ≤ 2147483647 := hn
      rw [entityRevision, prop_obj, h.lookup_rev, MergeableEntity.rev, hrev, asInteger?_natCast hn]
      simp only [maxCoreRevision]
      omega

/-- The writer is the same text in both languages. -/
theorem writer (h : NormalVersion nowIso keep a) :
    normalizedRevBy (revBy a) = if revByOf a = "" then none else some (revByOf a) := by
  rcases h.normalRevision.revBy with hrevBy | ⟨s, htrim, hs, hrevBy⟩
  · rw [revByOf, MergeableEntity.revBy, hrevBy]
    rfl
  · have hmem := mem_of_lookup (h.lookup_revBy.trans hrevBy)
    have hascii : isAscii s = true :=
      ((holdsInEntries_iff isAscii isAscii fun _ => true).1 h.ascii _ hmem).2
    have hread : revByOf a = s := by
      rw [revByOf, MergeableEntity.revBy, hrevBy]
      rfl
    rw [hread, if_neg hs, MergeableEntity.revBy, hrevBy, normalizedRevBy, asStr?_some, Json.asStr?_str,
      Option.map_some, strTrim_eq hascii, htrim]
    simp [hs]

theorem ascii_writer (h : NormalVersion nowIso keep a) : isAscii (revByOf a) = true := by
  rcases h.normalRevision.revBy with hrevBy | ⟨s, -, -, hrevBy⟩
  · rw [revByOf, MergeableEntity.revBy, hrevBy]
    decide
  · have hmem := mem_of_lookup (h.lookup_revBy.trans hrevBy)
    rw [revByOf, MergeableEntity.revBy, hrevBy]
    exact ((holdsInEntries_iff isAscii isAscii fun _ => true).1 h.ascii _ hmem).2

/-- The record carries its revision as the native store writes it. -/
theorem normalizeSignatureMeta_record (h : NormalVersion nowIso keep a) :
    normalizeSignatureMeta (record a) = record a := by
  have hrev : (normalizedRevisionForStorage (lookup "rev" (record a))).map (fun n : Int => Json.num n) =
      lookup "rev" (record a) := by
    rw [h.lookup_rev]
    rcases h.normalRevision.rev with hrev | ⟨n, hn, hrev⟩
    · rw [MergeableEntity.rev, hrev]
      rfl
    · have hmin : min (n : Int) maxCoreRevision = n := by
        have hmax : n ≤ 2147483647 := hn
        rw [maxCoreRevision]
        omega
      rw [MergeableEntity.rev, hrev, normalizedRevisionForStorage, asInteger?_natCast hn, Option.bind_some, if_neg (by omega),
        hmin, Option.map_some]
      rfl
  have hrevBy : (normalizedRevBy (lookup "revBy" (record a))).map Json.str = lookup "revBy" (record a) := by
    rw [h.lookup_revBy, h.writer]
    rcases h.normalRevision.revBy with hrevBy | ⟨s, -, hs, hrevBy⟩
    · rw [revByOf, MergeableEntity.revBy, hrevBy]
      rfl
    · rw [revByOf, MergeableEntity.revBy, hrevBy]
      simp [hs]
  simp only [normalizeSignatureMeta]
  rw [hrev, setProp_lookup, hrevBy, setProp_lookup]

/-- A purge is a deletion of the same time. -/
theorem deletedAt_eq_purgedAt (h : NormalVersion nowIso keep a)
    (hpurge : MergedType.ownsPurge α = false → lookup "purgedAt" (record a) = none)
    (hpurged : truthy (lookup "purgedAt" (record a)) = true) : deletedAt a = lookup "purgedAt" (record a) := by
  by_cases howns : MergedType.ownsPurge α = true
  · exact MergedType.deletedAt_of_purged nowIso keep a howns h.names h.normalized hpurged
  · rw [hpurge (by simpa using howns)] at hpurged
    cases hpurged

/-- Both languages call the same versions deleted. -/
theorem deleted (h : NormalVersion nowIso keep a)
    (hpurge : MergedType.ownsPurge α = false → lookup "purgedAt" (record a) = none) :
    entityIsDeleted (.obj (record a)) = isDeleted a := by
  have hfield : ∀ v, isTimeField v = true → (asStr? v).any (· != "") = truthy v := by
    intro v hv
    cases v with
    | none => rfl
    | some v => cases v <;> simp_all [isTimeField, Json.asStr?, Json.truthy]
  rw [entityIsDeleted]
  simp only [List.any_cons, List.any_nil, Bool.or_false, fieldStr?, prop_obj]
  rw [hfield _ h.purgedField, h.lookup_deletedAt, hfield _ h.deletedField, isDeleted]
  cases hdeleted : truthy (deletedAt a) with
  | true => rfl
  | false =>
    rw [Bool.false_or, ← Bool.not_eq_true]
    intro hpurged
    rw [h.deletedAt_eq_purgedAt hpurge hpurged, hpurged] at hdeleted
    cases hdeleted

theorem isBackupRestore (h : NormalVersion nowIso keep a)
    (hpurge : MergedType.ownsPurge α = false → lookup "purgedAt" (record a) = none) :
    Desktop.isBackupRestore (.obj (record a)) = isBackupRestoreLiveCandidate a := by
  rw [Desktop.isBackupRestore, isBackupRestoreLiveCandidate, h.deleted hpurge, fieldStr?, prop_obj, h.lookup_revBy]
  rcases h.normalRevision.revBy with hrevBy | ⟨s, htrim, -, hrevBy⟩
  · rw [revByOf, MergeableEntity.revBy, hrevBy]
    rfl
  · have hascii := h.ascii_writer
    rw [revByOf, MergeableEntity.revBy, hrevBy] at hascii ⊢
    have htrimmed : strTrim s = s := (strTrim_eq hascii).trans htrim
    rw [asStr?_some, Json.asStr?_str, Option.any_some, htrimmed]
    rfl

theorem hasRevision (h : NormalVersion nowIso keep a) :
    entityHasRevision (.obj (record a)) = (decide (0 < revOf a) || revByOf a != "") := by
  obtain ⟨n, -, hcore, hnative⟩ := h.revision
  have hpositive : decide (0 < (n : Int)) = decide ((0 : Rat) < n) := by simp
  rw [entityHasRevision, prop_obj, h.lookup_revBy, h.writer, hnative, hcore, hpositive]
  by_cases hblank : revByOf a = ""
  · simp [hblank]
  · simp [hblank]

end NormalVersion

end

/-! ### Times both languages read alike -/

def nanos (ms : Int) : Int := ms * 1000000

theorem compare_nanos (a b : Int) : compare (nanos a) (nanos b) = compare a b := by
  unfold nanos
  rcases lt_trichotomy a b with hlt | rfl | hgt
  · rw [compare_lt_iff_lt.2 hlt, compare_lt_iff_lt]
    omega
  · rw [compare_eq_iff_eq.2 rfl, compare_eq_iff_eq.2 rfl]
  · rw [compare_gt_iff_gt.2 hgt, compare_gt_iff_gt]
    omega

theorem compare_sub_zero (a b : Int) : compare (a - b) 0 = compare a b := by
  rcases lt_trichotomy a b with hlt | rfl | hgt
  · rw [compare_lt_iff_lt.2 hlt, compare_lt_iff_lt]
    omega
  · rw [sub_self, compare_eq_iff_eq.2 rfl, compare_eq_iff_eq.2 rfl]
  · rw [compare_gt_iff_gt.2 hgt, compare_gt_iff_gt]
    omega

theorem then_of_ne_eq {o p : Ordering} (h : o ≠ .eq) : o.then p = o := by
  cases o with
  | eq => exact absurd rfl h
  | _ => rfl

theorem max_nanos (a b : Int) : max (nanos a) (nanos b) = nanos (max a b) := by
  unfold nanos
  omega

def nanosInfo (info : MergeTimestampInfo) : EntityTimestampInfo :=
  ⟨some (nanos info.raw), some (nanos info.safe), info.wasClamped⟩

theorem entityTimestampOrder_nanosInfo (l i : MergeTimestampInfo) :
    entityTimestampOrder (nanosInfo l) (nanosInfo i) = compare (getMergeTimestampComparison l i) 0 := by
  have hsafe : compareTimes (some (nanos i.safe)) (some (nanos l.safe)) = compare i.safe l.safe :=
    compare_nanos _ _
  have hraw : compareTimes (some (nanos i.raw)) (some (nanos l.raw)) = compare i.raw l.raw := compare_nanos _ _
  simp only [entityTimestampOrder, nanosInfo, getMergeTimestampComparison, hsafe, hraw]
  by_cases heq : i.safe = l.safe
  · rw [heq, compare_eq_iff_eq.2 rfl, sub_self, Ordering.eq_then]
    simp only [ne_eq, not_true_eq_false, if_false]
    by_cases hclamped : l.wasClamped = true ∧ i.wasClamped = true
    · rw [hclamped.1, hclamped.2]
      by_cases hrawEq : i.raw = l.raw
      · simp [hrawEq]
      · simp [hrawEq, compare_sub_zero]
    · have hnot : (l.wasClamped && i.wasClamped) = false := by
        rw [← Bool.not_eq_true, Bool.and_eq_true]
        exact hclamped
      have hsame : ¬(l.wasClamped = true ∧ i.wasClamped = true ∧ ¬i.raw = l.raw) := fun h => hclamped ⟨h.1, h.2.1⟩
      rw [hnot, if_neg hsame]
      rfl
  · have hne : compare i.safe l.safe ≠ .eq := fun h => heq (compare_eq_iff_eq.1 h)
    rw [then_of_ne_eq hne, if_pos (sub_ne_zero.2 heq), compare_sub_zero]

theorem safe_of_notText [RustRuntime] {v : Option Json} (h : isTimeField v = true) (hfalse : truthy v = false) (mergeNow : Int) :
    (entityTimestampInfo v mergeNow).safe = none := by
  have htext : asStr? v = none := by
    rw [isTimeField, hfalse, beq_iff_eq] at h
    exact Option.isNone_iff_eq_none.1 (by simpa using h.symm)
  rw [entityTimestampInfo, parseEntityTimestamp, htext]
  rfl

section
variable [Runtime] [RustRuntime]

/-- A whole millisecond from 1970 on, which both languages read alike. -/
def IsSharedTime (v : Option Json) : Prop :=
  ∃ s t, v = some (.str s) ∧ 0 ≤ t ∧ dateParse s = some t ∧ parseEntityTimestamp v = some (nanos t)

theorem IsSharedTime.info {v : Option Json} (h : IsSharedTime v) (now : Int) :
    entityTimestampInfo v (nanos now) = nanosInfo (parseMergeTimestamp v now) := by
  obtain ⟨s, t, rfl, -, hcore, hnative⟩ := h
  have hlimit : nanos t > nanos now + clockSkewThresholdNanos ↔ t > now + clockSkewThresholdMs := by
    unfold nanos clockSkewThresholdNanos clockSkewThresholdMs
    omega
  rw [entityTimestampInfo, parseMergeTimestamp, hnative, asStr?_some, Json.asStr?_str]
  simp only [hcore, Option.any_some, Option.map_some, hlimit, decide_eq_true_eq]
  split_ifs with hclamped
  · simp [nanosInfo, hclamped]
  · simp [nanosInfo, hclamped]

theorem IsSharedTime.raw_nonneg {v : Option Json} (h : IsSharedTime v) (now : Int) :
    0 ≤ (parseMergeTimestamp v now).raw := by
  obtain ⟨s, t, rfl, ht, hcore, -⟩ := h
  rw [parseMergeTimestamp, asStr?_some, Json.asStr?_str]
  simp only [hcore]
  split_ifs
  · exact ht
  · exact ht

end

/-! ### One order of two versions -/

def sideOfOrder (order : Ordering) (tie : Side) : Side :=
  match order with
  | .gt => .incomingItem
  | .lt => .localItem
  | .eq => tie

theorem sideOfOrder_incoming {order : Ordering} (hne : order ≠ .eq) (tie : Side) :
    (sideOfOrder order tie == .incomingItem) = (order == .gt) := by
  cases order with
  | eq => exact absurd rfl hne
  | _ => rfl

theorem byRevDiff_eq {α : Type} [MergeableEntity α] {l i : α} (hne : revOf l ≠ revOf i) (tie : Side) :
    byRevDiff l i = sideOfOrder (compare (revOf i) (revOf l)) tie := by
  rw [byRevDiff]
  rcases lt_or_gt_of_ne hne with hlt | hgt
  · rw [if_neg (by linarith), compare_gt_iff_gt.2 hlt]
    rfl
  · rw [if_pos (by linarith), compare_lt_iff_lt.2 hgt]
    rfl

theorem byTimeDiff_eq {diff : Int} (hne : diff ≠ 0) (tie : Side) : byTimeDiff diff = sideOfOrder (compare diff 0) tie := by
  rw [byTimeDiff]
  rcases lt_or_gt_of_ne hne with hlt | hgt
  · rw [if_neg (by omega), compare_lt_iff_lt.2 hlt]
    rfl
  · rw [if_pos hgt, compare_gt_iff_gt.2 hgt]
    rfl

theorem hasRevision_of_ne {α : Type} [MergeableEntity α] {l i : α} (hl : 0 ≤ revOf l) (hi : 0 ≤ revOf i) (hne : revOf l ≠ revOf i) :
    hasRevision l i = true := by
  rw [hasRevision]
  rcases lt_or_gt_of_ne hne with hlt | hgt
  · simp [hl.trans_lt hlt]
  · simp [hi.trans_lt hgt]

def writerOrder {α : Type} [MergeableEntity α] (l i : α) : Ordering :=
  if revByOf l != "" && revByOf i != "" then compare (revByOf i) (revByOf l) else .eq

theorem writerChoice_eq {α : Type} [MergeableEntity α] {l i : α} (hl : isAscii (revByOf l) = true)
    (hi : isAscii (revByOf i) = true) (tie : Side) :
    (if revByOf l ≠ revByOf i ∧ revByOf l ≠ "" ∧ revByOf i ≠ "" then
        if jsLt (revByOf l) (revByOf i) then .incomingItem else .localItem
      else tie) = sideOfOrder (writerOrder l i) tie := by
  have hlt := jsLt_iff_of_isAscii hl hi
  rw [writerOrder]
  by_cases hboth : revByOf l ≠ "" ∧ revByOf i ≠ ""
  · have htest : (revByOf l != "" && revByOf i != "") = true := by simpa using hboth
    rw [if_pos htest]
    rcases lt_trichotomy (revByOf l) (revByOf i) with h | h | h
    · rw [if_pos ⟨h.ne, hboth⟩, if_pos (hlt.2 h), compare_gt_iff_gt.2 h]
      rfl
    · rw [if_neg fun hne => hne.1 h, h, compare_eq_iff_eq.2 rfl]
      rfl
    · have hnot : ¬jsLt (revByOf l) (revByOf i) = true := fun hjs => h.not_gt (hlt.1 hjs)
      rw [if_pos ⟨h.ne', hboth⟩, if_neg hnot, compare_lt_iff_lt.2 h]
      rfl
  · have htest : ¬(revByOf l != "" && revByOf i != "") = true := by simpa using hboth
    rw [if_neg fun hne => hboth hne.2, if_neg htest]
    rfl

section
variable [Runtime] {α : Type} [MergeableEntity α]

/-- A version's revision, time and writer against those of another; times in milliseconds. -/
def timeOrder (now : Int) (l i : α) : Ordering :=
  if !hasRevision l i && !(updatedTime now l).wasClamped && !(updatedTime now i).wasClamped && withinSkew now l i then
    .eq
  else compare (comparableUpdatedTimeDiff now l i) 0

/-- The order of two versions up to their signatures. -/
def decisionOrder (now : Int) (l i : α) : Ordering :=
  ((compare (revOf i) (revOf l)).then (timeOrder now l i)).then (writerOrder l i)

/-- The revisions decide. -/
def ByRevision (l i : α) : Prop := isDeleted l = isDeleted i ∧ revOf l ≠ revOf i

/-- Nothing but the signatures decides. -/
def BySignature (now : Int) (l i : α) : Prop := isDeleted l = isDeleted i ∧ decisionOrder now l i = .eq

theorem decisionOrder_of_ne {now : Int} {l i : α} (hne : revOf l ≠ revOf i) :
    decisionOrder now l i = compare (revOf i) (revOf l) := by
  have hrevisions : compare (revOf i) (revOf l) ≠ .eq := fun h => hne (compare_eq_iff_eq.1 h).symm
  rw [decisionOrder, then_of_ne_eq hrevisions, then_of_ne_eq hrevisions]

theorem winnerSide_of_revision {now : Int} {l i : α} (hdeleted : isDeleted l = isDeleted i) (hl : 0 ≤ revOf l)
    (hi : 0 ≤ revOf i) (hne : revOf l ≠ revOf i) (tie : Side) :
    winnerSide now l i = sideOfOrder (decisionOrder now l i) tie := by
  rw [winnerSide, if_neg (not_not.2 hdeleted), if_pos (hasRevision_of_ne hl hi hne), if_pos (sub_ne_zero.2 hne),
    decisionOrder_of_ne hne, byRevDiff_eq hne]

/-- Among versions of one revision that carry one, time and writer decide. -/
theorem winnerSide_of_hasRevision {now : Int} {l i : α} (hdeleted : isDeleted l = isDeleted i)
    (hrevision : hasRevision l i = true) (heq : revOf l = revOf i) (hl : isAscii (revByOf l) = true)
    (hi : isAscii (revByOf i) = true) :
    winnerSide now l i = sideOfOrder (decisionOrder now l i) (chooseDeterministic l i) := by
  have htime : timeOrder now l i = compare (comparableUpdatedTimeDiff now l i) 0 := by
    rw [timeOrder, hrevision]
    rfl
  rw [winnerSide, if_neg (not_not.2 hdeleted), if_pos hrevision, heq, sub_self, if_neg (not_not.2 rfl),
    decisionOrder, heq, compare_eq_iff_eq.2 rfl, Ordering.eq_then, htime]
  by_cases hdiff : comparableUpdatedTimeDiff now l i = 0
  · rw [if_neg (not_not.2 hdiff), hdiff, compare_eq_iff_eq.2 rfl, Ordering.eq_then, writerChoice_eq hl hi]
  · have hne : compare (comparableUpdatedTimeDiff now l i) 0 ≠ .eq := fun h => hdiff (compare_eq_iff_eq.1 h)
    rw [if_pos hdiff, then_of_ne_eq hne, byTimeDiff_eq hdiff]

/-- Versions without any revision are ordered by time outside the clock skew window. -/
theorem winnerSide_of_noRevision {now : Int} {l i : α} (hdeleted : isDeleted l = isDeleted i)
    (hrevision : hasRevision l i = false) (heq : revOf l = revOf i) (hl : 0 ≤ (updatedTime now l).raw)
    (hi : 0 ≤ (updatedTime now i).raw) :
    winnerSide now l i = sideOfOrder (decisionOrder now l i) (chooseDeterministic l i) := by
  have hwriters : writerOrder l i = .eq := by
    simp only [hasRevision, Bool.or_eq_false_iff] at hrevision
    rw [writerOrder, hrevision.1.2]
    rfl
  have hstrict : requiresStrictTimestampOrdering now l i = (comparableUpdatedTimeDiff now l i != 0 &&
      ((updatedTime now l).wasClamped || (updatedTime now i).wasClamped)) := by
    rw [requiresStrictTimestampOrdering, decide_eq_false hl.not_gt, decide_eq_false hi.not_gt]
    rfl
  have hrevFalse : ¬hasRevision l i = true := by simp [hrevision]
  rw [winnerSide, if_neg (not_not.2 hdeleted), if_neg hrevFalse, hstrict,
    decisionOrder, heq, compare_eq_iff_eq.2 rfl, Ordering.eq_then, hwriters, Ordering.then_eq, timeOrder, hrevision]
  by_cases hdiff : comparableUpdatedTimeDiff now l i = 0
  · simp [hdiff, sideOfOrder]
  · rw [byTimeDiff_eq hdiff (chooseDeterministic l i)]
    cases (updatedTime now l).wasClamped <;> cases (updatedTime now i).wasClamped <;> cases withinSkew now l i <;>
      simp [hdiff, sideOfOrder]

end

/-! ### What the native store reads of two versions -/

theorem compare_natCast (m n : Nat) : compare (m : Int) (n : Int) = compare (m : Rat) (n : Rat) := by
  rcases lt_trichotomy m n with h | rfl | h
  · rw [compare_lt_iff_lt.2 (Int.ofNat_lt.2 h), compare_lt_iff_lt.2 (Nat.cast_lt.2 h)]
  · rw [compare_eq_iff_eq.2 rfl, compare_eq_iff_eq.2 rfl]
  · rw [compare_gt_iff_gt.2 (Int.ofNat_lt.2 h), compare_gt_iff_gt.2 (Nat.cast_lt.2 h)]

theorem abs_nanos_le (a b bound : Int) : |nanos a - nanos b| ≤ nanos bound ↔ |a - b| ≤ bound := by
  unfold nanos
  rw [abs_le, abs_le]
  omega

theorem preferLive_incoming [Runtime] {α : Type} [MergeableEntity α] {l i : α}
    (hne : isDeleted l ≠ isDeleted i) :
    (preferLiveCandidate l i == .incomingItem) = !isDeleted i := by
  rw [preferLiveCandidate]
  cases hl : isDeleted l <;> cases hi : isDeleted i <;> simp_all

theorem preferDeleted_incoming [Runtime] {α : Type} [MergeableEntity α] {l i : α}
    (hne : isDeleted l ≠ isDeleted i) :
    (preferDeletedCandidate l i == .incomingItem) = isDeleted i := by
  rw [preferDeletedCandidate]
  cases hl : isDeleted l <;> cases hi : isDeleted i <;> simp_all

section
variable [Runtime] {α : Type} [MergeableEntity α] [MergedType α] {nowIso : String} {keep keep' : Bool} {l i : α}

theorem NormalVersion.revOf_nonneg (hl : NormalVersion nowIso keep l) : 0 ≤ revOf l := by
  obtain ⟨n, -, hcore, -⟩ := hl.revision
  rw [hcore]
  exact Nat.cast_nonneg n

theorem revisionOrder_eq (hl : NormalVersion nowIso keep l) (hi : NormalVersion nowIso keep' i) :
    compare (entityRevision (.obj (record i))) (entityRevision (.obj (record l))) = compare (revOf i) (revOf l) := by
  obtain ⟨m, -, hcoreL, hnativeL⟩ := hl.revision
  obtain ⟨n, -, hcoreI, hnativeI⟩ := hi.revision
  rw [hcoreL, hcoreI, hnativeL, hnativeI, compare_natCast]

theorem hasRevision_eq (hl : NormalVersion nowIso keep l) (hi : NormalVersion nowIso keep' i) :
    (entityHasRevision (.obj (record l)) || entityHasRevision (.obj (record i))) = hasRevision l i := by
  rw [hl.hasRevision, hi.hasRevision, Sync.hasRevision]
  simp only [Bool.or_assoc, Bool.or_left_comm]

theorem revByOrder_eq (hl : NormalVersion nowIso keep l) (hi : NormalVersion nowIso keep' i) :
    revByOrder (.obj (record l)) (.obj (record i)) = writerOrder l i := by
  have hread : ∀ s : String, (if s = "" then none else some s).getD "" = s := by
    intro s
    split_ifs with hs
    · exact hs.symm
    · rfl
  simp only [revByOrder, prop_obj, hl.lookup_revBy, hi.lookup_revBy, hl.writer, hi.writer, hread, writerOrder]

variable [RustRuntime]

theorem timestampOrder_eq (hl : NormalVersion nowIso keep l) (hi : NormalVersion nowIso keep' i)
    (htimeL : IsSharedTime (updatedAt l)) (htimeI : IsSharedTime (updatedAt i)) (now : Int) :
    timestampOrder (.obj (record l)) (.obj (record i)) (nanos now) = timeOrder now l i := by
  have hwithin : decide (|nanos (updatedTime now i).safe - nanos (updatedTime now l).safe| ≤ clockSkewThresholdNanos) =
      withinSkew now l i :=
    decide_eq_decide.2 (abs_nanos_le _ _ clockSkewThresholdMs)
  have hinfoL : entityTimestampInfo (updatedAt l) (nanos now) = nanosInfo (updatedTime now l) := htimeL.info now
  have hinfoI : entityTimestampInfo (updatedAt i) (nanos now) = nanosInfo (updatedTime now i) := htimeI.info now
  simp only [timestampOrder, prop_obj, hl.lookup_updatedAt, hi.lookup_updatedAt, hinfoL, hinfoI, hasRevision_eq hl hi,
    entityTimestampOrder_nanosInfo]
  simp only [nanosInfo, hwithin]
  rfl

/-- The native order of two versions is core's, then that of their native signatures. -/
theorem entityOrder_eq (hl : NormalVersion nowIso keep l) (hi : NormalVersion nowIso keep' i)
    (htimeL : IsSharedTime (updatedAt l)) (htimeI : IsSharedTime (updatedAt i)) (now : Int) :
    entityOrder (.obj (record l)) (.obj (record i)) (nanos now) =
      (decisionOrder now l i).then (entityTieBreakOrder (.obj (record l)) (.obj (record i))) := by
  rw [entityOrder, revisionOrder_eq hl hi, timestampOrder_eq hl hi htimeL htimeI, revByOrder_eq hl hi, decisionOrder]

theorem entityOrder_of_revision (hl : NormalVersion nowIso keep l) (hi : NormalVersion nowIso keep' i)
    (hne : revOf l ≠ revOf i) (now : Int) :
    entityOrder (.obj (record l)) (.obj (record i)) (nanos now) = decisionOrder now l i := by
  have hrevisions : compare (revOf i) (revOf l) ≠ .eq := fun h => hne (compare_eq_iff_eq.1 h).symm
  rw [entityOrder, revisionOrder_eq hl hi, then_of_ne_eq hrevisions, then_of_ne_eq hrevisions,
    then_of_ne_eq hrevisions, decisionOrder_of_ne hne]

/-! ### A deletion against a live version -/

/-- The times of a version are read alike. -/
structure SharedTimes (a : α) : Prop where
  updated : IsSharedTime (updatedAt a)
  deleted : isDeleted a = true → IsSharedTime (deletedAt a)

theorem safe_deletedAt {v : Option Json} (h : IsSharedTime v) (now : Int) :
    ∃ t, dateTime v = some t ∧
      (entityTimestampInfo v (nanos now)).safe = some (nanos (if t > now + clockSkewThresholdMs then now else t)) := by
  have hinfo := h.info now
  obtain ⟨s, t, rfl, -, hcore, -⟩ := h
  refine ⟨t, hcore, ?_⟩
  rw [hinfo, parseMergeTimestamp, asStr?_some, Json.asStr?_str]
  simp only [hcore]
  split_ifs
  · rfl
  · rfl

theorem entityOperationTime_eq {a : α} (h : NormalVersion nowIso keep a) (htimes : SharedTimes a)
    (hpurge : MergedType.ownsPurge α = false → lookup "purgedAt" (record a) = none) (now : Int) :
    entityOperationTime (.obj (record a)) (nanos now) = some (nanos (resolveOperationTime now a)) := by
  have hupdated : (entityTimestampInfo (updatedAt a) (nanos now)).safe = some (nanos (updatedTime now a).safe) := by
    rw [htimes.updated.info now]
    rfl
  simp only [entityOperationTime, prop_obj, List.filterMap_cons, List.filterMap_nil, h.lookup_updatedAt,
    h.lookup_deletedAt, hupdated]
  rw [resolveOperationTime]
  by_cases hdeleted : isDeleted a = true
  · obtain ⟨t, ht, hsafe⟩ := safe_deletedAt (htimes.deleted hdeleted) now
    simp only [hdeleted, if_true, ht, hsafe]
    by_cases hpurged : truthy (lookup "purgedAt" (record a)) = true
    · rw [← h.deletedAt_eq_purgedAt hpurge hpurged, hsafe]
      simp [List.max?_cons, max_nanos]
    · rw [safe_of_notText h.purgedField (by simpa using hpurged)]
      simp [List.max?_cons, max_nanos]
  · have hlive : truthy (deletedAt a) = false := by simpa [isDeleted] using hdeleted
    have hpurged : truthy (lookup "purgedAt" (record a)) = false := by
      rw [← Bool.not_eq_true]
      intro hpurged
      rw [← h.deletedAt_eq_purgedAt hpurge hpurged, hlive] at hpurged
      cases hpurged
    rw [safe_of_notText h.deletedField hlive, safe_of_notText h.purgedField hpurged]
    simp [hdeleted, List.max?_cons]

variable (hl : NormalVersion nowIso keep l) (hi : NormalVersion nowIso keep' i) (htimesL : SharedTimes l)
  (htimesI : SharedTimes i) (hpurgeL : MergedType.ownsPurge α = false → lookup "purgedAt" (record l) = none)
  (hpurgeI : MergedType.ownsPurge α = false → lookup "purgedAt" (record i) = none)
include hl hi htimesL htimesI hpurgeL hpurgeI

theorem backupRestoreWins_eq (now : Int) :
    backupRestoreWins (.obj (record l)) (.obj (record i)) (nanos now) =
      (restoredSide now l i).map fun side => side == .incomingItem := by
  have hnotOlder : ∀ a b : Int, restoreIsNotOlder (some (nanos a)) (some (nanos b)) = decide (a ≥ b) := by
    intro a b
    rw [restoreIsNotOlder, decide_eq_decide]
    unfold nanos
    omega
  rw [backupRestoreWins, restoredSide, hl.isBackupRestore hpurgeL, hi.isBackupRestore hpurgeI,
    entityOperationTime_eq hl htimesL hpurgeL, entityOperationTime_eq hi htimesI hpurgeI]
  simp only [hnotOlder, decide_eq_true_eq]
  split_ifs <;> rfl

theorem deleteVsLiveWins_eq (hne : isDeleted l ≠ isDeleted i) (now : Int) :
    deleteVsLiveWins (.obj (record l)) (.obj (record i)) (nanos now) =
      ((resolveDeleteVsLiveWinner now l i).winner == .incomingItem) := by
  have hwindow : withinAmbiguityWindow (some (nanos (resolveOperationTime now l)))
      (some (nanos (resolveOperationTime now i))) = decide (|operationDiff now l i| ≤ deleteVsLiveAmbiguousWindowMs) :=
    decide_eq_decide.2 (abs_nanos_le _ _ deleteVsLiveAmbiguousWindowMs)
  rw [deleteVsLiveWins, resolveDeleteVsLiveWinner, backupRestoreWins_eq hl hi htimesL htimesI hpurgeL hpurgeI,
    entityOperationTime_eq hl htimesL hpurgeL, entityOperationTime_eq hi htimesI hpurgeI, hasRevision_eq hl hi,
    revisionOrder_eq hl hi, hi.deleted hpurgeI, hwindow]
  have htimes : compareTimes (some (nanos (resolveOperationTime now i))) (some (nanos (resolveOperationTime now l))) =
      compare (operationDiff now l i) 0 := by
    rw [operationDiff, compare_sub_zero]
    exact compare_nanos _ _
  cases hrestored : restoredSide now l i with
  | some side => rfl
  | none =>
    simp only [Option.map_none, htimes, decide_eq_true_eq]
    by_cases hclose : |operationDiff now l i| ≤ deleteVsLiveAmbiguousWindowMs
    · rw [if_pos hclose, if_pos hclose]
      by_cases hrevision : hasRevision l i = true
      · by_cases heq : revOf l = revOf i
        · rw [hrevision, heq, compare_eq_iff_eq.2 rfl]
          simp [preferLive_incoming hne]
        · have horder : compare (revOf i) (revOf l) ≠ .eq := fun h => heq (compare_eq_iff_eq.1 h).symm
          have hdiff : revOf l - revOf i ≠ 0 := sub_ne_zero.2 heq
          rw [hrevision, byRevDiff_eq heq .incomingItem]
          simp [horder, hdiff, sideOfOrder_incoming horder]
      · simp only [hrevision, Bool.false_and, Bool.false_eq_true, if_false, false_and]
        exact (preferDeleted_incoming hne).symm
    · rw [if_neg hclose, if_neg hclose]
      rcases lt_trichotomy (operationDiff now l i) 0 with hlt | heq | hgt
      · rw [if_neg (by omega), if_pos hlt, compare_lt_iff_lt.2 hlt]
        rfl
      · rw [heq, compare_eq_iff_eq.2 rfl]
        exact (preferDeleted_incoming hne).symm
      · rw [if_pos hgt, compare_gt_iff_gt.2 hgt]
        rfl

end

end Mindwtr.Desktop
