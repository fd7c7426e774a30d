import Mindwtr.Sync.AttachmentCleanup
import Mindwtr.Sync.RemoteNoninterference

/-!
# A cleanup deletes nothing that is in use

Every target of a cleanup is a key that no live attachment names (`remoteTargets_unreferenced`), so no remote delete is
issued for one that is. A delete that fails is among the pending ones afterwards with one more attempt, up to the limit
(`failed_delete_waits`). The document keeps its records: a tombstone is marked and loses the name of a copy that is
gone, and only the files of purged owners are dropped (`CleanupFrame`).
-/

namespace Mindwtr.Sync

open Mindwtr.Js

section
variable [Runtime] (options : AttachmentCleanupLifecycleOptions) (data : AppData)

/-! ### Targets -/

theorem cloudKeyOf_ne {value : Option Json} {key : String} (h : cloudKeyOf value = some key) : key ≠ "" := by
  unfold cloudKeyOf sanitizeAttachmentCloudKeyForSyncMerge at h
  split at h
  · next trimmed hsafe =>
    split at h
    · obtain rfl := Option.some.inj h
      unfold safeAttachmentUri at hsafe
      split at hsafe
      · cases hsafe
      · dsimp only at hsafe
        split_ifs at hsafe with hempty
        obtain rfl := Option.some.inj hsafe
        exact fun heq => hempty (.inl heq)
    · cases h
  · cases h

/-- A key that a live attachment names is referenced. -/
theorem referenced_of_live {attachment : Attachment} (hlive : attachment ∈ liveAttachments data) {key : String}
    (h : cloudKeyOf attachment.cloudKey = some key) : isAttachmentCloudResourceReferenced key data = true := by
  have hmem : key ∈ liveCloudKeys data := List.mem_filterMap.2 ⟨attachment, hlive, h⟩
  simp [isAttachmentCloudResourceReferenced, cloudKeyOf_ne h, hmem]

/-- The targets are filed under their keys, and nothing live names these. -/
def UnreferencedTargets (targets : JsMap AttachmentCleanupRemoteTarget) : Prop :=
  ∀ e ∈ targets.entries, e.2.cloudKey = e.1 ∧ isAttachmentCloudResourceReferenced e.1 data = false

theorem pendingTargets_unreferenced : UnreferencedTargets data (pendingTargets data) := by
  intro e he
  rcases JsMap.mem_foldl_set _ _ he with hempty | hmem
  · cases hempty
  · obtain ⟨entry, hentry, rfl⟩ := List.mem_map.1 hmem
    exact ⟨rfl, by simpa using (List.mem_filter.1 hentry).2⟩

theorem noteTarget_unreferenced {state : LocalCleanup} (h : UnreferencedTargets data state.remoteCleanupTargets)
    (attachment : Attachment) : UnreferencedTargets data (noteTarget data state attachment).remoteCleanupTargets := by
  unfold noteTarget
  extract_lets orphaned noted
  have hkept : noted.remoteCleanupTargets = state.remoteCleanupTargets := by
    simp only [noted, orphaned]
    split_ifs <;> rfl
  split
  · rw [hkept]
    exact h
  · next cloudKey _ =>
    split_ifs with hreferenced
    · show UnreferencedTargets data noted.remoteCleanupTargets
      rw [hkept]
      exact h
    · intro e he
      rcases JsMap.mem_setEntry he with rfl | hmem
      · exact ⟨rfl, by simpa using hreferenced⟩
      · exact h e (hkept ▸ hmem)

theorem remoteTargets_map : UnreferencedTargets data (localCleanup options data).remoteCleanupTargets := by
  have hrun : ∀ (targets : List Attachment) (state : LocalCleanup),
      UnreferencedTargets data state.remoteCleanupTargets →
        UnreferencedTargets data (targets.foldl (noteTarget data) state).remoteCleanupTargets := by
    intro targets
    induction targets with
    | nil => exact fun _ h => h
    | cons attachment targets ih => exact fun state h => ih _ (noteTarget_unreferenced data h attachment)
  exact hrun _ _ (pendingTargets_unreferenced data)

theorem remoteTargets_unreferenced {target : AttachmentCleanupRemoteTarget} (h : target ∈ remoteTargets options data) :
    isAttachmentCloudResourceReferenced target.cloudKey data = false := by
  obtain ⟨e, he, rfl⟩ := List.mem_map.1 h
  obtain ⟨hkey, hfree⟩ := remoteTargets_map options data e he
  rw [hkey]
  exact hfree

theorem remoteTargets_keys : ((remoteTargets options data).map (·.cloudKey)).Nodup := by
  have hkeys : (remoteTargets options data).map (·.cloudKey) =
      (localCleanup options data).remoteCleanupTargets.keys := by
    rw [remoteTargets, List.map_map]
    exact List.map_congr_left fun e he => (remoteTargets_map options data e he).1
  rw [hkeys]
  exact JsMap.keys_nodup _

/-! ### The remote deletes -/

section
variable {options data} (deleteRemote : Option RemoteDelete)

/-- What a turn does: the target waits, its copy is given up, the loop ends, or a delete is issued and answered. -/
theorem remoteLoop_cons (count : Nat) (target : AttachmentCleanupRemoteTarget)
    (rest : List AttachmentCleanupRemoteTarget) (state : RemoteCleanup) :
    ∃ count',
      remoteLoop options data deleteRemote count (target :: rest) state =
          remoteLoop options data deleteRemote count' rest
            { state with pending := state.pending.set target.cloudKey (postponed data target) } ∨
      remoteLoop options data deleteRemote count (target :: rest) state =
          remoteLoop options data deleteRemote count' rest
            { state with clearedCloudKeys := state.clearedCloudKeys ++ [target.cloudKey] } ∨
      remoteLoop options data deleteRemote count (target :: rest) state = (state, false) ∨
      (∃ answer, (answer = .deleted ∨ answer = .missing) ∧
        remoteLoop options data deleteRemote count (target :: rest) state =
          remoteLoop options data deleteRemote count' rest
            { state with
              clearedCloudKeys := state.clearedCloudKeys ++ [target.cloudKey]
              issued := state.issued ++ [(target, answer)] }) ∨
      remoteLoop options data deleteRemote count (target :: rest) state =
          remoteLoop options data deleteRemote count' rest
            { state with
              pending := state.pending.set target.cloudKey (failedDelete options data target)
              issued := state.issued ++ [(target, .failed)] } ∨
      remoteLoop options data deleteRemote count (target :: rest) state =
          ({ state with issued := state.issued ++ [(target, .aborted)] }, false) := by
  by_cases hlimit : underLimit (maxTargets options) count = true
  · by_cases hretain : options.shouldRetainRemoteAttachment target = true
    · exact ⟨count + 1, .inr (.inl (by simp [remoteLoop, hlimit, hretain]))⟩
    · cases deleteRemote with
      | none => exact ⟨count + 1, .inl (by simp [remoteLoop, hlimit, hretain])⟩
      | some delete =>
        by_cases hthrows : options.beforeEachRemoteDelete target = true
        · exact ⟨count, .inr (.inr (.inl (by simp [remoteLoop, hlimit, hretain, hthrows])))⟩
        · refine ⟨count + 1, .inr (.inr (.inr ?_))⟩
          cases hanswer : delete target with
          | deleted => exact .inl ⟨.deleted, .inl rfl, by simp [remoteLoop, hlimit, hretain, hthrows, hanswer]⟩
          | missing => exact .inl ⟨.missing, .inr rfl, by simp [remoteLoop, hlimit, hretain, hthrows, hanswer]⟩
          | failed => exact .inr (.inl (by simp [remoteLoop, hlimit, hretain, hthrows, hanswer]))
          | aborted => exact .inr (.inr (by simp [remoteLoop, hlimit, hretain, hthrows, hanswer]))
  · exact ⟨count, .inl (by simp [remoteLoop, hlimit])⟩

/-- The loop issues deletes of its targets only. -/
theorem remoteLoop_issued (count : Nat) (targets : List AttachmentCleanupRemoteTarget) (state : RemoteCleanup) :
    ∀ e ∈ (remoteLoop options data deleteRemote count targets state).1.issued, e ∈ state.issued ∨ e.1 ∈ targets := by
  intro e he
  induction targets generalizing count state with
  | nil => exact .inl he
  | cons target rest ih =>
    have hown {answer : RemoteDeleteAnswer} (h : e ∈ state.issued ++ [(target, answer)]) :
        e ∈ state.issued ∨ e.1 ∈ target :: rest := by
      rcases List.mem_append.1 h with h | h
      · exact .inl h
      · exact .inr (List.mem_singleton.1 h ▸ List.mem_cons_self)
    obtain ⟨count', hwait | hgiven | hends | ⟨answer, -, hgone⟩ | hfailed | haborted⟩ :=
      remoteLoop_cons deleteRemote count target rest state
    · rw [hwait] at he
      exact (ih _ _ he).imp_right (List.mem_cons_of_mem _)
    · rw [hgiven] at he
      exact (ih _ _ he).imp_right (List.mem_cons_of_mem _)
    · rw [hends] at he
      exact .inl he
    · rw [hgone] at he
      exact (ih _ _ he).elim hown fun h => .inr (List.mem_cons_of_mem _ h)
    · rw [hfailed] at he
      exact (ih _ _ he).elim hown fun h => .inr (List.mem_cons_of_mem _ h)
    · rw [haborted] at he
      exact hown he

/-- The loop leaves what waits for other keys. -/
theorem remoteLoop_pending (count : Nat) (targets : List AttachmentCleanupRemoteTarget) (state : RemoteCleanup)
    {key : String} (hkey : key ∉ targets.map (·.cloudKey)) :
    (remoteLoop options data deleteRemote count targets state).1.pending.get? key = state.pending.get? key := by
  induction targets generalizing count state with
  | nil => rfl
  | cons target rest ih =>
    have hne : key ≠ target.cloudKey := fun heq => hkey (heq ▸ List.mem_cons_self)
    have hrest : key ∉ rest.map (·.cloudKey) := fun hmem => hkey (List.mem_cons_of_mem _ hmem)
    obtain ⟨count', hwait | hgiven | hends | ⟨answer, -, hgone⟩ | hfailed | haborted⟩ :=
      remoteLoop_cons deleteRemote count target rest state
    · rw [hwait, ih _ _ hrest]
      exact (JsMap.get?_set ..).trans (if_neg hne)
    · rw [hgiven, ih _ _ hrest]
    · rw [hends]
    · rw [hgone, ih _ _ hrest]
    · rw [hfailed, ih _ _ hrest]
      exact (JsMap.get?_set ..).trans (if_neg hne)
    · rw [haborted]

/-- A delete that failed waits with one more attempt. -/
theorem remoteLoop_failed (count : Nat) (targets : List AttachmentCleanupRemoteTarget) (state : RemoteCleanup)
    (hkeys : (targets.map (·.cloudKey)).Nodup) {target : AttachmentCleanupRemoteTarget}
    (h : (target, .failed) ∈ (remoteLoop options data deleteRemote count targets state).1.issued) :
    (target, .failed) ∈ state.issued ∨
      (remoteLoop options data deleteRemote count targets state).1.pending.get? target.cloudKey =
        some (failedDelete options data target) := by
  induction targets generalizing count state with
  | nil => exact .inl h
  | cons first rest ih =>
    obtain ⟨hfirst, hrest⟩ := List.nodup_cons.1 hkeys
    obtain ⟨count', hwait | hgiven | hends | ⟨answer, hanswer, hgone⟩ | hfailed | haborted⟩ :=
      remoteLoop_cons deleteRemote count first rest state
    · rw [hwait] at h ⊢
      exact ih _ _ hrest h
    · rw [hgiven] at h ⊢
      exact ih _ _ hrest h
    · rw [hends] at h
      exact .inl h
    · rw [hgone] at h ⊢
      rcases ih _ _ hrest h with hmem | hpending
      · rcases List.mem_append.1 hmem with hmem | hmem
        · exact .inl hmem
        · obtain ⟨-, hsame⟩ := Prod.mk.inj (List.mem_singleton.1 hmem)
          subst hsame
          rcases hanswer with hbad | hbad <;> cases hbad
      · exact .inr hpending
    · rw [hfailed] at h ⊢
      rcases ih _ _ hrest h with hmem | hpending
      · rcases List.mem_append.1 hmem with hmem | hmem
        · exact .inl hmem
        · obtain ⟨rfl, -⟩ := Prod.mk.inj (List.mem_singleton.1 hmem)
          refine .inr ?_
          rw [remoteLoop_pending deleteRemote _ _ _ hfirst]
          exact (JsMap.get?_set ..).trans (if_pos rfl)
      · exact .inr hpending
    · rw [haborted] at h
      rcases List.mem_append.1 h with hmem | hmem
      · exact .inl hmem
      · cases (Prod.mk.inj (List.mem_singleton.1 hmem)).2

end

/-- No remote delete is issued for a key that a live attachment names. -/
theorem issued_unreferenced : ∀ e ∈ (runAttachmentCleanupLifecycle options data).issued,
    ∀ attachment ∈ liveAttachments data, cloudKeyOf attachment.cloudKey ≠ some e.1.cloudKey := by
  intro e he attachment hlive hkey
  have htarget : e.1 ∈ remoteTargets options data := by
    unfold runAttachmentCleanupLifecycle at he
    split_ifs at he
    · cases he
    · split at he
      · cases he
      · rcases remoteLoop_issued _ _ _ _ e he with h | h
        · cases h
        · exact h
  have hfree := remoteTargets_unreferenced options data htarget
  rw [referenced_of_live data hlive hkey] at hfree
  cases hfree

/-! ### What waits afterwards -/

/-- The pending deletes in the settings of a document. -/
def storedPendingDeletes (data : AppData) : List Json :=
  ((prop (attachmentSettings data.settings) "pendingRemoteDeletes").bind Json.asArr?).getD []

/-- The failed attempts at a key so far. -/
def previousAttempts (data : AppData) (cloudKey : String) : Int :=
  (((previousPending data).get? cloudKey).map (·.attempts)).getD 0

theorem storedPendingDeletes_apply (result : AttachmentCleanupApplyResult) :
    storedPendingDeletes (applyAttachmentCleanupResult data result) =
      (prunePendingRemoteAttachmentDeletes result.pendingRemoteDeletes result.lastCleanupAt).map
        PendingRemoteAttachmentDelete.toJson := by
  simp only [storedPendingDeletes, attachmentSettings, applyAttachmentCleanupResult, withAttachmentSettings,
    lookup_setProp, if_true, prop]
  cases prunePendingRemoteAttachmentDeletes result.pendingRemoteDeletes result.lastCleanupAt <;> rfl

/-- A run that is not rejected is one whole loop. -/
theorem run_completed {after : AppData} (h : (runAttachmentCleanupLifecycle options data).appData = some after) :
    ∃ deleteRemote, ∃ remote : RemoteCleanup,
      remoteLoop options data deleteRemote 0 (remoteTargets options data)
          { pending := .empty, clearedCloudKeys := (localCleanup options data).clearedCloudKeys, issued := [] } =
        (remote, true) ∧
      (runAttachmentCleanupLifecycle options data).issued = remote.issued ∧
      after = applyAttachmentCleanupResult data (cleanupResult options data remote) := by
  unfold runAttachmentCleanupLifecycle at h ⊢
  split_ifs at h ⊢
  cases hresolved : resolvedRemoteDelete options data with
  | none =>
    rw [hresolved] at h
    cases h
  | some deleteRemote =>
    rw [hresolved] at h
    dsimp only at h ⊢
    cases hloop : remoteLoop options data deleteRemote 0 (remoteTargets options data)
        { pending := .empty, clearedCloudKeys := (localCleanup options data).clearedCloudKeys, issued := [] } with
    | mk remote completed =>
      rw [hloop] at h
      cases completed with
      | false => cases h
      | true => exact ⟨deleteRemote, remote, hloop, rfl, (Option.some.inj h).symm⟩

theorem retained_of_attempts {entry : PendingRemoteAttachmentDelete} {now : String}
    (hattempts : entry.attempts < pendingRemoteAttachmentDeleteMaxAttempts) (htime : entry.lastErrorAt = some now) :
    shouldRetainPendingRemoteAttachmentDelete entry now = true := by
  have hlimit : ¬pendingRemoteAttachmentDeleteMaxAttempts ≤ max 0 entry.attempts := by
    unfold pendingRemoteAttachmentDeleteMaxAttempts at *
    omega
  rw [shouldRetainPendingRemoteAttachmentDelete, if_neg hlimit, htime]
  cases parseTimestampMs (some now) with
  | none => rfl
  | some ms => simp [pendingRemoteAttachmentDeleteMaxAgeMs]

/-- A delete that failed waits in the settings with one more attempt, unless that was the last one. -/
theorem failed_delete_waits {after : AppData} (h : (runAttachmentCleanupLifecycle options data).appData = some after)
    {target : AttachmentCleanupRemoteTarget}
    (hfailed : (target, .failed) ∈ (runAttachmentCleanupLifecycle options data).issued)
    (hattempts : previousAttempts data target.cloudKey + 1 < pendingRemoteAttachmentDeleteMaxAttempts) :
    ∃ entry : PendingRemoteAttachmentDelete, entry.cloudKey = target.cloudKey ∧
      entry.attempts = previousAttempts data target.cloudKey + 1 ∧ entry.toJson ∈ storedPendingDeletes after := by
  obtain ⟨deleteRemote, remote, hloop, hissued, rfl⟩ := run_completed options data h
  refine ⟨failedDelete options data target, rfl, rfl, ?_⟩
  have hloopFailed : (target, .failed) ∈ (remoteLoop options data deleteRemote 0 (remoteTargets options data)
      { pending := .empty, clearedCloudKeys := (localCleanup options data).clearedCloudKeys, issued := [] }).1.issued := by
    rw [hloop, ← hissued]
    exact hfailed
  rcases remoteLoop_failed deleteRemote _ _ _ (remoteTargets_keys options data) hloopFailed with hnil | hget
  · cases hnil
  · rw [hloop] at hget
    rw [storedPendingDeletes_apply]
    apply List.mem_map_of_mem
    apply List.mem_filter.2
    exact ⟨List.mem_map.2 ⟨_, JsMap.mem_of_find hget, rfl⟩, retained_of_attempts hattempts rfl⟩

/-! ### What is kept of the document -/

/-- A file that is marked: it may be missing on this device where a file of its id is in use nowhere, and a tombstone
may lose its cloud key. -/
structure MarkedFile (now : String) (before after : Attachment) : Prop where
  same : after =
    { before with localStatus := after.localStatus, cloudKey := after.cloudKey, updatedAt := after.updatedAt }
  localStatus : after.localStatus = before.localStatus ∨ after.localStatus = some (.str "missing") ∧
    ∃ owned ∈ ownedAttachments data, owned.2.id = before.id ∧ owned.2.kind = some (.str "file") ∧
      isLiveAttachment owned = false
  cloudKey : after.cloudKey = before.cloudKey ∧ after.updatedAt = before.updatedAt ∨
    truthy before.deletedAt = true ∧ after.cloudKey = none ∧ after.updatedAt = some (.str now)

/-- The files of a record: dropped are those of purged owners that are in use nowhere, marked all others. -/
def CleanedFiles (now : String) (before after : Option (List Attachment)) : Prop :=
  ∃ (dropped : Attachment → Bool) (mark : Attachment → Attachment),
    (∀ a, dropped a = true →
      a.id ∈ findPurgedParentAttachmentIds data ∧ a.id ∉ (liveAttachments data).map (·.id)) ∧
    (∀ a, MarkedFile data now a (mark a)) ∧
    after = before.map fun l => (l.filter fun a => !dropped a).map mark

structure CleanupFrame (now : String) (after : AppData) : Prop where
  tasks : List.Forall₂ (fun task task' : Task => task' = { task with attachments := task'.attachments } ∧
    CleanedFiles data now task.attachments task'.attachments) data.tasks after.tasks
  projects : List.Forall₂ (fun project project' : Project =>
    project' = { project with attachments := project'.attachments } ∧
      CleanedFiles data now project.attachments project'.attachments) data.projects after.projects
  others : after.sections = data.sections ∧ after.areas = data.areas ∧ after.people = data.people
  syncedSettings : after.settings.toAppSettings = data.settings.toAppSettings
  settings : ∀ key, key ≠ "attachments" → lookup key after.settings.others = lookup key data.settings.others
  attachmentSettings : ∀ key, key ≠ "lastCleanupAt" → key ≠ "pendingRemoteDeletes" →
    prop (attachmentSettings after.settings) key = prop (attachmentSettings data.settings) key

/-- What the first loop notes is true of the document. -/
structure NotedTargets (state : LocalCleanup) : Prop where
  orphaned : ∀ id ∈ state.processedOrphanedIds, id ∉ (liveAttachments data).map (·.id)
  files : ∀ id ∈ state.processedFileTombstoneIds, ∃ owned ∈ ownedAttachments data, owned.2.id = id ∧
    owned.2.kind = some (.str "file") ∧ isLiveAttachment owned = false

variable {data}

omit [Runtime] in
theorem mem_of_byId {l : List Attachment} {attachment : Attachment}
    (h : attachment ∈ (JsMap.ofItems (fun a : Attachment => a.id) l).entries.map Prod.snd) : attachment ∈ l := by
  obtain ⟨e, he, rfl⟩ := List.mem_map.1 h
  rcases JsMap.mem_foldl_set _ _ he with hempty | hmem
  · cases hempty
  · obtain ⟨a, ha, rfl⟩ := List.mem_map.1 hmem
    exact ha

omit [Runtime] in
theorem orphan_not_live {attachment : Attachment} (h : attachment ∈ findOrphanedAttachments data) :
    (∃ owned ∈ ownedAttachments data, owned.2 = attachment) ∧ attachment.id ∉ (liveAttachments data).map (·.id) := by
  obtain ⟨hmem, hlive⟩ := List.mem_filter.1 h
  exact ⟨List.mem_map.1 (mem_of_byId hmem), by simpa using hlive⟩

omit [Runtime] in
theorem tombstone_not_live {attachment : Attachment} (h : attachment ∈ findDeletedAttachmentsForFileCleanup data) :
    ∃ owned ∈ ownedAttachments data, owned.2 = attachment ∧ isLiveAttachment owned = false := by
  obtain ⟨hmem, hdeleted⟩ := List.mem_filter.1 (mem_of_byId h)
  obtain ⟨owned, howned, rfl⟩ := List.mem_map.1 hmem
  exact ⟨owned, howned, rfl, by simp [isLiveAttachment, hdeleted]⟩

omit [Runtime] in
theorem cleanupTarget_not_live {attachment : Attachment} (h : attachment ∈ cleanupTargets data) :
    ∃ owned ∈ ownedAttachments data, owned.2 = attachment ∧ isLiveAttachment owned = false := by
  rcases List.mem_append.1 (mem_of_byId h) with horphan | htombstone
  · obtain ⟨⟨owned, howned, rfl⟩, hnot⟩ := orphan_not_live horphan
    refine ⟨owned, howned, rfl, ?_⟩
    rw [← Bool.not_eq_true]
    intro hlive
    exact hnot (List.mem_map.2 ⟨owned.2, List.mem_map.2 ⟨owned, List.mem_filter.2 ⟨howned, hlive⟩, rfl⟩, rfl⟩)
  · exact tombstone_not_live htombstone

theorem noteTarget_noted {state : LocalCleanup} (h : NotedTargets data state) {attachment : Attachment}
    (htarget : attachment ∈ cleanupTargets data) : NotedTargets data (noteTarget data state attachment) := by
  unfold noteTarget
  extract_lets orphaned noted
  have horphaned : NotedTargets data orphaned := by
    simp only [orphaned]
    split_ifs with horphan
    · refine ⟨?_, h.files⟩
      intro id hid
      rcases List.mem_append.1 hid with hmem | hmem
      · exact h.orphaned id hmem
      · obtain rfl := List.mem_singleton.1 hmem
        obtain ⟨other, hother, hsame⟩ := List.mem_map.1 (List.contains_iff_mem.1 horphan)
        rw [← hsame]
        exact (orphan_not_live hother).2
    · exact h
  have hnoted : NotedTargets data noted := by
    simp only [noted]
    split_ifs with hfile
    · refine ⟨horphaned.orphaned, ?_⟩
      intro id hid
      rcases List.mem_append.1 hid with hmem | hmem
      · exact horphaned.files id hmem
      · obtain rfl := List.mem_singleton.1 hmem
        obtain ⟨owned, howned, rfl, hlive⟩ := cleanupTarget_not_live htarget
        exact ⟨owned, howned, rfl, by simpa using (Bool.and_eq_true_iff.1 hfile).1, hlive⟩
    · exact horphaned
  split
  · exact hnoted
  · split_ifs
    · exact ⟨hnoted.orphaned, hnoted.files⟩
    · exact ⟨hnoted.orphaned, hnoted.files⟩

theorem localCleanup_noted (options : AttachmentCleanupLifecycleOptions) (data : AppData) :
    NotedTargets data (localCleanup options data) := by
  have hrun : ∀ (targets : List Attachment) (state : LocalCleanup), (∀ a ∈ targets, a ∈ cleanupTargets data) →
      NotedTargets data state → NotedTargets data (targets.foldl (noteTarget data) state) := by
    intro targets
    induction targets with
    | nil => exact fun _ _ h => h
    | cons attachment targets ih =>
      intro state hmem h
      exact ih _ (fun a ha => hmem a (List.mem_cons_of_mem _ ha)) (noteTarget_noted h (hmem attachment List.mem_cons_self))
  apply hrun
  · intro a ha
    unfold batch at ha
    split at ha
    · exact ha
    · exact List.mem_of_mem_take ha
  · constructor
    · intro id hid
      cases hid
    · intro id hid
      cases hid

theorem markProcessed_marked {result : AttachmentCleanupApplyResult} (hfiles : ∀ id ∈ result.processedFileTombstoneIds,
    ∃ owned ∈ ownedAttachments data, owned.2.id = id ∧ owned.2.kind = some (.str "file") ∧
      isLiveAttachment owned = false) (a : Attachment) :
    MarkedFile data result.lastCleanupAt a (markProcessed result a) := by
  have hclear : ∀ b : Attachment, clearCloudKey result b = b ∨ truthy b.deletedAt = true ∧
      clearCloudKey result b = { b with cloudKey := none, updatedAt := some (.str result.lastCleanupAt) } := by
    intro b
    unfold clearCloudKey
    split_ifs with h
    · exact .inr ⟨(Bool.and_eq_true_iff.1 h).1, rfl⟩
    · exact .inl rfl
  unfold markProcessed
  split_ifs with hprocessed
  · have hstamped : ∃ owned ∈ ownedAttachments data, owned.2.id = a.id ∧ owned.2.kind = some (.str "file") ∧
        isLiveAttachment owned = false := hfiles a.id (List.contains_iff_mem.1 (Bool.and_eq_true_iff.1 hprocessed).1)
    rcases hclear { a with localStatus := some (.str "missing") } with hsame | ⟨hdeleted, hcleared⟩
    · rw [hsame]
      exact ⟨rfl, .inr ⟨rfl, hstamped⟩, .inl ⟨rfl, rfl⟩⟩
    · rw [hcleared]
      exact ⟨rfl, .inr ⟨rfl, hstamped⟩, .inr ⟨hdeleted, rfl, rfl⟩⟩
  · rcases hclear a with hsame | ⟨hdeleted, hcleared⟩
    · rw [hsame]
      exact ⟨rfl, .inl rfl, .inl ⟨rfl, rfl⟩⟩
    · rw [hcleared]
      exact ⟨rfl, .inl rfl, .inr ⟨hdeleted, rfl, rfl⟩⟩

omit [Runtime] in
theorem cleanedFiles_refl (now : String) (before : Option (List Attachment)) : CleanedFiles data now before before := by
  refine ⟨fun _ => false, id, fun a h => absurd h (by simp), fun a => ⟨rfl, .inl rfl, .inl ⟨rfl, rfl⟩⟩, ?_⟩
  cases before with
  | none => rfl
  | some l => simp

theorem cleanAttachments_cleaned {result : AttachmentCleanupApplyResult}
    (hfiles : ∀ id ∈ result.processedFileTombstoneIds, ∃ owned ∈ ownedAttachments data, owned.2.id = id ∧
      owned.2.kind = some (.str "file") ∧ isLiveAttachment owned = false)
    (hremovable : ∀ id ∈ result.removableAttachmentIds,
      id ∈ findPurgedParentAttachmentIds data ∧ id ∉ (liveAttachments data).map (·.id))
    (before : Option (List Attachment)) :
    CleanedFiles data result.lastCleanupAt before (cleanAttachments result before) := by
  refine ⟨fun a => result.removableAttachmentIds.contains a.id, markProcessed result, ?_, markProcessed_marked hfiles, rfl⟩
  intro a ha
  exact hremovable a.id (List.contains_iff_mem.1 ha)

theorem cleanup_frame {options : AttachmentCleanupLifecycleOptions} {after : AppData}
    (h : (runAttachmentCleanupLifecycle options data).appData = some after) : CleanupFrame data options.now after := by
  obtain ⟨deleteRemote, remote, -, -, rfl⟩ := run_completed options data h
  have hnoted := localCleanup_noted options data
  have hfiles : ∀ id ∈ (cleanupResult options data remote).processedFileTombstoneIds, ∃ owned ∈ ownedAttachments data,
      owned.2.id = id ∧ owned.2.kind = some (.str "file") ∧ isLiveAttachment owned = false := hnoted.files
  have hremovable : ∀ id ∈ (cleanupResult options data remote).removableAttachmentIds,
      id ∈ findPurgedParentAttachmentIds data ∧ id ∉ (liveAttachments data).map (·.id) := by
    intro id hid
    obtain ⟨hmem, hpurged⟩ := List.mem_filter.1 hid
    exact ⟨List.contains_iff_mem.1 hpurged, hnoted.orphaned id hmem⟩
  have hcleaned := cleanAttachments_cleaned hfiles hremovable
  constructor
  · unfold applyAttachmentCleanupResult
    dsimp only
    split_ifs
    · exact List.forall₂_map_right_iff.2 (List.forall₂_same.2 fun task _ => ⟨rfl, hcleaned task.attachments⟩)
    · exact List.forall₂_same.2 fun task _ => ⟨rfl, cleanedFiles_refl _ _⟩
  · unfold applyAttachmentCleanupResult
    dsimp only
    split_ifs
    · exact List.forall₂_map_right_iff.2 (List.forall₂_same.2 fun project _ => ⟨rfl, hcleaned project.attachments⟩)
    · exact List.forall₂_same.2 fun project _ => ⟨rfl, cleanedFiles_refl _ _⟩
  · exact ⟨rfl, rfl, rfl⟩
  · rfl
  · intro key hkey
    simp only [applyAttachmentCleanupResult, withAttachmentSettings, lookup_setProp, if_neg hkey]
  · intro key hcleanup hpending
    simp only [applyAttachmentCleanupResult, withAttachmentSettings, attachmentSettings, lookup_setProp, if_true, prop,
      if_neg hcleanup, if_neg hpending, lookup_recordOf]

/-- No remote delete is issued for a key in use, a delete that fails waits with one more attempt until the last one, and
the rest of the document stays. -/
theorem attachment_cleanup_safe (options : AttachmentCleanupLifecycleOptions) (data : AppData) :
    (∀ e ∈ (runAttachmentCleanupLifecycle options data).issued, ∀ attachment ∈ liveAttachments data,
      cloudKeyOf attachment.cloudKey ≠ some e.1.cloudKey) ∧
    ∀ after, (runAttachmentCleanupLifecycle options data).appData = some after →
      (∀ target, (target, .failed) ∈ (runAttachmentCleanupLifecycle options data).issued →
        previousAttempts data target.cloudKey + 1 < pendingRemoteAttachmentDeleteMaxAttempts →
          ∃ entry : PendingRemoteAttachmentDelete, entry.cloudKey = target.cloudKey ∧
            entry.attempts = previousAttempts data target.cloudKey + 1 ∧ entry.toJson ∈ storedPendingDeletes after) ∧
      CleanupFrame data options.now after := by
  refine ⟨issued_unreferenced options data, ?_⟩
  intro after h
  refine ⟨?_, cleanup_frame h⟩
  intro target hfailed hattempts
  exact failed_delete_waits options data h hfailed hattempts

end

/-! ### Examples -/

def tombstoneFile (id cloudKey : String) : Attachment :=
  { id, kind := some (.str "file"), cloudKey := some (.str cloudKey), deletedAt := some (.str "2026-01-02T00:00:00.000Z") }

/-- A tombstone of a task, the file of a purged project and a delete that has failed eleven times. -/
def cleanupData : AppData where
  tasks := [{ id := "t1", attachments := some [tombstoneFile "a1" "attachments/a1"] }]
  projects := [{ id := "p1", purgedAt := some (.str "2026-01-03T00:00:00.000Z")
                 attachments := some [tombstoneFile "a2" "attachments/a2"] }]
  sections := []
  areas := []
  people := none
  settings := { noSettings with others := [("attachments", .obj [("pendingRemoteDeletes",
    .arr [.obj [("cloudKey", .str "attachments/a3"), ("attempts", .num 11)]])])] }

/-- Every callback returns; of the remote deletes that of `attachments/a3` fails. -/
def cleanupOptions : AttachmentCleanupLifecycleOptions where
  deleteLocalAttachment _ := false
  deleteRemoteAttachment := some fun target => if target.cloudKey = "attachments/a3" then .failed else .deleted
  resolveRemoteDeleteAttachment := some none
  shouldRetainRemoteAttachment _ := false
  now := "2026-02-01T00:00:00.000Z"
  maxAttachmentTargets := none
  beforeEachAttachment _ := false
  beforeEachRemoteDelete _ := false

/-- The twelfth failure is the last one, a tombstone is marked, and the file of a purged project is dropped. -/
theorem cleanupData_changes :
    (@runAttachmentCleanupLifecycle isoRuntime cleanupOptions cleanupData).issued.map (fun e => (e.1.cloudKey, e.2)) =
        [("attachments/a3", .failed), ("attachments/a1", .deleted), ("attachments/a2", .deleted)] ∧
      ((@runAttachmentCleanupLifecycle isoRuntime cleanupOptions cleanupData).appData.map storedPendingDeletes) = some [] ∧
      ((@runAttachmentCleanupLifecycle isoRuntime cleanupOptions cleanupData).appData.map fun after =>
          after.tasks.map (·.attachments)) =
        some [some [{ tombstoneFile "a1" "attachments/a1" with
          localStatus := some (.str "missing")
          cloudKey := none
          updatedAt := some (.str "2026-02-01T00:00:00.000Z") }]] ∧
      ((@runAttachmentCleanupLifecycle isoRuntime cleanupOptions cleanupData).appData.map fun after =>
          after.projects.map (·.attachments)) = some [some []] := by
  refine ⟨?_, ?_, ?_, ?_⟩ <;> decide +kernel

end Mindwtr.Sync
