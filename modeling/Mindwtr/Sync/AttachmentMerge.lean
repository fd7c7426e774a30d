import Mindwtr.Entity.Attachments
import Mindwtr.Sync.Compaction
import Mindwtr.Sync.MergeLoop

/-!
# Merging attachments

`mergeAttachments` of `sync.ts` and its use for two versions of a task or a project. The record of an attachment is
that of the version that wins, its content revision that of the version with the higher one, and what a device knows
about its own copy of the bytes stays with the device while they are the bytes the record names (`MergedContent`).
-/

namespace Mindwtr.Sync

open Mindwtr.Js MergeableEntity

structure AttachmentMergeOptions where
  preferIncomingAttachmentCloudKeys : Bool := false
  nowIso : Option String
  dateNow : Int

def isFile (attachment : Attachment) : Bool := attachment.kind == some (.str "file")

def isFileDeleted (attachment : Attachment) : Bool := truthy attachment.deletedAt

def normalizeMissingFileStatus (status deletedAt : Option Json) : Option Json :=
  if truthy deletedAt then status
  else if status == some (.str "uploading") || status == some (.str "downloading") then status
  else some (.str "missing")

section
variable [Runtime]

def hasAvailableUri (attachment : Attachment) : Bool :=
  isFile attachment && attachment.localStatus != some (.str "missing") &&
    (sanitizeMergedAttachmentUri attachment.uri).isSome

def resolveCloudKey (opts : AttachmentMergeOptions) (mergedAttachment : Attachment)
    (localAttachment incomingAttachment : Option Attachment) : Option Json :=
  if isFileDeleted mergedAttachment then mergedAttachment.cloudKey
  else
    match incomingAttachment.filter fun incoming => opts.preferIncomingAttachmentCloudKeys && !isFileDeleted incoming with
    | some incoming => incoming.cloudKey
    | none =>
      orElse mergedAttachment.cloudKey
        (orElse (localAttachment.bind (·.cloudKey)) (incomingAttachment.bind (·.cloudKey)))

/-- `attachment.contentRev ?? 0`. -/
def contentRevOf (attachment : Attachment) : Rat := (asNum? attachment.contentRev).getD 0

/-- `fileHash?.trim().toLowerCase()`. -/
def normalizedHash (fileHash : Option Json) : String := ((asStr? fileHash).map fun s => Runtime.toLowerCase (trim s)).getD ""

/-- The side whose content the merge keeps: the higher content revision, and on a tie the winner. -/
def contentSource (winner : Side) (l i : Attachment) : Side :=
  if contentRevOf l = contentRevOf i then winner
  else if contentRevOf l > contentRevOf i then .localItem
  else .incomingItem

/-- A local replacement that has no proven hash yet. -/
def localPendingCandidateWon (winner : Side) (l i : Attachment) : Bool :=
  l.pendingContentUpload == some (.bool true) && contentSource winner l i == .localItem

def resolvedFileHash (winner : Side) (l i : Attachment) : Option Json :=
  if localPendingCandidateWon winner l i then l.fileHash
  else orElse ((contentSource winner l i).pick l i).fileHash (orElse l.fileHash i.fileHash)

/-- The merge kept exactly the content that the local version names. -/
def localIdentitySurvived (winner : Side) (l i : Attachment) : Bool :=
  let localHash := normalizedHash l.fileHash
  let resolvedHash := normalizedHash (resolvedFileHash winner l i)
  decide (contentRevOf ((contentSource winner l i).pick l i) = contentRevOf l) &&
    ((localHash != "" && resolvedHash == localHash) ||
      (localPendingCandidateWon winner l i && localHash == "" && resolvedHash == ""))

/-- The content fields. -/
structure ContentIdentity where
  fileHash : Option Json
  contentRev : Option Json
  contentMtimeMs : Option Json
  contentSize : Option Json
  pendingContentUpload : Option Json

def resolveContentIdentity (side : Side) (l i : Attachment) : ContentIdentity :=
  let winner := side.pick l i
  if isFileDeleted winner then
    { fileHash := winner.fileHash
      contentRev := winner.contentRev
      contentMtimeMs := winner.contentMtimeMs
      contentSize := winner.contentSize
      pendingContentUpload := none }
  else
    let source := (contentSource side l i).pick l i
    let statSource := if localIdentitySurvived side l i then l else source
    { fileHash := resolvedFileHash side l i
      contentRev := source.contentRev
      contentMtimeMs := statSource.contentMtimeMs
      contentSize := statSource.contentSize
      pendingContentUpload :=
        if l.pendingContentUpload == some (.bool true) && localIdentitySurvived side l i then some (.bool true)
        else none }

/-- `sanitizeMergedAttachmentUri(uri) || uri`. -/
def safeUriOr (uri : Option Json) : Option Json := ((sanitizeMergedAttachmentUri uri).map .str).or uri

def availableStatus (attachment : Attachment) : Option Json := orElse attachment.localStatus (some (.str "available"))

/-- Where the bytes are on this device, before the last check of the path. -/
def resolveUri (winner l i : Attachment) : Option Json × Option Json :=
  if hasAvailableUri winner then (safeUriOr winner.uri, availableStatus winner)
  else if hasAvailableUri l then (safeUriOr l.uri, availableStatus l)
  else if hasAvailableUri i then (safeUriOr i.uri, availableStatus i)
  else
    ((((sanitizeMergedAttachmentUri winner.uri).or (sanitizeMergedAttachmentUri l.uri)).or
        (sanitizeMergedAttachmentUri i.uri)).map .str |>.or (some (.str "")),
      normalizeMissingFileStatus winner.localStatus winner.deletedAt)

/-- `localStatus ?? "available"`, where there is a path. -/
def statusAt (uri localStatus : Option Json) : Option Json :=
  if (localStatus == none || localStatus == some .null) && (sanitizeMergedAttachmentUri uri).isSome then
    some (.str "available")
  else localStatus

/-- The merged version of a pair. The code compares the winner to the local version by reference, which is the side. -/
def mergeAttachmentPair (opts : AttachmentMergeOptions) (side : Side) (l i : Attachment) : Attachment :=
  let winner := side.pick l i
  if !isFile winner || !isFile l || !isFile i then winner
  else
    let (uri, localStatus) := resolveUri winner l i
    let content := resolveContentIdentity side l i
    { winner with
      cloudKey := resolveCloudKey opts winner (some l) (some i)
      fileHash := content.fileHash
      contentRev := content.contentRev
      contentMtimeMs := content.contentMtimeMs
      contentSize := content.contentSize
      pendingContentUpload := content.pendingContentUpload
      uri
      localStatus := statusAt uri localStatus }

/-- The last pass over a merged attachment, whose versions on the two sides are looked up again. -/
def normalizeMergedAttachment (opts : AttachmentMergeOptions) (localById incomingById : JsMap Attachment)
    (attachment : Attachment) : Attachment :=
  if !isFile attachment then attachment
  else
    let localFile := (localById.get? attachment.id).filter isFile
    let incomingFile := (incomingById.get? attachment.id).filter isFile
    let safeUri := sanitizeMergedAttachmentUri attachment.uri
    { attachment with
      uri := some (.str (safeUri.getD ""))
      cloudKey := resolveCloudKey opts attachment localFile incomingFile
      fileHash :=
        if isFileDeleted attachment || attachment.pendingContentUpload == some (.bool true) then attachment.fileHash
        else orElse attachment.fileHash
          (orElse (localFile.bind (·.fileHash)) (incomingFile.bind (·.fileHash)))
      localStatus :=
        if isFileDeleted attachment then attachment.localStatus
        else if safeUri.isSome && hasAvailableUri attachment then
          if attachment.localStatus == none || attachment.localStatus == some .null then some (.str "available")
          else attachment.localStatus
        else normalizeMissingFileStatus attachment.localStatus attachment.deletedAt }

def attachmentMergeOptions (opts : AttachmentMergeOptions) : MergeOptions Attachment where
  mergeConflict := some fun l i _ =>
    .ok (mergeAttachmentPair opts (winnerSide (maxAllowedMergeTime opts.nowIso opts.dateNow) l i) l i)
  nowIso := opts.nowIso
  dateNow := opts.dateNow

def mergeAttachments (opts : AttachmentMergeOptions) (localAttachments incomingAttachments : Option (List Attachment)) :
    Except JsError (Option (List Attachment)) :=
  let localList := localAttachments.getD []
  let incomingList := incomingAttachments.getD []
  let explicitEmpty : Option (List Attachment) :=
    if localAttachments.isSome || incomingAttachments.isSome then some [] else none
  if localList = [] ∧ incomingList = [] then .ok explicitEmpty
  else do
    let state ← mergeEntitiesWithStats (attachmentMergeOptions opts) localList incomingList
    let localById := JsMap.ofItems (fun item : Attachment => item.id) localList
    let incomingById := JsMap.ofItems (fun item : Attachment => item.id) incomingList
    let normalized := state.merged.map (normalizeMergedAttachment opts localById incomingById)
    return if normalized = [] then explicitEmpty else some normalized

/-- `attachments` of both callbacks: what the merge of two versions of a task or a project keeps of their files. -/
def mergeOwnedAttachments (opts : AttachmentMergeOptions) (winner : Side) (localPurgedAt incomingPurgedAt : Option Json)
    (localAttachments incomingAttachments : Option (List Attachment)) : Except JsError (Option (List Attachment)) :=
  if truthy (winner.pick localPurgedAt incomingPurgedAt) then
    .ok (compactAttachmentCleanupMetadata localAttachments)
  else
    mergeAttachments opts (if truthy localPurgedAt then none else localAttachments)
      (if truthy incomingPurgedAt then none else incomingAttachments)

def withMergedTaskAttachments (opts : AttachmentMergeOptions) (winner : Side) (l i : Task) : Except JsError Task := do
  let attachments ← mergeOwnedAttachments opts winner l.purgedAt i.purgedAt l.attachments i.attachments
  return { winner.pick l i with attachments }

def withMergedProjectAttachments (opts : AttachmentMergeOptions) (winner : Side) (l i : Project) :
    Except JsError Project := do
  let attachments ← mergeOwnedAttachments opts winner l.purgedAt i.purgedAt l.attachments i.attachments
  return { winner.pick l i with attachments }

/-! ### What the merged attachment says -/

/-- The merged record names the content of the local version: its revision and its hash, and the hash is known or the
local bytes are a replacement that is still to be hashed. -/
def LocalContentKept (side : Side) (l i merged : Attachment) : Prop :=
  contentRevOf merged = contentRevOf l ∧ normalizedHash merged.fileHash = normalizedHash l.fileHash ∧
    (normalizedHash l.fileHash ≠ "" ∨ localPendingCandidateWon side l i = true)

/-- The version whose path is used: the winner's, then this device's, then the other's, the first that is available. -/
def availableVersion (side : Side) (l i : Attachment) : Option Attachment :=
  [side.pick l i, l, i].find? hasAvailableUri

/-- What the merge of the versions `l` and `i` of a live file says of its content. -/
structure LiveContent (opts : AttachmentMergeOptions) (side : Side) (l i merged : Attachment) : Prop where
  contentRev : merged.contentRev = ((contentSource side l i).pick l i).contentRev
  highest : contentRevOf merged = max (contentRevOf l) (contentRevOf i)
  replacement : localPendingCandidateWon side l i = true → merged.fileHash = l.fileHash
  fileHash : localPendingCandidateWon side l i = false →
    merged.fileHash = orElse ((contentSource side l i).pick l i).fileHash (orElse l.fileHash i.fileHash)
  cloudKey : merged.cloudKey =
    if opts.preferIncomingAttachmentCloudKeys = true ∧ isFileDeleted i = false then i.cloudKey
    else orElse (side.pick l i).cloudKey (orElse l.cloudKey i.cloudKey)
  pending : merged.pendingContentUpload = some (.bool true) ↔
    l.pendingContentUpload = some (.bool true) ∧ LocalContentKept side l i merged
  ownStat : LocalContentKept side l i merged →
    merged.contentMtimeMs = l.contentMtimeMs ∧ merged.contentSize = l.contentSize
  sourceStat : ¬ LocalContentKept side l i merged →
    merged.contentMtimeMs = ((contentSource side l i).pick l i).contentMtimeMs ∧
      merged.contentSize = ((contentSource side l i).pick l i).contentSize

/-- What the merge says of a file whose winner is deleted. -/
structure DeletedContent (winner merged : Attachment) : Prop where
  contentRev : merged.contentRev = winner.contentRev
  fileHash : merged.fileHash = winner.fileHash
  cloudKey : merged.cloudKey = winner.cloudKey
  stat : merged.contentMtimeMs = winner.contentMtimeMs ∧ merged.contentSize = winner.contentSize
  pending : merged.pendingContentUpload = none

structure MergedContent (opts : AttachmentMergeOptions) (side : Side) (l i merged : Attachment) : Prop where
  size : merged.size = (side.pick l i).size
  deletedAt : merged.deletedAt = (side.pick l i).deletedAt
  live : isFileDeleted (side.pick l i) = false → LiveContent opts side l i merged
  deleted : isFileDeleted (side.pick l i) = true → DeletedContent (side.pick l i) merged
  path : ∀ version, availableVersion side l i = some version →
    merged.uri = (sanitizeMergedAttachmentUri version.uri).map .str

/-! ### The fields of a merged pair -/

omit [Runtime] in
theorem orElse_fallback (a b : Option Json) : orElse (orElse a b) b = orElse a b := by
  by_cases ha : truthy a = true
  · simp [orElse, ha]
  · simp [orElse, ha]

theorem sanitizeMergedAttachmentUri_idem {value : Option Json} {uri : String}
    (h : sanitizeMergedAttachmentUri value = some uri) : sanitizeMergedAttachmentUri (some (.str uri)) = some uri := by
  unfold sanitizeMergedAttachmentUri safeAttachmentUri at h
  split at h
  · simp at h
  · rename_i s _
    simp only at h
    split_ifs at h with hempty htraversal
    obtain rfl := Option.some.inj h
    rw [not_or] at hempty
    simpa [sanitizeMergedAttachmentUri, safeAttachmentUri, asStr?, trim_trim, htraversal] using hempty

omit [Runtime] in
theorem isFile_pick (side : Side) {l i : Attachment} (hl : isFile l = true) (hi : isFile i = true) :
    isFile (side.pick l i) = true := by
  cases side
  · exact hl
  · exact hi

theorem mergeAttachmentPair_eq (opts : AttachmentMergeOptions) (side : Side) {l i : Attachment}
    (hl : isFile l = true) (hi : isFile i = true) :
    mergeAttachmentPair opts side l i =
      { side.pick l i with
        cloudKey := resolveCloudKey opts (side.pick l i) (some l) (some i)
        fileHash := (resolveContentIdentity side l i).fileHash
        contentRev := (resolveContentIdentity side l i).contentRev
        contentMtimeMs := (resolveContentIdentity side l i).contentMtimeMs
        contentSize := (resolveContentIdentity side l i).contentSize
        pendingContentUpload := (resolveContentIdentity side l i).pendingContentUpload
        uri := (resolveUri (side.pick l i) l i).1
        localStatus := statusAt (resolveUri (side.pick l i) l i).1 (resolveUri (side.pick l i) l i).2 } := by
  simp [mergeAttachmentPair, hl, hi, isFile_pick side hl hi]

/-- A pending replacement whose content wins keeps its own identity. -/
theorem localIdentitySurvived_of_pending {side : Side} {l i : Attachment}
    (h : localPendingCandidateWon side l i = true) : localIdentitySurvived side l i = true := by
  have hsource : contentSource side l i = .localItem := by
    rw [localPendingCandidateWon, Bool.and_eq_true, beq_iff_eq, beq_iff_eq] at h
    exact h.2
  by_cases hempty : normalizedHash l.fileHash = ""
  · simp [localIdentitySurvived, resolvedFileHash, h, hsource, hempty]
  · simp [localIdentitySurvived, resolvedFileHash, h, hsource, hempty]

theorem localIdentitySurvived_iff {side : Side} {l i : Attachment} :
    localIdentitySurvived side l i = true ↔
      contentRevOf ((contentSource side l i).pick l i) = contentRevOf l ∧
        normalizedHash (resolvedFileHash side l i) = normalizedHash l.fileHash ∧
        (normalizedHash l.fileHash ≠ "" ∨ localPendingCandidateWon side l i = true) := by
  simp only [localIdentitySurvived, Bool.and_eq_true, Bool.or_eq_true, decide_eq_true_eq, bne_iff_ne, beq_iff_eq]
  constructor
  · rintro ⟨hrev, ⟨hne, heq⟩ | ⟨⟨hpending, hlocal⟩, hresolved⟩⟩
    · exact ⟨hrev, heq, .inl hne⟩
    · exact ⟨hrev, hresolved.trans hlocal.symm, .inr hpending⟩
  · rintro ⟨hrev, heq, hne | hpending⟩
    · exact ⟨hrev, .inl ⟨hne, heq⟩⟩
    · by_cases hlocal : normalizedHash l.fileHash = ""
      · exact ⟨hrev, .inr ⟨⟨hpending, hlocal⟩, heq.trans hlocal⟩⟩
      · exact ⟨hrev, .inl ⟨hlocal, heq⟩⟩

omit [Runtime] in
theorem contentRevOf_source (side : Side) (l i : Attachment) :
    contentRevOf ((contentSource side l i).pick l i) = max (contentRevOf l) (contentRevOf i) := by
  unfold contentSource
  split_ifs with heq hgt
  · cases side <;> simp [heq]
  · exact (max_eq_left hgt.le).symm
  · exact (max_eq_right (not_lt.1 hgt)).symm

theorem uri_of_available {attachment : Attachment} (h : hasAvailableUri attachment = true) :
    safeUriOr attachment.uri = (sanitizeMergedAttachmentUri attachment.uri).map .str ∧
      (sanitizeMergedAttachmentUri attachment.uri).isSome = true := by
  rw [hasAvailableUri, Bool.and_eq_true] at h
  obtain ⟨uri, huri⟩ := Option.isSome_iff_exists.1 h.2
  rw [safeUriOr, huri]
  exact ⟨rfl, rfl⟩

theorem resolveUri_available {side : Side} {l i version : Attachment} (h : availableVersion side l i = some version) :
    (resolveUri (side.pick l i) l i).1 = (sanitizeMergedAttachmentUri version.uri).map .str ∧
      (sanitizeMergedAttachmentUri version.uri).isSome = true := by
  simp only [availableVersion, List.find?_cons] at h
  unfold resolveUri
  by_cases hwinner : hasAvailableUri (side.pick l i) = true
  · simp only [hwinner, Option.some.injEq] at h
    rw [if_pos hwinner, ← h]
    exact uri_of_available hwinner
  · simp only [hwinner] at h
    rw [if_neg hwinner]
    by_cases hlocal : hasAvailableUri l = true
    · simp only [hlocal, Option.some.injEq] at h
      rw [if_pos hlocal, ← h]
      exact uri_of_available hlocal
    · simp only [hlocal] at h
      rw [if_neg hlocal]
      by_cases hincoming : hasAvailableUri i = true
      · simp only [hincoming, Option.some.injEq] at h
        rw [if_pos hincoming, ← h]
        exact uri_of_available hincoming
      · simp [hincoming] at h

/-- The pair of `l` and `i` after the last pass; only the creation times are left to the clock. -/
def mergedVersion (opts : AttachmentMergeOptions) (localById incomingById : JsMap Attachment) (side : Side)
    (l i : Attachment) (createdAt : Option Json) : Attachment :=
  normalizeMergedAttachment opts localById incomingById { mergeAttachmentPair opts side l i with createdAt }

omit [Runtime] in
theorem resolveCloudKey_eq (opts : AttachmentMergeOptions) (merged l i : Attachment) :
    resolveCloudKey opts merged (some l) (some i) =
      if isFileDeleted merged then merged.cloudKey
      else if opts.preferIncomingAttachmentCloudKeys && !isFileDeleted i then i.cloudKey
      else orElse merged.cloudKey (orElse l.cloudKey i.cloudKey) := by
  cases hprefer : opts.preferIncomingAttachmentCloudKeys && !isFileDeleted i with
  | true => simp [resolveCloudKey, Option.filter, hprefer]
  | false => simp [resolveCloudKey, Option.filter, hprefer]

theorem resolveContentIdentity_created (side : Side) (l i : Attachment) (localCreated incomingCreated : Option Json) :
    resolveContentIdentity side { l with createdAt := localCreated } { i with createdAt := incomingCreated } =
      resolveContentIdentity side l i := by
  have hsource : contentSource side { l with createdAt := localCreated } { i with createdAt := incomingCreated } =
      contentSource side l i := rfl
  unfold resolveContentIdentity localIdentitySurvived resolvedFileHash localPendingCandidateWon
  simp only [hsource, apply_ite Attachment.contentMtimeMs, apply_ite Attachment.contentSize]
  generalize contentSource side l i = source
  cases side <;> cases source <;> rfl

/-- The creation times of the two versions do not reach the fields of the content. -/
theorem mergedVersion_created (opts : AttachmentMergeOptions) (localById incomingById : JsMap Attachment) (side : Side)
    {l i : Attachment} (localCreated incomingCreated createdAt : Option Json) (hl : isFile l = true)
    (hi : isFile i = true) :
    mergedVersion opts localById incomingById side { l with createdAt := localCreated }
        { i with createdAt := incomingCreated } createdAt =
      mergedVersion opts localById incomingById side l i createdAt := by
  have hl' : isFile { l with createdAt := localCreated } = true := hl
  have hi' : isFile { i with createdAt := incomingCreated } = true := hi
  rw [mergedVersion, mergedVersion, mergeAttachmentPair_eq opts side hl hi, mergeAttachmentPair_eq opts side hl' hi',
    resolveContentIdentity_created, resolveCloudKey_eq, resolveCloudKey_eq]
  cases side
  · rfl
  · rfl

section fields
variable (opts : AttachmentMergeOptions) {localById incomingById : JsMap Attachment} (side : Side) {l i : Attachment}
  (createdAt : Option Json)

theorem mergedVersion_eq (hl : isFile l = true) (hi : isFile i = true)
    (hlocal : localById.get? (side.pick l i).id = some l) (hincoming : incomingById.get? (side.pick l i).id = some i) :
    ∃ localStatus, mergedVersion opts localById incomingById side l i createdAt =
      { side.pick l i with
        createdAt
        uri := some (.str ((sanitizeMergedAttachmentUri (resolveUri (side.pick l i) l i).1).getD ""))
        cloudKey := resolveCloudKey opts
          { side.pick l i with cloudKey := resolveCloudKey opts (side.pick l i) (some l) (some i) } (some l) (some i)
        fileHash :=
          if isFileDeleted (side.pick l i) ||
              (resolveContentIdentity side l i).pendingContentUpload == some (.bool true) then
            (resolveContentIdentity side l i).fileHash
          else orElse (resolveContentIdentity side l i).fileHash (orElse l.fileHash i.fileHash)
        contentRev := (resolveContentIdentity side l i).contentRev
        contentMtimeMs := (resolveContentIdentity side l i).contentMtimeMs
        contentSize := (resolveContentIdentity side l i).contentSize
        pendingContentUpload := (resolveContentIdentity side l i).pendingContentUpload
        localStatus } := by
  refine ⟨(mergedVersion opts localById incomingById side l i createdAt).localStatus, ?_⟩
  have hfile := isFile_pick side hl hi
  simp only [mergedVersion, normalizeMergedAttachment, mergeAttachmentPair_eq opts side hl hi, hlocal, hincoming]
  simp [isFile] at hfile hl hi ⊢
  simp [isFile, hfile, hl, hi, Option.filter, resolveCloudKey, isFileDeleted]
  congr

/-- A deleted winner keeps its own content. -/
theorem mergedVersion_deleted (hl : isFile l = true) (hi : isFile i = true)
    (hlocal : localById.get? (side.pick l i).id = some l) (hincoming : incomingById.get? (side.pick l i).id = some i)
    (hdeleted : isFileDeleted (side.pick l i) = true) :
    DeletedContent (side.pick l i) (mergedVersion opts localById incomingById side l i createdAt) := by
  obtain ⟨localStatus, heq⟩ := mergedVersion_eq opts side createdAt hl hi hlocal hincoming
  have hcontent : resolveContentIdentity side l i =
      { fileHash := (side.pick l i).fileHash
        contentRev := (side.pick l i).contentRev
        contentMtimeMs := (side.pick l i).contentMtimeMs
        contentSize := (side.pick l i).contentSize
        pendingContentUpload := none } := by
    simp [resolveContentIdentity, hdeleted]
  have hkey : ∀ key, isFileDeleted { side.pick l i with cloudKey := key } = true := fun _ => hdeleted
  rw [heq]
  exact
    { contentRev := by simp [hcontent]
      fileHash := by simp [hcontent, hdeleted]
      cloudKey := by simp [resolveCloudKey_eq, hkey]
      stat := by simp [hcontent]
      pending := by simp [hcontent] }

omit [Runtime] in
/-- The fallback of the last pass finds the hash that the pair was given. -/
theorem resolvedFileHash_kept (h : localPendingCandidateWon side l i = false) :
    orElse (resolvedFileHash side l i) (orElse l.fileHash i.fileHash) = resolvedFileHash side l i := by
  simp only [resolvedFileHash, h, Bool.false_eq_true, if_false]
  exact orElse_fallback _ _

theorem mergedVersion_live (hl : isFile l = true) (hi : isFile i = true)
    (hlocal : localById.get? (side.pick l i).id = some l) (hincoming : incomingById.get? (side.pick l i).id = some i)
    (hlive : isFileDeleted (side.pick l i) = false) :
    LiveContent opts side l i (mergedVersion opts localById incomingById side l i createdAt) := by
  obtain ⟨localStatus, heq⟩ := mergedVersion_eq opts side createdAt hl hi hlocal hincoming
  have hcontent : resolveContentIdentity side l i =
      { fileHash := resolvedFileHash side l i
        contentRev := ((contentSource side l i).pick l i).contentRev
        contentMtimeMs := (if localIdentitySurvived side l i then l
          else (contentSource side l i).pick l i).contentMtimeMs
        contentSize := (if localIdentitySurvived side l i then l else (contentSource side l i).pick l i).contentSize
        pendingContentUpload :=
          if l.pendingContentUpload == some (.bool true) && localIdentitySurvived side l i then some (.bool true)
          else none } := by
    simp only [resolveContentIdentity, hlive, Bool.false_eq_true, if_false]
  generalize hmerged : mergedVersion opts localById incomingById side l i createdAt = merged at heq ⊢
  have hrev : merged.contentRev = ((contentSource side l i).pick l i).contentRev := by rw [heq, hcontent]
  have hhash : merged.fileHash = resolvedFileHash side l i := by
    rw [heq, hcontent]
    cases hpending : localPendingCandidateWon side l i with
    | true =>
      have hlocalPending : (l.pendingContentUpload == some (.bool true)) = true := by
        rw [localPendingCandidateWon, Bool.and_eq_true] at hpending
        exact hpending.1
      simp [hlive, hlocalPending, localIdentitySurvived_of_pending hpending]
    | false => simp [hlive, resolvedFileHash_kept side hpending]
  have hkept : LocalContentKept side l i merged ↔ localIdentitySurvived side l i = true := by
    rw [LocalContentKept, localIdentitySurvived_iff, hhash, contentRevOf, hrev]
    rfl
  exact
    { contentRev := hrev
      highest := by
        rw [← contentRevOf_source side l i, contentRevOf, hrev]
        rfl
      replacement := by
        intro hpending
        rw [hhash, resolvedFileHash, if_pos hpending]
      fileHash := by
        intro hpending
        rw [hhash, resolvedFileHash, hpending]
        rfl
      cloudKey := by
        have hkey : ∀ key, isFileDeleted { side.pick l i with cloudKey := key } = false := fun _ => hlive
        rw [heq]
        by_cases hprefer : opts.preferIncomingAttachmentCloudKeys = true ∧ isFileDeleted i = false
        · simp [resolveCloudKey_eq, hkey, hprefer.1, hprefer.2]
        · have hpass : (opts.preferIncomingAttachmentCloudKeys && !isFileDeleted i) = false := by
            simpa using hprefer
          rw [if_neg hprefer]
          simp [resolveCloudKey_eq, hkey, hpass, orElse_fallback]
      pending := by
        rw [hkept, heq, hcontent]
        simp
      ownStat := by
        intro hown
        rw [heq, hcontent, hkept.1 hown]
        exact ⟨rfl, rfl⟩
      sourceStat := by
        intro hother
        have hlost : localIdentitySurvived side l i = false := by
          rw [hkept] at hother
          simpa using hother
        rw [heq, hcontent, hlost]
        exact ⟨rfl, rfl⟩ }

theorem mergedVersion_content (hl : isFile l = true) (hi : isFile i = true)
    (hlocal : localById.get? (side.pick l i).id = some l) (hincoming : incomingById.get? (side.pick l i).id = some i) :
    MergedContent opts side l i (mergedVersion opts localById incomingById side l i createdAt) := by
  obtain ⟨localStatus, heq⟩ := mergedVersion_eq opts side createdAt hl hi hlocal hincoming
  exact
    { size := by rw [heq]
      deletedAt := by rw [heq]
      live := mergedVersion_live opts side createdAt hl hi hlocal hincoming
      deleted := mergedVersion_deleted opts side createdAt hl hi hlocal hincoming
      path := by
        intro version hversion
        obtain ⟨huri, hsome⟩ := resolveUri_available hversion
        obtain ⟨uri, hsafe⟩ := Option.isSome_iff_exists.1 hsome
        rw [heq]
        simp [huri, hsafe, sanitizeMergedAttachmentUri_idem hsafe] }

end fields

/-! ### The merged list -/

theorem normalizeTimestamps_attachment (attachment : Attachment) (counterpart : Option Attachment) :
    ∃ createdAt, normalizeTimestamps attachment counterpart = { attachment with createdAt } := by
  unfold normalizeTimestamps
  split
  · exact ⟨_, rfl⟩
  · exact ⟨attachment.createdAt, rfl⟩

theorem id_mergeAttachmentPair (opts : AttachmentMergeOptions) (side : Side) (l i : Attachment) :
    (mergeAttachmentPair opts side l i).id = (side.pick l i).id := by
  unfold mergeAttachmentPair
  dsimp only
  split
  · rfl
  · rfl

/-- The version that wins, of the two that the loop compares. -/
def attachmentWinner (opts : AttachmentMergeOptions) (l i : Attachment) : Side :=
  winnerSide (maxAllowedMergeTime opts.nowIso opts.dateNow) (repairedPair l i).1 (repairedPair l i).2

theorem mergedPair_attachment {opts : AttachmentMergeOptions} {l i merged : Attachment}
    (h : mergedPair (attachmentMergeOptions opts) l i = .ok merged) :
    ∃ localCreated incomingCreated createdAt,
      merged = { mergeAttachmentPair opts (attachmentWinner opts l i) { l with createdAt := localCreated }
        { i with createdAt := incomingCreated } with createdAt } := by
  obtain ⟨pair, hpair, h⟩ := bind_eq_ok h
  obtain rfl := Except.ok.inj h
  obtain rfl := Except.ok.inj hpair
  obtain ⟨localCreated, hlocal⟩ := normalizeTimestamps_attachment l (some i)
  obtain ⟨incomingCreated, hincoming⟩ := normalizeTimestamps_attachment i (some l)
  obtain ⟨createdAt, hcreated⟩ := normalizeTimestamps_attachment
    (mergeAttachmentPair opts (attachmentWinner opts l i) (repairedPair l i).1 (repairedPair l i).2) none
  refine ⟨localCreated, incomingCreated, createdAt, ?_⟩
  rw [← hlocal, ← hincoming]
  exact hcreated

theorem id_mergedPair {opts : AttachmentMergeOptions} {l i merged : Attachment} (hid : i.id = l.id)
    (h : mergedPair (attachmentMergeOptions opts) l i = .ok merged) : merged.id = l.id := by
  obtain ⟨localCreated, incomingCreated, createdAt, rfl⟩ := mergedPair_attachment h
  show (mergeAttachmentPair opts _ _ _).id = l.id
  rw [id_mergeAttachmentPair]
  cases attachmentWinner opts l i
  · rfl
  · exact hid

theorem id_entryOf {opts : AttachmentMergeOptions} {L I : List Attachment} {key : String} {merged : Attachment}
    (h : EntryOf (attachmentMergeOptions opts) L I key (some merged)) : merged.id = key := by
  unfold EntryOf mergedEntry at h
  split at h
  · cases h
  · rename_i l hl _
    cases h
    exact (entityId_normalizeTimestamps l none).trans (JsMap.mem_of_get?_ofItems hl).2
  · rename_i i _ hi
    cases h
    exact (entityId_normalizeTimestamps i none).trans (JsMap.mem_of_get?_ofItems hi).2
  · rename_i l i hl hi
    obtain ⟨r, hr, h⟩ := map_eq_ok h
    obtain rfl := Option.some.inj h
    have hlk : l.id = key := (JsMap.mem_of_get?_ofItems hl).2
    have hik : i.id = key := (JsMap.mem_of_get?_ofItems hi).2
    rw [id_mergedPair (hik.trans hlk.symm) hr, hlk]

theorem id_normalizeMergedAttachment (opts : AttachmentMergeOptions) (localById incomingById : JsMap Attachment)
    (attachment : Attachment) :
    (normalizeMergedAttachment opts localById incomingById attachment).id = attachment.id := by
  unfold normalizeMergedAttachment
  split
  · rfl
  · rfl

theorem entryOf_content {opts : AttachmentMergeOptions} {L I : List Attachment} {key : String} {l i merged : Attachment}
    (hlocal : (JsMap.ofItems (fun item : Attachment => item.id) L).get? key = some l)
    (hincoming : (JsMap.ofItems (fun item : Attachment => item.id) I).get? key = some i)
    (hl : isFile l = true) (hi : isFile i = true)
    (h : EntryOf (attachmentMergeOptions opts) L I key (some merged)) :
    MergedContent opts (attachmentWinner opts l i) l i
      (normalizeMergedAttachment opts (JsMap.ofItems (fun item : Attachment => item.id) L)
        (JsMap.ofItems (fun item : Attachment => item.id) I) merged) := by
  have hlk : l.id = key := (JsMap.mem_of_get?_ofItems hlocal).2
  have hik : i.id = key := (JsMap.mem_of_get?_ofItems hincoming).2
  have hkey : ((attachmentWinner opts l i).pick l i).id = key := by
    cases attachmentWinner opts l i
    · exact hlk
    · exact hik
  change mergedEntry (attachmentMergeOptions opts) (JsMap.ofItems (fun item : Attachment => item.id) L)
    (JsMap.ofItems (fun item : Attachment => item.id) I) key = .ok (some merged) at h
  unfold mergedEntry at h
  rw [hlocal, hincoming] at h
  obtain ⟨r, hr, h⟩ := map_eq_ok h
  obtain rfl := Option.some.inj h
  obtain ⟨localCreated, incomingCreated, createdAt, rfl⟩ := mergedPair_attachment hr
  have hcontent := mergedVersion_content opts (attachmentWinner opts l i) createdAt hl hi
    (hkey.symm ▸ hlocal) (hkey.symm ▸ hincoming)
  rw [← mergedVersion_created opts _ _ _ localCreated incomingCreated createdAt hl hi] at hcontent
  exact hcontent

theorem mem_of_visited {opts : AttachmentMergeOptions} {L I : List Attachment} {state : MergeState Attachment}
    {key : String} (h : mergeEntitiesWithStats (attachmentMergeOptions opts) L I = .ok state)
    (hkey : key ∈ visitedKeys L I) :
    ∃ merged ∈ state.merged, EntryOf (attachmentMergeOptions opts) L I key (some merged) := by
  have hall := merged_forall₂ h
  generalize visitedKeys L I = keys at hall hkey
  generalize state.merged = items at hall ⊢
  induction hall with
  | nil => cases hkey
  | cons hentry _ ih =>
    rcases List.mem_cons.1 hkey with rfl | hkey
    · exact ⟨_, by simp, hentry⟩
    · obtain ⟨merged, hmem, hmerged⟩ := ih hkey
      exact ⟨merged, by simp [hmem], hmerged⟩

/-- The options' `mergeConflict` never throws, so the loop returns where it can tell the attachments' ids. -/
theorem mergeAttachments_ok (opts : AttachmentMergeOptions) {L I : List Attachment}
    (hL : ∀ item ∈ L, isBlank item.id = false) (hI : ∀ item ∈ I, isBlank item.id = false) :
    ∃ out, mergeAttachments opts (some L) (some I) = .ok out := by
  have htotal : (attachmentMergeOptions opts).Total := by
    intro f hf l i _
    obtain rfl := Option.some.inj hf
    exact ⟨_, rfl⟩
  obtain ⟨state, hstate⟩ := mergeEntitiesWithStats_ok htotal hL hI
  unfold mergeAttachments
  simp only [Option.getD_some, hstate]
  split
  · exact ⟨_, rfl⟩
  · exact ⟨_, rfl⟩

theorem mergeAttachments_shared {opts : AttachmentMergeOptions} {L I : List Attachment} {l i : Attachment}
    {key : String} {out : Option (List Attachment)}
    (hlocal : (JsMap.ofItems (fun item : Attachment => item.id) L).get? key = some l)
    (hincoming : (JsMap.ofItems (fun item : Attachment => item.id) I).get? key = some i)
    (hl : isFile l = true) (hi : isFile i = true) (h : mergeAttachments opts (some L) (some I) = .ok out) :
    ∃ list merged, out = some list ∧ merged ∈ list ∧ merged.id = key ∧
      (∀ other ∈ list, other.id = key → other = merged) ∧ MergedContent opts (attachmentWinner opts l i) l i merged := by
  have hne : ¬ (L = [] ∧ I = []) := fun hempty =>
    List.ne_nil_of_mem (JsMap.mem_of_get?_ofItems hlocal).1 hempty.1
  simp only [mergeAttachments, Option.getD_some, if_neg hne] at h
  obtain ⟨state, hstate, h⟩ := bind_eq_ok h
  obtain rfl := Except.ok.inj h
  have hvisited : key ∈ visitedKeys L I := by
    rw [visitedKeys, JsMap.mem_unionKeys, ← JsMap.get?_isSome_iff]
    exact .inl (Option.isSome_iff_exists.2 ⟨l, hlocal⟩)
  obtain ⟨version, hmem, hversion⟩ := mem_of_visited hstate hvisited
  have hmapped := List.mem_map_of_mem (f := normalizeMergedAttachment opts
    (JsMap.ofItems (fun item : Attachment => item.id) L) (JsMap.ofItems (fun item : Attachment => item.id) I)) hmem
  refine ⟨_, _, if_neg (List.ne_nil_of_mem hmapped), hmapped, ?_, ?_, entryOf_content hlocal hincoming hl hi hversion⟩
  · rw [id_normalizeMergedAttachment, id_entryOf hversion]
  · intro other hother hid
    obtain ⟨version', hmem', rfl⟩ := List.mem_map.1 hother
    obtain ⟨key', hversion'⟩ := entryOf_of_mem hstate hmem'
    rw [id_normalizeMergedAttachment, id_entryOf hversion'] at hid
    subst hid
    have heq := Except.ok.inj (hversion'.symm.trans hversion)
    rw [Option.some.inj heq]

/-- Whichever version of the owner wins, the file that both have comes out once, and as `MergedContent` says. The merge
returns where no attachment's id is blank. -/
theorem mergedFile_content (opts : AttachmentMergeOptions) (owner : Side) {localPurgedAt incomingPurgedAt : Option Json}
    {L I : List Attachment} {l i : Attachment} {key : String} (hpurgedLocal : truthy localPurgedAt = false)
    (hpurgedIncoming : truthy incomingPurgedAt = false)
    (hlocal : (JsMap.ofItems (fun item : Attachment => item.id) L).get? key = some l)
    (hincoming : (JsMap.ofItems (fun item : Attachment => item.id) I).get? key = some i)
    (hl : isFile l = true) (hi : isFile i = true) :
    ((∀ item ∈ L ++ I, isBlank item.id = false) →
      ∃ out, mergeOwnedAttachments opts owner localPurgedAt incomingPurgedAt (some L) (some I) = .ok out) ∧
    ∀ out, mergeOwnedAttachments opts owner localPurgedAt incomingPurgedAt (some L) (some I) = .ok out →
      ∃ list merged, out = some list ∧ merged ∈ list ∧ merged.id = key ∧
        (∀ other ∈ list, other.id = key → other = merged) ∧
        MergedContent opts (attachmentWinner opts l i) l i merged := by
  have howner : truthy (owner.pick localPurgedAt incomingPurgedAt) = false := by
    cases owner
    · exact hpurgedLocal
    · exact hpurgedIncoming
  have hmerge : mergeOwnedAttachments opts owner localPurgedAt incomingPurgedAt (some L) (some I) =
      mergeAttachments opts (some L) (some I) := by
    simp [mergeOwnedAttachments, howner, hpurgedLocal, hpurgedIncoming]
  rw [hmerge]
  constructor
  · intro hids
    exact mergeAttachments_ok opts (fun item h => hids item (by simp [h])) (fun item h => hids item (by simp [h]))
  · intro out hout
    exact mergeAttachments_shared hlocal hincoming hl hi hout

end

section run

attribute [local instance] isoRuntime

def reportOptions : AttachmentMergeOptions where
  nowIso := some "2026-03-01T00:00:00.000Z"
  dateNow := 0

/-- The file as this device has it, edited here. -/
def editedReport : Attachment where
  id := "f1"
  updatedAt := some (.str "2026-02-01T00:00:00.000Z")
  kind := some (.str "file")
  uri := some (.str "/here/report.pdf")
  size := some (.num 20)
  cloudKey := some (.str "attachments/f1.pdf")
  fileHash := some (.str "aa")
  contentRev := some (.num 2)

/-- The other device renamed it later. -/
def renamedReport : Attachment where
  id := "f1"
  updatedAt := some (.str "2026-02-02T00:00:00.000Z")
  kind := some (.str "file")
  title := some (.str "Report")
  uri := some (.str "/there/report.pdf")
  size := some (.num 10)
  cloudKey := some (.str "attachments/f1-old.pdf")
  fileHash := some (.str "bb")
  contentRev := some (.num 1)

/-- The merge of the two versions of a task where each device has its version of the report. -/
def mergedReports (owner : Side) : Except JsError (Option (List Attachment)) :=
  mergeOwnedAttachments reportOptions owner none none (some [editedReport]) (some [renamedReport])

theorem report_content :
    ∃ out list merged, mergedReports .localItem = .ok out ∧ out = some list ∧ merged ∈ list ∧
      MergedContent reportOptions (attachmentWinner reportOptions editedReport renamedReport) editedReport renamedReport
        merged := by
  obtain ⟨hreturns, hcontent⟩ := @mergedFile_content _ reportOptions .localItem none none [editedReport]
    [renamedReport] _ _ "f1" rfl rfl rfl rfl
    (by decide) (by decide)
  obtain ⟨out, hout⟩ := hreturns (by decide)
  obtain ⟨list, merged, hlist, hmem, -, -, hmerged⟩ := hcontent out hout
  exact ⟨out, list, merged, hout, hlist, hmem, hmerged⟩

/-- What comes out: the record of the rename, with the hash and the revision of the edit. -/
def mergedReport : Attachment :=
  { renamedReport with
    fileHash := editedReport.fileHash
    contentRev := editedReport.contentRev
    localStatus := some (.str "available") }

/-- The version with the higher content revision keeps its hash and revision; its cloud key and size and the path of the
device's own copy give way, whichever version of the task wins. -/
theorem report_record :
    contentRevOf renamedReport < contentRevOf editedReport ∧ mergedReport.cloudKey ≠ editedReport.cloudKey ∧
      mergedReport.size ≠ editedReport.size ∧ mergedReport.uri = renamedReport.uri ∧
      hasAvailableUri editedReport = true ∧ mergedReport.uri ≠ editedReport.uri ∧
      mergedReports .localItem = .ok (some [mergedReport]) ∧ mergedReports .incomingItem = .ok (some [mergedReport]) := by
  decide +kernel

end run

end Mindwtr.Sync
