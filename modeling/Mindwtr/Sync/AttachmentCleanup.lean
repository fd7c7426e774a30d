import Mindwtr.Entity.Attachments
import Mindwtr.Sync.RemotePayload

/-!
# Cleaning up attachments

`runAttachmentCleanupLifecycle` of `attachment-cleanup.ts` with `normalizePendingRemoteDeletes` of
`attachment-transfer.ts`. What nothing live refers to is deleted: first the local files, then the remote copies, those
that an earlier cleanup could not delete before the new ones. A tombstone stays in the document and is marked instead;
a delete that fails waits in the settings. The callbacks answer for every file; where one of them throws, or a delete is
aborted, the whole cleanup is rejected.
-/

namespace Mindwtr.Sync

open Mindwtr.Js

/-! ### Pending deletes -/

structure PendingRemoteAttachmentDelete where
  cloudKey : String
  title : Option String
  attempts : Int
  lastErrorAt : Option String
deriving DecidableEq, Repr

def PendingRemoteAttachmentDelete.toJson (entry : PendingRemoteAttachmentDelete) : Json :=
  .obj (definedEntries [("cloudKey", some (.str entry.cloudKey)), ("title", entry.title.map .str),
    ("attempts", some (.num entry.attempts)), ("lastErrorAt", entry.lastErrorAt.map .str)])

/-- An item of the list, where it is an object with a cloud key. -/
def pendingRemoteDelete? (item : Json) : Option PendingRemoteAttachmentDelete :=
  let cloudKey := (asStr? (prop (some item) "cloudKey")).elim "" trim
  if cloudKey = "" then none
  else
    some { cloudKey
           title := asStr? (prop (some item) "title")
           attempts := (asNum? (prop (some item) "attempts")).elim 0 fun n => max 0 n.floor
           lastErrorAt := asStr? (prop (some item) "lastErrorAt") }

/-- Of the entries of one key the last with the most attempts stays. -/
def keepPending (deduped : JsMap PendingRemoteAttachmentDelete) (next : PendingRemoteAttachmentDelete) :
    JsMap PendingRemoteAttachmentDelete :=
  if (deduped.get? next.cloudKey).all fun existing => decide (existing.attempts ≤ next.attempts) then
    deduped.set next.cloudKey next
  else deduped

def normalizePendingRemoteDeletes (value : Option Json) : List PendingRemoteAttachmentDelete :=
  (((((value.bind Json.asArr?).getD []).filterMap pendingRemoteDelete?).foldl keepPending .empty).entries).map Prod.snd

def pendingRemoteAttachmentDeleteMaxAttempts : Int := 12
def pendingRemoteAttachmentDeleteMaxAgeMs : Int := 30 * 24 * 60 * 60 * 1000

/-! ### What is referred to -/

section
variable [Runtime]

def cloudKeyOf (value : Option Json) : Option String := asStr? (sanitizeAttachmentCloudKeyForSyncMerge value)

def hasPrefixIgnoringCase (lower : String) (cs : List Char) : Bool :=
  (cs.take lower.toList.length).map Char.toLower == lower.toList

/-- `/^[a-z]:\//i`. -/
def startsWithDrive : List Char → Bool
  | letter :: ':' :: '/' :: _ => isAsciiLetter letter
  | _ => false

/-- The name of a local file, whatever its spelling. -/
def normalizeAttachmentCleanupUri (uri : Option Json) : Option String :=
  match (asStr? uri).filter (· != "") with
  | none => none
  | some uri =>
    let cs := uri.toList
    if hasPrefixIgnoringCase "http://" cs || hasPrefixIgnoringCase "https://" cs ||
        "content://".toList.isPrefixOf cs then none
    else
      let unprefixed := if hasPrefixIgnoringCase "file://" cs then cs.drop 7 else cs
      let slashed := unprefixed.map fun c => if c.toNat = 92 then '/' else c
      let rooted := if slashed.head? == some '/' && startsWithDrive (slashed.drop 1) then slashed.drop 1 else slashed
      let path := (Runtime.decodeURIComponent (String.ofList rooted)).getD (String.ofList rooted)
      some (if startsWithDrive path.toList then Runtime.toLowerCase path else path)

/-- The attachments of every task and project, with whether their owner is purged. -/
def ownedAttachments (data : AppData) : List (Bool × Attachment) :=
  (data.tasks.flatMap fun task => (task.attachments.getD []).map fun a => (truthy task.purgedAt, a)) ++
    data.projects.flatMap fun project => (project.attachments.getD []).map fun a => (truthy project.purgedAt, a)

def isLiveAttachment (owned : Bool × Attachment) : Bool := !owned.1 && !truthy owned.2.deletedAt

def liveAttachments (data : AppData) : List Attachment :=
  ((ownedAttachments data).filter isLiveAttachment).map Prod.snd

def findOrphanedAttachments (data : AppData) : List Attachment :=
  let activeReferenceIds := (liveAttachments data).map (·.id)
  ((JsMap.ofItems (fun a : Attachment => a.id) ((ownedAttachments data).map Prod.snd)).entries.map Prod.snd).filter
    fun attachment => !activeReferenceIds.contains attachment.id

def findDeletedAttachmentsForFileCleanup (data : AppData) : List Attachment :=
  (JsMap.ofItems (fun a : Attachment => a.id)
    (((ownedAttachments data).map Prod.snd).filter fun a => truthy a.deletedAt)).entries.map Prod.snd

def findPurgedParentAttachmentIds (data : AppData) : List String :=
  ((ownedAttachments data).filter Prod.fst).map (·.2.id)

def liveLocalUris (data : AppData) : List String :=
  (liveAttachments data).filterMap fun a => normalizeAttachmentCleanupUri a.uri

def liveCloudKeys (data : AppData) : List String := (liveAttachments data).filterMap fun a => cloudKeyOf a.cloudKey

def isAttachmentLocalResourceReferenced (attachment : Attachment) (data : AppData) : Bool :=
  (normalizeAttachmentCleanupUri attachment.uri).any fun uri => uri != "" && (liveLocalUris data).contains uri

def isAttachmentCloudResourceReferenced (cloudKey : String) (data : AppData) : Bool :=
  cloudKey != "" && (liveCloudKeys data).contains cloudKey

/-! ### Retrying -/

/-- `parseTimestampMs`. -/
def parseTimestampMs (value : Option String) : Option Int := (value.filter fun s => !isBlank s).bind dateParse

def shouldRetainPendingRemoteAttachmentDelete (entry : PendingRemoteAttachmentDelete) (nowIso : String) : Bool :=
  if pendingRemoteAttachmentDeleteMaxAttempts ≤ max 0 entry.attempts then false
  else
    match parseTimestampMs entry.lastErrorAt, parseTimestampMs (some nowIso) with
    | some lastErrorMs, some nowMs => decide (nowMs - lastErrorMs ≤ pendingRemoteAttachmentDeleteMaxAgeMs)
    | _, _ => true

def prunePendingRemoteAttachmentDeletes (pendingRemoteDeletes : List PendingRemoteAttachmentDelete) (nowIso : String) :
    List PendingRemoteAttachmentDelete :=
  pendingRemoteDeletes.filter fun entry => shouldRetainPendingRemoteAttachmentDelete entry nowIso

/-! ### The document afterwards -/

/-- What a cleanup has found out. -/
structure AttachmentCleanupApplyResult where
  lastCleanupAt : String
  pendingRemoteDeletes : List PendingRemoteAttachmentDelete
  removableAttachmentIds : List String
  processedFileTombstoneIds : List String
  clearedCloudKeys : List String

/-- A tombstone loses the name of a remote copy that is gone. -/
def clearCloudKey (result : AttachmentCleanupApplyResult) (attachment : Attachment) : Attachment :=
  if truthy attachment.deletedAt && (cloudKeyOf attachment.cloudKey).any fun key =>
      key != "" && result.clearedCloudKeys.contains key then
    { attachment with cloudKey := none, updatedAt := some (.str result.lastCleanupAt) }
  else attachment

def markProcessed (result : AttachmentCleanupApplyResult) (attachment : Attachment) : Attachment :=
  clearCloudKey result
    (if result.processedFileTombstoneIds.contains attachment.id && attachment.localStatus != some (.str "missing") then
      { attachment with localStatus := some (.str "missing") }
    else attachment)

def cleanAttachments (result : AttachmentCleanupApplyResult) (attachments : Option (List Attachment)) :
    Option (List Attachment) :=
  attachments.map fun l =>
    (l.filter fun a => !result.removableAttachmentIds.contains a.id).map (markProcessed result)

def cleansAttachments (result : AttachmentCleanupApplyResult) : Bool :=
  !result.removableAttachmentIds.isEmpty || !result.processedFileTombstoneIds.isEmpty || !result.clearedCloudKeys.isEmpty

/-- `settings.attachments`. -/
def attachmentSettings (settings : DocumentSettings) : Option Json := lookup "attachments" settings.others

def withAttachmentSettings (result : AttachmentCleanupApplyResult) (settings : DocumentSettings) : DocumentSettings :=
  let pending := prunePendingRemoteAttachmentDeletes result.pendingRemoteDeletes result.lastCleanupAt
  let attachments := setProp "pendingRemoteDeletes"
    (if pending.isEmpty then none else some (.arr (pending.map PendingRemoteAttachmentDelete.toJson)))
    (setProp "lastCleanupAt" (some (.str result.lastCleanupAt)) (recordOf (attachmentSettings settings)))
  { settings with others := setProp "attachments" (some (.obj attachments)) settings.others }

def applyAttachmentCleanupResult (data : AppData) (result : AttachmentCleanupApplyResult) : AppData :=
  { data with
    tasks :=
      if cleansAttachments result then
        data.tasks.map fun task => { task with attachments := cleanAttachments result task.attachments }
      else data.tasks
    projects :=
      if cleansAttachments result then
        data.projects.map fun project => { project with attachments := cleanAttachments result project.attachments }
      else data.projects
    settings := withAttachmentSettings result data.settings }

/-! ### A cleanup -/

structure AttachmentCleanupRemoteTarget where
  cloudKey : String
  title : String
deriving DecidableEq, Repr

/-- How a remote delete ends: `missing` stands for status 404 and `isRemoteMissingError`, `aborted` for a
`LocalSyncAbort`. -/
inductive RemoteDeleteAnswer where
  | deleted
  | missing
  | failed
  | aborted
deriving DecidableEq, Repr

abbrev RemoteDelete := AttachmentCleanupRemoteTarget → RemoteDeleteAnswer

/-- The callbacks; those that are true throw. -/
structure AttachmentCleanupLifecycleOptions where
  deleteLocalAttachment : Attachment → Bool
  deleteRemoteAttachment : Option RemoteDelete
  /-- Without a result where it throws. -/
  resolveRemoteDeleteAttachment : Option (Option RemoteDelete)
  shouldRetainRemoteAttachment : AttachmentCleanupRemoteTarget → Bool
  now : String
  maxAttachmentTargets : Option Rat
  beforeEachAttachment : Attachment → Bool
  beforeEachRemoteDelete : AttachmentCleanupRemoteTarget → Bool

/-- `none` where there is no limit. -/
def maxTargets (options : AttachmentCleanupLifecycleOptions) : Option Nat :=
  options.maxAttachmentTargets.map fun limit => limit.floor.toNat

def underLimit (limit : Option Nat) (count : Nat) : Bool := limit.all fun limit => decide (count < limit)

/-- What the first loop has noted. -/
structure LocalCleanup where
  processedOrphanedIds : List String
  processedFileTombstoneIds : List String
  clearedCloudKeys : List String
  remoteCleanupTargets : JsMap AttachmentCleanupRemoteTarget

section
variable (options : AttachmentCleanupLifecycleOptions) (data : AppData)

/-- A title that is there and not empty, or the key. -/
def titleOr (title : Option String) (cloudKey : String) : String := (title.filter (· != "")).getD cloudKey

def cleanupTargets : List Attachment :=
  (JsMap.ofItems (fun a : Attachment => a.id)
    (findOrphanedAttachments data ++ findDeletedAttachmentsForFileCleanup data)).entries.map Prod.snd

def previousPending : JsMap PendingRemoteAttachmentDelete :=
  JsMap.ofList ((normalizePendingRemoteDeletes (prop (attachmentSettings data.settings) "pendingRemoteDeletes")).filterMap
    fun pending => (cloudKeyOf (some (.str pending.cloudKey))).map fun cloudKey =>
      (cloudKey, { pending with cloudKey }))

/-- The pending deletes that nothing live refers to. -/
def pendingTargets : JsMap AttachmentCleanupRemoteTarget :=
  JsMap.ofList (((previousPending data).entries.filter fun entry =>
    !isAttachmentCloudResourceReferenced entry.1 data).map fun entry =>
      (entry.1, { cloudKey := entry.1, title := titleOr entry.2.title entry.1 }))

/-- Whether a callback throws for a target. -/
def localThrows (attachment : Attachment) : Bool :=
  let alreadyStampedTombstone := truthy attachment.deletedAt && attachment.localStatus == some (.str "missing")
  options.beforeEachAttachment attachment ||
    (!alreadyStampedTombstone && !isAttachmentLocalResourceReferenced attachment data &&
      options.deleteLocalAttachment attachment)

/-- One turn of the first loop. -/
def noteTarget (state : LocalCleanup) (attachment : Attachment) : LocalCleanup :=
  let state := if ((findOrphanedAttachments data).map (·.id)).contains attachment.id then
      { state with processedOrphanedIds := state.processedOrphanedIds ++ [attachment.id] }
    else state
  let state := if attachment.kind == some (.str "file") &&
        !(findPurgedParentAttachmentIds data).contains attachment.id then
      { state with processedFileTombstoneIds := state.processedFileTombstoneIds ++ [attachment.id] }
    else state
  match cloudKeyOf attachment.cloudKey with
  | none => state
  | some cloudKey =>
    if isAttachmentCloudResourceReferenced cloudKey data then
      { state with clearedCloudKeys := state.clearedCloudKeys ++ [cloudKey] }
    else
      let target : AttachmentCleanupRemoteTarget := { cloudKey, title := titleOr (asStr? attachment.title) cloudKey }
      { state with remoteCleanupTargets := state.remoteCleanupTargets.set cloudKey target }

/-- What the second loop has noted, with the remote deletes that were issued. -/
structure RemoteCleanup where
  pending : JsMap PendingRemoteAttachmentDelete
  clearedCloudKeys : List String
  issued : List (AttachmentCleanupRemoteTarget × RemoteDeleteAnswer)

/-- A target that waits for the next cleanup. -/
def postponed (target : AttachmentCleanupRemoteTarget) : PendingRemoteAttachmentDelete where
  cloudKey := target.cloudKey
  title := some target.title
  attempts := (((previousPending data).get? target.cloudKey).map (·.attempts)).getD 0
  lastErrorAt := ((previousPending data).get? target.cloudKey).bind (·.lastErrorAt)

def failedDelete (target : AttachmentCleanupRemoteTarget) : PendingRemoteAttachmentDelete where
  cloudKey := target.cloudKey
  title := some target.title
  attempts := (((previousPending data).get? target.cloudKey).map (·.attempts)).getD 0 + 1
  lastErrorAt := some options.now

/-- The turns of the second loop from the target number `count`; false where one throws. -/
def remoteLoop (deleteRemote : Option RemoteDelete) :
    Nat → List AttachmentCleanupRemoteTarget → RemoteCleanup → RemoteCleanup × Bool
  | _, [], state => (state, true)
  | count, target :: rest, state =>
    let wait : RemoteCleanup := { state with pending := state.pending.set target.cloudKey (postponed data target) }
    if !underLimit (maxTargets options) count then remoteLoop deleteRemote count rest wait
    else if options.shouldRetainRemoteAttachment target then
      remoteLoop deleteRemote (count + 1) rest
        { state with clearedCloudKeys := state.clearedCloudKeys ++ [target.cloudKey] }
    else
      match deleteRemote with
      | none => remoteLoop deleteRemote (count + 1) rest wait
      | some delete =>
        if options.beforeEachRemoteDelete target then (state, false)
        else
          let state : RemoteCleanup := { state with issued := state.issued ++ [(target, delete target)] }
          match delete target with
          | .deleted | .missing =>
            remoteLoop deleteRemote (count + 1) rest
              { state with clearedCloudKeys := state.clearedCloudKeys ++ [target.cloudKey] }
          | .failed =>
            remoteLoop deleteRemote (count + 1) rest
              { state with pending := state.pending.set target.cloudKey (failedDelete options data target) }
          | .aborted => (state, false)

/-- A cleanup: the remote deletes it issues and the document, without one where it is rejected. -/
structure AttachmentCleanupRun where
  issued : List (AttachmentCleanupRemoteTarget × RemoteDeleteAnswer)
  appData : Option AppData

def batch : List Attachment :=
  match maxTargets options with
  | none => cleanupTargets data
  | some limit => (cleanupTargets data).take limit

def localCleanup : LocalCleanup :=
  (batch options data).foldl (noteTarget data)
    { processedOrphanedIds := [], processedFileTombstoneIds := [], clearedCloudKeys := []
      remoteCleanupTargets := pendingTargets data }

def remoteTargets : List AttachmentCleanupRemoteTarget :=
  (localCleanup options data).remoteCleanupTargets.entries.map Prod.snd

/-- The delete that is given, or else the one that is resolved where a target of the batch needs one. -/
def resolvedRemoteDelete : Option (Option RemoteDelete) :=
  let remoteTargetsInBatch := (maxTargets options).elim (remoteTargets options data) (remoteTargets options data).take
  let needed := remoteTargetsInBatch.any fun target => !options.shouldRetainRemoteAttachment target
  match options.deleteRemoteAttachment with
  | some delete => some (some delete)
  | none => if needed then options.resolveRemoteDeleteAttachment else some none

def cleanupResult (remote : RemoteCleanup) : AttachmentCleanupApplyResult where
  lastCleanupAt := options.now
  pendingRemoteDeletes := remote.pending.entries.map Prod.snd
  removableAttachmentIds := (localCleanup options data).processedOrphanedIds.filter
    (findPurgedParentAttachmentIds data).contains
  processedFileTombstoneIds := (localCleanup options data).processedFileTombstoneIds
  clearedCloudKeys := remote.clearedCloudKeys

def runAttachmentCleanupLifecycle : AttachmentCleanupRun :=
  if (batch options data).any (localThrows options data) then { issued := [], appData := none }
  else
    match resolvedRemoteDelete options data with
    | none => { issued := [], appData := none }
    | some deleteRemote =>
      let start : RemoteCleanup :=
        { pending := .empty, clearedCloudKeys := (localCleanup options data).clearedCloudKeys, issued := [] }
      let (remote, completed) := remoteLoop options data deleteRemote 0 (remoteTargets options data) start
      { issued := remote.issued
        appData :=
          if completed then some (applyAttachmentCleanupResult data (cleanupResult options data remote)) else none }

end

end

end Mindwtr.Sync
