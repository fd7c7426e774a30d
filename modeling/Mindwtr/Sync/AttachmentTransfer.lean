import Mindwtr.Lib.Calls
import Mindwtr.Sync.AttachmentCleanup
import Mindwtr.Sync.CryptoContainer

/-!
# Transferring attachments

`runAttachmentTransferLifecycle` of `attachment-transfer.ts`, with `attachment-change-detection.ts`. For every live file
the local status is brought up to date, a file without a remote copy is uploaded, one without a local copy downloaded,
and one that has both is looked at for a change of its content. Whatever touches a file or the remote is a call that
answers as it likes or throws; a transfer may also write to the attachment it is given, whether it throws or not. The
hooks that only report (`onUploadError`, `onDownloadError`, `onLocalEditRace`) are left out.
-/

namespace Mindwtr.Sync

open Mindwtr.Js Mindwtr.Lib Transaction

structure LocalFileStat where
  mtimeMs : Rat
  size : Rat
deriving DecidableEq

structure AttachmentUploadSnapshot where
  sourcePath : String
  fileHash : String
  stat : LocalFileStat

inductive LocalAttachmentPresence where
  | present
  | confirmedNotFound
  | unreadable

inductive AttachmentDownloadExpectation where
  | absent
  | present (sha256 : String)

inductive ContentChangePhase where
  | prepare
  | postMerge
deriving DecidableEq

inductive UploadAdmissionError where
  | sizeUnavailable
  | limitInvalid
  | tooLarge

/-- What a callback throws; `fatal` is what `isFatalError` says of it. -/
structure TransferFault where
  fatal : Bool

/-- What a transfer leaves of the attachment, and how it ends. -/
structure TransferOutcome where
  attachment : Attachment
  result : Except TransferFault Bool

inductive TransferPolicy where
  | shouldSkip
  | shouldUpload
  | shouldDownload

inductive TransferOp where
  | beforeEachAttachment
  | policy (gate : TransferPolicy) (attachment : Attachment)
  | getLocalFilePresence (path : String) (attachment : Attachment)
  | getLocalFileStat (path : String) (attachment : Attachment)
  | computeLocalFileHash (path : String) (attachment : Attachment)
  | createUploadSnapshot (path : String) (attachment : Attachment)
  | dispose (snapshot : AttachmentUploadSnapshot)
  | onUpload (attachment : Attachment) (path : String) (snapshot : Option AttachmentUploadSnapshot)
  | onDownload (attachment : Attachment) (expectation : AttachmentDownloadExpectation)

abbrev TransferOp.Answer : TransferOp → Type
  | .beforeEachAttachment | .dispose _ => Unit
  | .policy _ _ => Bool
  | .getLocalFilePresence _ _ => LocalAttachmentPresence
  | .getLocalFileStat _ _ => Option LocalFileStat
  | .computeLocalFileHash _ _ => Option String
  | .createUploadSnapshot _ _ => Option AttachmentUploadSnapshot
  | .onUpload _ _ _ | .onDownload _ _ => TransferOutcome

/-- A call, with the attachment that the loop is at. -/
structure TransferCall where
  original : Attachment
  op : TransferOp

/-- The working copy of an attachment, and the stats that could not be hashed in this or an earlier run. -/
structure TransferVars where
  attachment : Attachment
  itemMutated : Bool
  unhashableStats : String → Option LocalFileStat

abbrev Transfer (A : Type) :=
  Transaction TransferCall (fun call => call.op.Answer) TransferFault TransferFault TransferVars A

/-- Of the optional callbacks, whether they are given. -/
structure AttachmentTransferLifecycleOptions where
  resolveLocalPath : String → String
  canUploadFrom : String → Attachment → Bool
  hasCloudCopy : Attachment → Bool
  deferUploads : Bool
  allowPendingRemoteRecovery : Bool
  maxBufferedUploadBytes : Option Rat
  isFatalError : UploadAdmissionError → Bool
  getLocalFileStat : Bool
  computeLocalFileHash : Bool
  createUploadSnapshot : Bool
  requireUploadSnapshot : Bool
  contentChangePhase : Option ContentChangePhase

/-- A pass of the loop: the options and the attachment it is at. -/
structure TransferPass where
  options : AttachmentTransferLifecycleOptions
  original : Attachment

/-- `Number.isSafeInteger` of a number that is not negative. -/
def isSafeSize (n : Rat) : Bool := decide (n.den = 1 ∧ 0 ≤ n ∧ n ≤ CryptoContainer.maxSafeInteger)

def assertBufferedAttachmentUploadSize (actualBytes limitBytes : Rat) : Except UploadAdmissionError Unit :=
  if !isSafeSize actualBytes then .error .sizeUnavailable
  else if !isSafeSize limitBytes then .error .limitInvalid
  else if limitBytes < actualBytes then .error .tooLarge
  else .ok ()

def bumpAttachmentContentRevision (attachment : Attachment) : Rat := (asNum? attachment.contentRev).getD 0 + 1

def applyAttachmentContentStat (stat : LocalFileStat) (hash : Option String) (attachment : Attachment) : Attachment :=
  { attachment with
    contentMtimeMs := some (.num stat.mtimeMs)
    contentSize := some (.num stat.size)
    fileHash := ((hash.filter (· != "")).map .str).or attachment.fileHash }

def hasRecordedStat (attachment : Attachment) (stat : LocalFileStat) : Bool :=
  attachment.contentMtimeMs == some (.num stat.mtimeMs) && attachment.contentSize == some (.num stat.size)

def isPendingUpload (attachment : Attachment) : Bool := attachment.pendingContentUpload == some (.bool true)

def working : Transfer Attachment := do return (← get).attachment

def write (f : Attachment → Attachment) : Transfer Unit := modify fun v => { v with attachment := f v.attachment }

def writeItem (f : Attachment → Attachment) : Transfer Unit :=
  modify fun v => { v with attachment := f v.attachment, itemMutated := true }

def setUnhashable (stat : Option LocalFileStat) : Transfer Unit :=
  modify fun v => { v with unhashableStats := Function.update v.unhashableStats v.attachment.id stat }

/-- `.catch(() => null)`. -/
def orNull {A : Type} (x : Transfer (Option A)) : Transfer (Option A) := tryCatch x fun _ => pure none

/-- The `catch` of a transfer, which throws a fatal error again. -/
def orReport {A : Type} (x : Transfer A) (otherwise : A) : Transfer A :=
  tryCatch x fun fault => if fault.fatal then throw fault else pure otherwise

def recordStat (stat : LocalFileStat) (hash : Option String) : Transfer Unit := do
  if !hasRecordedStat (← working) stat then writeItem (applyAttachmentContentStat stat hash)

def settle : Except TransferFault Bool → Transfer Bool
  | .ok transferred => pure transferred
  | .error fault => throw fault

section
variable [Runtime] (pass : TransferPass)

/-- `hash.trim().toLowerCase()`. -/
def normalizeHash (hash : String) : String := Runtime.toLowerCase (trim hash)

def recordedHash (attachment : Attachment) : Option String := (asStr? attachment.fileHash).map normalizeHash

def isRecordedHash (attachment : Attachment) (hash : String) : Bool :=
  (asStr? attachment.fileHash).any fun recorded =>
    recorded != "" && Runtime.toLowerCase hash == Runtime.toLowerCase recorded

/-- The path behind the `uri`, or nothing for a link. -/
def TransferPass.localPath : String :=
  let uri := (asStr? pass.original.uri).getD ""
  let rawUri := if uri = "" then "" else pass.options.resolveLocalPath uri
  if hasPrefixIgnoringCase "http://" rawUri.toList || hasPrefixIgnoringCase "https://" rawUri.toList then "" else rawUri

def ask (op : TransferOp) : Transfer op.Answer := Transaction.call id (TransferCall.mk pass.original op)

def getLocalFileStat (path : String) : Transfer (Option LocalFileStat) := do
  orNull (ask pass (.getLocalFileStat path (← working)))

def computeLocalFileHash (attachment : Attachment) : Transfer (Option String) :=
  if pass.options.computeLocalFileHash then ask pass (.computeLocalFileHash pass.localPath attachment) else pure none

def assertUploadStatAllowed (stat : LocalFileStat) : Transfer Unit :=
  match pass.options.maxBufferedUploadBytes.map (assertBufferedAttachmentUploadSize stat.size) with
  | some (.error error) => throw ⟨pass.options.isFatalError error⟩
  | _ => pure ()

def refreshContentStat (path : String) (verifyDownloadedGeneration : Bool) : Transfer Unit := do
  if pass.options.getLocalFileStat then
    match ← getLocalFileStat pass path with
    | none => pure ()
    | some stat =>
      let attachment ← working
      let expectedHash := recordedHash attachment
      if verifyDownloadedGeneration && pass.options.computeLocalFileHash && isSha256Hex (expectedHash.map .str) then
        let hash ← orNull (ask pass (.computeLocalFileHash path attachment))
        let finalStat ← getLocalFileStat pass path
        if hash.map normalizeHash = expectedHash ∧ finalStat = some stat then
          write (applyAttachmentContentStat stat expectedHash)
      else write (applyAttachmentContentStat stat none)

/-- The stat of a file that was downloaded, under the path that the download has left. -/
def refreshDownloaded (localPath : String) : Transfer Unit := do
  let uri := (asStr? (← working).uri).getD ""
  let freshPath := if uri = "" then localPath else pass.options.resolveLocalPath uri
  if freshPath ≠ "" then refreshContentStat pass freshPath true

def onUpload (path : String) (snapshot : Option AttachmentUploadSnapshot) : Transfer Bool := do
  let outcome ← ask pass (.onUpload (← working) path snapshot)
  write fun _ => outcome.attachment
  settle outcome.result

def uploadSnapshot (snapshot : AttachmentUploadSnapshot) (expectedHash : Option String) : Transfer Bool :=
  let snapshotHash := normalizeHash snapshot.fileHash
  if !isSha256Hex (some (.str snapshotHash)) || (expectedHash.map normalizeHash).any fun expected =>
      !isSha256Hex (some (.str expected)) || snapshotHash != expected then pure false
  else do
    let uploaded ← onUpload pass snapshot.sourcePath (some snapshot)
    if uploaded then write (applyAttachmentContentStat snapshot.stat (some snapshotHash))
    pure uploaded

/-- A `finally` that disposes of the snapshot, which may fail. -/
def disposing (snapshot : AttachmentUploadSnapshot) (x : Transfer Bool) : Transfer Bool := do
  let result ← tryCatch (do return Except.ok (← x)) fun fault => pure (Except.error fault)
  tryCatch (ask pass (.dispose snapshot)) fun _ => pure ()
  settle result

def admitLocalFile : Transfer Unit := do
  if pass.options.getLocalFileStat then
    match ← getLocalFileStat pass pass.localPath with
    | some stat => assertUploadStatAllowed pass stat
    | none => pure ()

/-- What is taken of the file before its upload. -/
def takeSnapshot : Transfer (Option AttachmentUploadSnapshot) := do
  admitLocalFile pass
  if pass.options.createUploadSnapshot then ask pass (.createUploadSnapshot pass.localPath (← working)) else pure none

def attemptUpload (expectedHash : Option String) : Transfer Bool := do
  match ← takeSnapshot pass with
  | some snapshot => disposing pass snapshot (uploadSnapshot pass snapshot expectedHash)
  | none => if pass.options.requireUploadSnapshot then pure false else onUpload pass pass.localPath none

/-- An upload that its gate lets through, and what is recorded after it. -/
def gatedUpload (expectedHash : Option String) (record : Transfer Unit) : Transfer Bool := do
  if ← ask pass (.policy .shouldUpload (← working)) then
    orReport (do
      let uploaded ← attemptUpload pass expectedHash
      if uploaded then record
      pure uploaded) false
  else pure false

def proveSnapshot (snapshot : AttachmentUploadSnapshot) : Transfer Bool := do
  let snapshotHash := normalizeHash snapshot.fileHash
  if !isSha256Hex (some (.str snapshotHash)) then pure false
  else
    assertUploadStatAllowed pass snapshot.stat
    write (applyAttachmentContentStat snapshot.stat (some snapshotHash))
    pure true

def provePendingUploadIdentity : Transfer Bool := do
  if pass.options.createUploadSnapshot then
    match ← takeSnapshot pass with
    | some snapshot => disposing pass snapshot (proveSnapshot pass snapshot)
    | none => pure false
  else pure false

structure AttachmentContentCheckResult where
  changed : Bool
  hash : Option String

def checkAttachmentContentChange (attachment : Attachment) (stat : LocalFileStat)
    (computeHash : Transfer (Option String)) : Transfer AttachmentContentCheckResult := do
  if hasRecordedStat attachment stat then pure ⟨false, none⟩
  else
    let hash := (← computeHash).filter (· != "")
    pure ⟨!hash.any (isRecordedHash attachment), hash⟩

def received (outcome : TransferOutcome) : Transfer Unit := do
  write fun _ => outcome.attachment
  if ← settle outcome.result then
    writeItem id
    refreshDownloaded pass pass.localPath

def attemptDownload (expectation : AttachmentDownloadExpectation) : Transfer Unit := do
  if ← ask pass (.policy .shouldDownload (← working)) then
    orReport (do received pass (← ask pass (.onDownload (← working) expectation))) ()

/-! ### A pending candidate -/

/-- A candidate without a local file may be what the remote holds already. The download works on a copy, which is taken
over when it is proved to hold the candidate; no refresh of its stat throws. -/
def recoverPending (expectedHash : Option String) : Transfer Unit := do
  let attachment ← working
  orReport (do
    let outcome ← ask pass (.onDownload attachment .absent)
    let recovered := outcome.attachment
    if (← settle outcome.result) && decide (recovered.cloudKey = attachment.cloudKey ∧
        recordedHash recovered = expectedHash ∧ recovered.localStatus = some (.str "available")) then
      writeItem fun _ => { recovered with pendingContentUpload := none }
      refreshDownloaded pass "") ()

def uploadPending (expectedHash : Option String) : Transfer Unit :=
  discard <| gatedUpload pass expectedHash do
    writeItem fun attachment => { attachment with pendingContentUpload := none }
    if !pass.options.createUploadSnapshot then refreshContentStat pass pass.localPath false

/-- Without snapshots the file is looked at before the upload. -/
def checkPending (expectedHash : Option String) : Transfer Unit := do
  match ← getLocalFileStat pass pass.localPath with
  | none => pure ()
  | some stat =>
    let attachment ← working
    let check ← checkAttachmentContentChange attachment stat (computeLocalFileHash pass attachment)
    if !check.changed then
      recordStat stat check.hash
      uploadPending pass expectedHash

def transferPending (existsLocally mayReadForSync : Bool) : Transfer Unit := do
  let expectedHash := recordedHash (← working)
  if isSha256Hex (expectedHash.map .str) then
    let recovers ← if existsLocally then pure false else ask pass (.policy .shouldDownload (← working))
    if recovers then recoverPending pass expectedHash
    else if mayReadForSync && pass.options.createUploadSnapshot then uploadPending pass expectedHash
    else if mayReadForSync && pass.options.getLocalFileStat then checkPending pass expectedHash

/-! ### Other attachments -/

def recordFileHash : Transfer Unit := do
  let attachment ← working
  if !truthy attachment.fileHash then
    let hash ← orNull (computeLocalFileHash pass attachment)
    write fun attachment => { attachment with fileHash := ((hash.filter (· != "")).map .str).or attachment.fileHash }

def firstUpload : Transfer Bool :=
  gatedUpload pass none do
    writeItem fun attachment => { attachment with pendingContentUpload := none }
    if !pass.options.createUploadSnapshot then
      recordFileHash pass
      refreshContentStat pass pass.localPath false

/-- A confirmed change of the content. -/
def transferChange (phase : ContentChangePhase) (stat : LocalFileStat) (hash : String) : Transfer Unit := do
  let attachment ← working
  match phase with
  | .prepare =>
    if pass.options.deferUploads then
      writeItem fun attachment =>
        { applyAttachmentContentStat stat (some hash) attachment with
          contentRev := some (.num (bumpAttachmentContentRevision attachment))
          pendingContentUpload := some (.bool true) }
    else
      discard <| gatedUpload pass (some hash) do
        writeItem fun attachment =>
          { if pass.options.createUploadSnapshot then attachment
            else applyAttachmentContentStat stat (some hash) attachment with
            contentRev := some (.num (bumpAttachmentContentRevision attachment)) }
  | .postMerge =>
    if !truthy attachment.fileHash then writeItem (applyAttachmentContentStat stat (some hash))
    else if (← getLocalFileStat pass pass.localPath) = some stat then attemptDownload pass (.present hash)

def detectContentChange (phase : ContentChangePhase) : Transfer Unit := do
  match ← getLocalFileStat pass pass.localPath with
  | none => pure ()
  | some stat =>
    assertUploadStatAllowed pass stat
    let attachment ← working
    let unhashable := (← get).unhashableStats attachment.id
    let check ← checkAttachmentContentChange attachment stat
      (if unhashable = some stat then pure none else computeLocalFileHash pass attachment)
    match check.hash with
    | none => if check.changed then setUnhashable (some stat) else recordStat stat none
    | some hash =>
      setUnhashable none
      if check.changed then transferChange pass phase stat hash else recordStat stat (some hash)

def uploadMissing (mayReadForSync : Bool) : Transfer Bool := do
  if !pass.options.hasCloudCopy (← working) && mayReadForSync && !pass.options.deferUploads then firstUpload pass
  else pure false

def downloadMissing (existsLocally : Bool) : Transfer Unit := do
  if pass.options.hasCloudCopy (← working) && !existsLocally && !isPendingUpload pass.original then
    attemptDownload pass .absent

def transferSettled (existsLocally mayReadForSync : Bool) : Transfer Unit := do
  if !(← uploadMissing pass mayReadForSync) then
    downloadMissing pass existsLocally
    if pass.options.hasCloudCopy (← working) && mayReadForSync && pass.options.getLocalFileStat then
      match pass.options.contentChangePhase with
      | some phase => detectContentChange pass phase
      | none => pure ()

/-! ### The lifecycle -/

def reconcileLocalStatus (existsLocally : Bool) : Transfer Unit := do
  let nextStatus := some (.str (if existsLocally then "available" else "missing"))
  if (← working).localStatus ≠ nextStatus then
    writeItem fun attachment => { attachment with localStatus := nextStatus }

/-- A restored candidate that has no hash yet. -/
def proveCandidate (mayReadForSync : Bool) : Transfer Unit := do
  if isPendingUpload pass.original && mayReadForSync && !isSha256Hex (← working).fileHash then
    orReport (do if ← provePendingUploadIdentity pass then writeItem id) ()

def transferLocated (existsLocally : Bool) : Transfer Unit := do
  reconcileLocalStatus existsLocally
  let mayReadForSync := existsLocally && pass.options.canUploadFrom pass.localPath (← working)
  if isPendingUpload pass.original && !pass.options.deferUploads then transferPending pass existsLocally mayReadForSync
  else
    proveCandidate pass mayReadForSync
    transferSettled pass existsLocally mayReadForSync

def probe : Transfer LocalAttachmentPresence :=
  if pass.localPath = "" then pure .confirmedNotFound
  else tryCatch (ask pass (.getLocalFilePresence pass.localPath pass.original)) fun _ => pure .unreadable

def transferAttachment : Transfer Unit := do
  match ← probe pass with
  | .unreadable => pure ()
  | .present => transferLocated pass true
  | .confirmedNotFound =>
    if !(isPendingUpload pass.original && !pass.options.deferUploads && !pass.options.allowPendingRemoteRecovery) then
      transferLocated pass false

/-- `original.kind === "file"` and no tombstone. -/
def isLiveFile (original : Attachment) : Bool := original.kind == some (.str "file") && !truthy original.deletedAt

def isSkipped : Transfer Bool :=
  if isLiveFile pass.original then ask pass (.policy .shouldSkip pass.original) else pure true

def runAttachmentTransferLifecycle (options : AttachmentTransferLifecycleOptions) :
    List Attachment → JsMap Attachment → Transfer (JsMap Attachment)
  | [], patches => pure patches
  | original :: rest, patches => do
    let pass := ⟨options, original⟩
    ask pass .beforeEachAttachment
    if ← isSkipped pass then runAttachmentTransferLifecycle options rest patches
    else
      modify fun v => { v with attachment := original, itemMutated := false }
      transferAttachment pass
      let v ← get
      runAttachmentTransferLifecycle options rest
        (if v.itemMutated then patches.set v.attachment.id v.attachment else patches)

end

end Mindwtr.Sync
