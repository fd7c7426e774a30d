import Mindwtr.Sync.SyncRun

/-!
# The fast-sync record

`SharedSyncRunMachine` of `sync-run.ts` over `createSyncBackendIO` of `sync-backend-io.ts`, as far as it decides which
pair of a local and a remote fingerprint a run records, when a run ends as unchanged for that pair, and under which
version a document is uploaded. Other devices may write the remote document during any awaited call.

Documents are taken as `toRemoteSyncDocument` leaves them. Which local document a run starts from, what a merge, an
attachment pass or the local store makes of a document, and the checks on the user's edits are up to the environment
(`SyncRun.lean` has the run with the edits). A remote fingerprint names the version of the remote document.

History: `held` are the local documents of the device, `incorporated` are the versions that a document is or has been
merged with, and `lastSeen` is the version that a run has last read or written.
-/

namespace Mindwtr.Sync

open Mindwtr.Lib Transaction

/-! ### The remote document -/

inductive RemoteFingerprint where
  | dropboxRev (version : Nat)
  | strongEtag (version : Nat)
  /-- A weak validator, or a time and a length. -/
  | weak (version : Nat)
deriving DecidableEq, Repr

def RemoteFingerprint.version : RemoteFingerprint → Nat
  | .dropboxRev version | .strongEtag version | .weak version => version

structure FastSyncState (F : Type) where
  localFingerprint : F
  remoteFingerprint : RemoteFingerprint
deriving DecidableEq

structure RemoteVersion (P : Type) where
  document : P
  version : Nat
deriving DecidableEq

structure FastStore (P F : Type) where
  remote : Option (RemoteVersion P) := none
  nextVersion : Nat := 0
  recorded : Option (FastSyncState F) := none
  held : List P := []
  incorporated : List (P × Nat) := []
  lastSeen : Option Nat := none
  /-- The local fingerprint and the remote version of each cycle skipped for its record. -/
  unchangedSkips : List (F × Nat) := []
  /-- The versions that local-only uploads have replaced. -/
  localOnlyUploads : List Nat := []

namespace FastStore

variable {P F : Type}

def put (s : FastStore P F) (document : P) : FastStore P F :=
  { s with
    remote := some ⟨document, s.nextVersion⟩
    nextVersion := s.nextVersion + 1
    incorporated := (document, s.nextVersion) :: s.incorporated }

/-- Other devices write. -/
def peers (s : FastStore P F) (documents : List P) : FastStore P F := documents.foldl put s

/-- The run looks at the remote document. -/
def see (s : FastStore P F) : FastStore P F := { s with lastSeen := s.remote.map (·.version) }

def hold (s : FastStore P F) (document : P) : FastStore P F := { s with held := document :: s.held }

variable [DecidableEq P]

/-- A document made of another one holds what that one has incorporated. -/
def derive (s : FastStore P F) (document derived : P) : FastStore P F :=
  { s with
    held := derived :: s.held
    incorporated := (s.incorporated.filter (·.1 = document)).map (fun e => (derived, e.2)) ++ s.incorporated }

def merge (s : FastStore P F) (localData : P) (remoteData : RemoteVersion P) (merged : P) : FastStore P F :=
  let derived := s.derive localData merged
  { derived with incorporated := (merged, remoteData.version) :: derived.incorporated }

end FastStore

/-! ### Calls -/

inductive FastFailure where
  | remoteWriteConflict
  /-- The body of a version is not JSON; its validator came with it. -/
  | invalidJson (validator : RemoteFingerprint)
  | other
deriving DecidableEq

inductive FastError where
  | localSyncAbort
  | failure (failure : FastFailure)
deriving DecidableEq

inductive WriteCondition where
  | ifMatch (version : Nat)
  | createOnly
  | unconditional
deriving DecidableEq

/-- The calls of a run. `holds`, `derive` and `skipUnchanged` are not awaited; the last is the end of a cycle as
unchanged. -/
inductive FastCall (P F : Type) where
  | holds (check : String)
  | derive (step : String) (document : P)
  | mergeAppDataWithStats (localData : P) (remoteData : RemoteVersion P)
  | skipUnchanged (localFingerprint : F) (remoteFingerprint : RemoteFingerprint)
  | readLocalDataForSyncCycle
  | readFastSyncState
  | writeFastSyncState (state : FastSyncState F)
  | readRemoteFingerprint (forRecord : Bool)
  | readRemote
  | confirmRemote
  | writeRemote (document : P) (condition : WriteCondition) (serverMerges localOnly : Bool)
  | await (what : String)

/-- What a response says of the version it is about. -/
structure RemoteWritten where
  version : Nat
  validator : Option RemoteFingerprint
  serverMergedRemoteData : Bool

abbrev FastAnswer (P F : Type) : FastCall P F → Type
  | .holds _ => Bool
  | .derive _ _ | .mergeAppDataWithStats _ _ | .readLocalDataForSyncCycle => P
  | .readFastSyncState => Option (FastSyncState F)
  | .readRemoteFingerprint _ => Option RemoteFingerprint
  | .readRemote | .confirmRemote => Option (RemoteVersion P × RemoteFingerprint)
  | .writeRemote _ _ _ _ => RemoteWritten
  | _ => Unit

/-- What happens during a call. -/
structure FastChoice (P : Type) where
  before : List P := []
  after : List P := []
  failure : Option FastFailure := none
  /-- The call has taken effect although it fails. -/
  effect : Bool := false
  holds : Bool := true
  document : Option P := none
  /-- The response has a strong validator, or any. -/
  strong : Bool := true
  validated : Bool := true
  /-- The body is not JSON. -/
  corrupted : Bool := false

section
variable {P F : Type}

def FastChoice.validator (choice : FastChoice P) (version : Nat) : RemoteFingerprint :=
  if choice.strong then .strongEtag version else .weak version

def FastChoice.readBody (choice : FastChoice P) (s : FastStore P F) :
    Except FastFailure (Option (RemoteVersion P × RemoteFingerprint)) :=
  match s.remote with
  | none => .ok none
  | some remote =>
    if choice.corrupted then .error (.invalidJson (choice.validator remote.version))
    else .ok (some (remote, choice.validator remote.version))

/-- An awaited call, with the writes of other devices before and after it takes effect. -/
def awaitedRemote {A : Type} (choice : FastChoice P) (effect : FastStore P F → FastStore P F)
    (answer : FastStore P F → A) (s : FastStore P F) : Except FastFailure A × FastStore P F :=
  let before := s.peers choice.before
  match choice.failure with
  | none => (.ok (answer before), (effect before).peers choice.after)
  | some failure => (.error failure, (if choice.effect then effect before else before).peers choice.after)

def WriteCondition.permits (condition : WriteCondition) (s : FastStore P F) : Bool :=
  match condition with
  | .ifMatch version => s.remote.map (·.version) = some version
  | .createOnly => s.remote.isNone
  | .unconditional => true

/-- A server that merges stores what it likes and says so. -/
def writeOver (choice : FastChoice P) (document : P) (serverMerges localOnly : Bool) (s : FastStore P F) :
    FastStore P F :=
  { s.put (if serverMerges then choice.document.getD document else document) with
    lastSeen := some s.nextVersion
    localOnlyUploads :=
      if localOnly then (s.remote.map (·.version)).toList ++ s.localOnlyUploads else s.localOnlyUploads }

variable [DecidableEq P]

def fastPort (op : FastCall P F) (choice : FastChoice P) (s : FastStore P F) :
    Except FastFailure (FastAnswer P F op) × FastStore P F :=
  match op with
  | .holds _ => (.ok choice.holds, s)
  | .derive _ document =>
    let derived := choice.document.getD document
    (.ok derived, s.derive document derived)
  | .mergeAppDataWithStats localData remoteData =>
    let merged := choice.document.getD localData
    (.ok merged, s.merge localData remoteData merged)
  | .skipUnchanged localFingerprint remoteFingerprint =>
    (.ok (), { s with unchangedSkips := (localFingerprint, remoteFingerprint.version) :: s.unchangedSkips })
  | .readLocalDataForSyncCycle =>
    match choice.document with
    | some document => awaitedRemote choice (·.hold document) (fun _ => document) s
    | none => (.error .other, s.peers choice.before)
  | .readFastSyncState => awaitedRemote choice (fun s => s) (·.recorded) s
  | .writeFastSyncState state => awaitedRemote choice (fun s => { s with recorded := some state }) (fun _ => ()) s
  | .readRemoteFingerprint _ =>
    awaitedRemote choice (fun s => s) (fun s => s.remote.map fun remote => choice.validator remote.version) s
  | .readRemote =>
    let before := s.peers choice.before
    match choice.failure with
    | some failure => (.error failure, before.peers choice.after)
    | none => (choice.readBody before, before.see.peers choice.after)
  | .confirmRemote =>
    awaitedRemote choice (fun s => s)
      (fun s => s.remote.map fun remote => (remote, choice.validator remote.version)) s
  | .writeRemote document condition serverMerges localOnly =>
    let before := s.peers choice.before
    if condition.permits before then
      awaitedRemote { choice with before := [] } (writeOver choice document serverMerges localOnly)
        (fun s => {
          version := s.nextVersion
          validator := if choice.validated then some (choice.validator s.nextVersion) else none
          serverMergedRemoteData := serverMerges && choice.document.isSome }) before
    else (.error .remoteWriteConflict, before.peers choice.after)
  | .await _ => awaitedRemote choice (fun s => s) (fun _ => ()) s

end

/-! ### The run -/

inductive FastBackend where
  | webdav | dropbox | selfhosted | file | cloudkit
deriving DecidableEq

structure FastOptions extends RunOptions where
  backend : FastBackend
  /-- The cycle has a `fastSyncScope`. -/
  hasFastSyncScope : Bool
  syncEncryptionOff : Bool

structure WebDavDocumentVersion where
  documentExists : Bool
  strongEtag : Option Nat
deriving DecidableEq

/-- The variables of `createSyncBackendIO` and what it writes to its context. -/
structure BackendVars (P : Type) where
  dropboxRev : Option Nat := none
  webdavDocumentVersion : Option WebDavDocumentVersion := none
  /-- Whether there was a document, and which. -/
  webdavDocumentSnapshot : Option (Option P) := none
  allowLegacyWebdavPlaintext : Bool
  fileRemoteFingerprint : Option Nat := none

structure FastVars (P F : Type) where
  io : BackendVars P
  remoteMutationFence : Bool := false
  fastSyncStateCache : Option (Option (FastSyncState F)) := none
  preSyncedLocalData : Bool := false
  remoteDataForCompare : Option P := none
  readCheckRemoteData : Option (RemoteVersion P) := none
  localOnlyUploadFingerprint : Option RemoteFingerprint := none
  lastRemoteWriteFingerprint : Option RemoteFingerprint := none
  lastRemoteWriteMergedServerData : Bool := false

/-- `SyncRemoteWriteOutcome` -/
structure RemoteWriteOutcome where
  fingerprint : Option RemoteFingerprint
  serverMergedRemoteData : Bool

abbrev FastRun (P F : Type) := Transaction (FastCall P F) (FastAnswer P F) FastFailure FastError (FastVars P F)

def RemoteFingerprint.strong? : RemoteFingerprint → Option Nat
  | .strongEtag version => some version
  | _ => none

namespace FastRun

variable {P F : Type}

def call (op : FastCall P F) : FastRun P F (FastAnswer P F op) := Transaction.call .failure op

def await (what : String) : FastRun P F Unit := call (.await what)

def holds (check : String) : FastRun P F Bool := call (.holds check)

def modifyIo (f : BackendVars P → BackendVars P) : FastRun P F Unit :=
  modify fun vars => { vars with io := f vars.io }

/-! ### The backends -/

section
variable (options : FastOptions)

def getCachedRemoteFingerprint (vars : FastVars P F) : Option RemoteFingerprint :=
  if options.backend = .dropbox then vars.io.dropboxRev.map .dropboxRev else none

def adoptRemoteFingerprintForWrite (fingerprint : RemoteFingerprint) : FastRun P F Bool := do
  let vars ← get
  match options.backend, fingerprint with
  | .webdav, .strongEtag version =>
    if vars.io.allowLegacyWebdavPlaintext then return false
    else
      modifyIo fun io => { io with
        webdavDocumentVersion := some ⟨true, some version⟩
        webdavDocumentSnapshot := none }
      return true
  | .dropbox, .dropboxRev version =>
    modifyIo fun io => { io with dropboxRev := some version }
    return true
  | _, _ => return false

def webdavRead : FastRun P F (Option (RemoteVersion P)) := do
  let read ← tryCatch (call .readRemote) fun error => do
    modifyIo fun io => { io with
      webdavDocumentVersion :=
        match error with
        | .failure (.invalidJson validator) => some ⟨true, validator.strong?⟩
        | _ => none
      webdavDocumentSnapshot := none }
    throw error
  let remote := read.map (·.1)
  let strongEtag := read.bind (·.2.strong?)
  modifyIo fun io => { io with
    webdavDocumentVersion := some ⟨remote.isSome, strongEtag⟩
    webdavDocumentSnapshot := some (remote.map (·.document))
    allowLegacyWebdavPlaintext := io.allowLegacyWebdavPlaintext
      || (options.syncEncryptionOff && remote.isSome && strongEtag.isNone) }
  return remote

def ioReadRemote : FastRun P F (Option (RemoteVersion P)) := do
  match options.backend with
  | .webdav => webdavRead options
  | .dropbox =>
    let read ← call .readRemote
    modifyIo fun io => { io with dropboxRev := read.map (·.1.version) }
    return read.map (·.1)
  | .file =>
    let read ← call .readRemote
    let versioned ← holds "the folder is read with a fingerprint"
    modifyIo fun io => { io with
      fileRemoteFingerprint := if versioned then read.map (·.1.version) else none }
    return read.map (·.1)
  | .selfhosted | .cloudkit =>
    let read ← call .readRemote
    return read.map (·.1)

def ioReadRemoteFingerprint (forRecord : Bool) : FastRun P F (Option RemoteFingerprint) := do
  match options.backend with
  | .webdav | .selfhosted => call (.readRemoteFingerprint forRecord)
  | .dropbox =>
    let metadata ← call (.readRemoteFingerprint forRecord)
    modifyIo fun io => { io with dropboxRev := metadata.map (·.version) }
    return metadata.map fun fingerprint => .dropboxRev fingerprint.version
  | .file | .cloudkit => return none

def normalizeRemoteWriteResult (written : RemoteWritten) : RemoteWriteOutcome :=
  ⟨written.validator, written.serverMergedRemoteData⟩

/-- No server behind this write merges. -/
def writeUnder (document : P) (condition : WriteCondition) : FastRun P F RemoteWritten := do
  let vars ← get
  call (.writeRemote document condition false vars.localOnlyUploadFingerprint.isSome)

def webdavPut (document : P) (expectedEtag : Option Nat) : FastRun P F RemoteWriteOutcome := do
  let written ← writeUnder document (expectedEtag.elim .createOnly .ifMatch)
  return normalizeRemoteWriteResult written

variable [DecidableEq P]

/-- A provider without strong validators: the snapshot is compared just before the write. -/
def webdavWriteLegacy (document : P) : FastRun P F RemoteWriteOutcome := do
  let vars ← get
  match vars.io.webdavDocumentSnapshot with
  | none => throw (.failure .other)
  | some snapshot =>
    await "assertRemoteMutationFenceHeld"
    let confirmed ← call .confirmRemote
    check (decide (confirmed.map (·.1.document) = snapshot)) (.failure .remoteWriteConflict)
    let strongEtag := confirmed.bind (·.2.strong?)
    modifyIo fun io => { io with webdavDocumentVersion := some ⟨confirmed.isSome, strongEtag⟩ }
    match strongEtag with
    | some strongEtag => webdavPut document (some strongEtag)
    | none =>
      let written ← writeUnder document .unconditional
      return normalizeRemoteWriteResult written

def webdavWrite (document : P) : FastRun P F RemoteWriteOutcome := do
  let vars ← get
  match vars.io.webdavDocumentVersion with
  | none => throw (.failure .other)
  | some version =>
    check (!version.documentExists || version.strongEtag.isSome || vars.io.allowLegacyWebdavPlaintext) (.failure .other)
    let expectedEtag := if version.documentExists then version.strongEtag else none
    if vars.io.allowLegacyWebdavPlaintext && expectedEtag.isNone then webdavWriteLegacy document
    else webdavPut document expectedEtag

def ioWriteRemote (document : P) : FastRun P F RemoteWriteOutcome := do
  let vars ← get
  match options.backend with
  | .webdav => webdavWrite document
  | .selfhosted =>
    let written ← call (.writeRemote document .unconditional true vars.localOnlyUploadFingerprint.isSome)
    return normalizeRemoteWriteResult written
  | .dropbox =>
    let written ← writeUnder document (vars.io.dropboxRev.elim .createOnly .ifMatch)
    modifyIo fun io => { io with dropboxRev := written.validator.map (·.version) }
    return ⟨none, false⟩
  | .file =>
    let _ ← writeUnder document (vars.io.fileRemoteFingerprint.elim .unconditional .ifMatch)
    return ⟨none, false⟩
  | .cloudkit =>
    let _ ← writeUnder document .unconditional
    return ⟨none, false⟩

/-! ### Steps of the run -/

def ensureLocalSnapshotFresh : FastRun P F Unit := do
  let fresh ← holds "the local snapshot is fresh"
  check fresh .localSyncAbort

def ensureRemoteMutationFence : FastRun P F Unit := do
  let vars ← get
  if vars.remoteMutationFence then await "assertRemoteMutationFenceHeld"
  else
    await "acquireRemoteMutationFence"
    let leased ← holds "the backend has granted a lease"
    if leased then
      modify fun vars => { vars with
        remoteMutationFence := true
        readCheckRemoteData := none
        remoteDataForCompare := none }
    else return

def readFastSyncState : FastRun P F (Option (FastSyncState F)) := do
  let vars ← get
  match vars.fastSyncStateCache with
  | some value => return value
  | none =>
    let value ← call .readFastSyncState
    modify fun vars => { vars with fastSyncStateCache := some value }
    return value

def writeFastSyncState (state : FastSyncState F) : FastRun P F Unit := do
  modify fun vars => { vars with fastSyncStateCache := some (some state) }
  call (.writeFastSyncState state)

/-- `null` where the fingerprint cannot be read. -/
def readRemoteFingerprint (forRecord : Bool) : FastRun P F (Option RemoteFingerprint) :=
  tryCatch (do
    await "ensureNetwork"
    ioReadRemoteFingerprint options forRecord) fun _ => return none

def readRemoteForCycle (requireMutationFence : Bool) : FastRun P F (Option (RemoteVersion P)) := do
  if requireMutationFence then ensureRemoteMutationFence else pure ()
  let vars ← get
  match vars.readCheckRemoteData with
  | some data =>
    modify fun vars => { vars with readCheckRemoteData := none, remoteDataForCompare := some data.document }
    return some data
  | none =>
    if vars.localOnlyUploadFingerprint.isSome then
      modify fun vars => { vars with remoteDataForCompare := none }
      return none
    else
      await "ensureNetwork"
      tryCatch (do
        let data ← ioReadRemote options
        modify fun vars => { vars with remoteDataForCompare := data.map (·.document) }
        return data) fun error =>
        match options.backend, error with
        | .webdav, .failure (.invalidJson _) => do
          modify fun vars => { vars with remoteDataForCompare := none }
          return none
        | _, _ => throw error

variable [DecidableEq F] (fingerprint : P → F)

def recordFastSyncState (data : P) (allowRemoteFingerprintRead : Bool) : FastRun P F Unit := do
  let pending ← holds "side effects are pending"
  let edited ← holds "an edit is newer than the snapshot"
  let vars ← get
  if !options.hasFastSyncScope || pending || edited || vars.lastRemoteWriteMergedServerData then return
  else
    match (getCachedRemoteFingerprint options vars).or vars.lastRemoteWriteFingerprint with
    | some remoteFingerprint => writeFastSyncState ⟨fingerprint data, remoteFingerprint⟩
    | none =>
      if allowRemoteFingerprintRead then
        match ← readRemoteFingerprint options true with
        | some remoteFingerprint => writeFastSyncState ⟨fingerprint data, remoteFingerprint⟩
        | none => return
      else return

/-- The local document that a check compares, unless the cycle is about more than the document. -/
def readUnpatchedLocalData : FastRun P F (Option P) := do
  await "yieldToUi"
  let vars ← get
  if vars.preSyncedLocalData then return none
  else
    let localData ← call .readLocalDataForSyncCycle
    ensureLocalSnapshotFresh
    let pending ← holds "side effects are pending"
    return if pending then none else some localData

def persistUnchangedSyncStatus : FastRun P F Unit :=
  tryCatch (await "persistSyncStatus") fun _ => return

/-- The record, where its local fingerprint is a candidate and the remote still has its remote fingerprint. -/
def unmovedRecord (isCandidate : F → Bool) : FastRun P F (Option (FastSyncState F)) := do
  let cached ← readFastSyncState
  match cached.filter fun cached => isCandidate cached.localFingerprint with
  | none => return none
  | some cached =>
    let remoteFingerprint ← readRemoteFingerprint options false
    return if remoteFingerprint = some cached.remoteFingerprint then some cached else none

def trySkipUnchangedFastSync : FastRun P F Bool := do
  if options.manual || !options.hasFastSyncScope then return false
  else
    match ← readUnpatchedLocalData with
    | none => return false
    | some localData =>
      match ← unmovedRecord options (· = fingerprint localData) with
      | none => return false
      | some cached =>
        ensureLocalSnapshotFresh
        writeFastSyncState ⟨fingerprint localData, cached.remoteFingerprint⟩
        persistUnchangedSyncStatus
        call (.skipUnchanged (fingerprint localData) cached.remoteFingerprint)
        return true

def tryArmLocalOnlyUploadFastPath : FastRun P F Bool := do
  let repair ← holds "the remote is to be repaired"
  if options.manual || options.ignorePendingRemoteWriteBackoff || !options.hasFastSyncScope || repair
      || !options.preSyncAttachmentsBeforeFastCheck then return false
  else
    match ← readUnpatchedLocalData with
    | none => return false
    | some localData =>
      match ← unmovedRecord options (· ≠ fingerprint localData) with
      | none => return false
      | some cached =>
        let adopted ← adoptRemoteFingerprintForWrite options cached.remoteFingerprint
        if adopted then
          ensureLocalSnapshotFresh
          modify fun vars => { vars with localOnlyUploadFingerprint := some cached.remoteFingerprint }
          return true
        else return false

def trySkipUnchangedReadSync : FastRun P F Bool := do
  match ← readUnpatchedLocalData with
  | none => return false
  | some localData =>
    let remoteData ← readRemoteForCycle options false
    ensureLocalSnapshotFresh
    match remoteData with
    | none => return false
    | some remoteData =>
      modify fun vars => { vars with readCheckRemoteData := some remoteData }
      let uncompacted ← holds "the remote has uncompacted tombstones"
      if !uncompacted && fingerprint localData = fingerprint remoteData.document then
        recordFastSyncState options fingerprint localData false
        persistUnchangedSyncStatus
        modify fun vars => { vars with readCheckRemoteData := none }
        return true
      else return false

/-! ### The cycle -/

/-- A pass may mutate the data, and the document is read anew. -/
def runAttachmentPreSyncPhase : FastRun P F Unit :=
  if !options.attachmentPhasesEnabled || options.activationProbe then return
  else
    tryCatch (do
      let _ ← call .readLocalDataForSyncCycle
      let needed ← holds "attachment pre-sync is needed"
      if needed then
        await "syncAttachments"
        let fenced ← holds "the pass mutates the remote"
        if fenced then ensureRemoteMutationFence else pure ()
        let mutated ← holds "attachment pre-sync has mutated the data"
        if mutated then
          modify fun vars => { vars with preSyncedLocalData := true }
          ensureLocalSnapshotFresh
        else return
      else return) fun error => do
      let thrown ← holds "the error ends the run"
      if error = .localSyncAbort || thrown then throw error else return

/-- The transfer passes of a candidate's proof are one pass here. -/
def prepareRemoteWriteData (data : P) : FastRun P F P := do
  let nothingToTransfer ← holds "no attachments are to be proven or pending"
  if nothingToTransfer then return data
  else
    await "yieldToUi"
    await "ensureNetwork"
    ensureRemoteMutationFence
    await "syncAttachments"
    let proven ← holds "the attachments are proven"
    check (proven || !options.activationProbe) (.failure .other)
    call (.derive "syncAttachments" data)

def writeRemoteForCycle (data : P) : FastRun P F Unit := do
  ensureRemoteMutationFence
  await "ensureNetwork"
  modify fun vars => { vars with lastRemoteWriteFingerprint := none, lastRemoteWriteMergedServerData := false }
  let uploaded ← holds "no attachment upload blocks the write"
  check uploaded (.failure .other)
  let uncompacted ← holds "the remote has uncompacted tombstones or is to be repaired"
  let vars ← get
  if !options.activationProbe && !uncompacted && vars.remoteDataForCompare = some data then return
  else
    let outcome ← tryCatch (do
      await "assertRemoteMutationFenceHeld"
      ioWriteRemote options data) fun error =>
      if error = .failure .remoteWriteConflict then throw .localSyncAbort else throw error
    await "assertRemoteMutationFenceHeld"
    modify fun vars => { vars with
      lastRemoteWriteFingerprint := outcome.fingerprint
      lastRemoteWriteMergedServerData := outcome.serverMergedRemoteData
      remoteDataForCompare := if outcome.serverMergedRemoteData then none else some data }

def writeLocal (data : P) : FastRun P F P := do
  ensureLocalSnapshotFresh
  if options.activationProbe then return data
  else
    await "persistLocal"
    let persisted ← call (.derive "persistLocal" data)
    ensureLocalSnapshotFresh
    return persisted

def writeRemote (data : P) : FastRun P F Unit := do
  ensureLocalSnapshotFresh
  writeRemoteForCycle options data

/-- `performSyncCycle`; what it does to the local document after an error is left to `SyncRun.lean`. -/
def performSyncCycle : FastRun P F (Option P) := do
  let localData ← call .readLocalDataForSyncCycle
  let blocked ← holds "the backoff is active"
  if blocked then return none
  else
    let localData ← call (.derive "purgeExpiredTombstones" localData)
    let remoteData ← readRemoteForCycle options true
    let merged ←
      match remoteData with
      | none => call (.derive "mergeAppDataWithStats" localData)
      | some remoteData => call (.mergeAppDataWithStats localData remoteData)
    let pruned ← call (.derive "purgeExpiredTombstones" merged)
    let finalData ← prepareRemoteWriteData options pruned
    let valid ← holds "the merged data is valid"
    check valid (.failure .other)
    let unchanged ← holds "the local document is unchanged and no remote write is pending"
    if unchanged then
      writeRemote options finalData
      return some finalData
    else
      let canonical ← writeLocal options finalData
      writeRemote options canonical
      let persisted ← writeLocal options canonical
      return some persisted

/-- The document after the pass, and whether the pass has made the record unsafe. -/
def runPostMergeAttachmentPhase (mergedData : P) : FastRun P F (P × Bool) := do
  let needed ← holds "the attachment pass is needed"
  if !options.attachmentPhasesEnabled || !needed then return (mergedData, false)
  else
    await "yieldToUi"
    tryCatch (do
      ensureLocalSnapshotFresh
      await "ensureNetwork"
      ensureRemoteMutationFence
      await "syncAttachments"
      let mutated ← holds "the attachment pass has mutated the data"
      if mutated then
        let nextData ← call (.derive "syncAttachments" mergedData)
        let _ ← writeLocal options nextData
        return (nextData, true)
      else return (mergedData, false)) fun error => do
      let thrown ← holds "the error ends the run"
      if error = .localSyncAbort || thrown then throw error else return (mergedData, true)

def runAttachmentCleanupPhase (mergedData : P) : FastRun P F (P × Bool) := do
  let due ← holds "attachment cleanup is due"
  if !options.attachmentPhasesEnabled || !due then return (mergedData, false)
  else
    ensureRemoteMutationFence
    await "runAttachmentCleanup"
    ensureLocalSnapshotFresh
    let cleaned ← holds "the cleanup has changed the data"
    if cleaned then
      let nextData ← call (.derive "runAttachmentCleanup" mergedData)
      let invalidated ← holds "the cleanup invalidates the record"
      let _ ← writeLocal options nextData
      return (nextData, invalidated)
    else return (mergedData, false)

def runMergePhase : FastRun P F Unit := do
  match ← performSyncCycle options with
  | none => return
  | some mergedData =>
    if options.activationProbe then return
    else
      ensureLocalSnapshotFresh
      await "persistExternalCalendars"
      let (mergedData, transferred) ← runPostMergeAttachmentPhase options mergedData
      let (mergedData, invalidated) ← runAttachmentCleanupPhase options mergedData
      if transferred || invalidated then return
      else recordFastSyncState options fingerprint mergedData true

/-- A run that none of the checks has ended. -/
def runFullCycle : FastRun P F Unit := do
  if options.preSyncAttachmentsBeforeFastCheck then pure () else runAttachmentPreSyncPhase options
  runMergePhase options fingerprint

def runFromReadCheck (armed : Bool) : FastRun P F Unit := do
  let readSkipped ←
    if options.activationProbe || armed || !options.enableReadCheckSkip then pure false
    else trySkipUnchangedReadSync options fingerprint
  if readSkipped then return else runFullCycle options fingerprint

def runFromFastCheck : FastRun P F Unit := do
  let fastSkipped ← if options.activationProbe then pure false else trySkipUnchangedFastSync options fingerprint
  if fastSkipped then return
  else
    let armed ← if options.activationProbe then pure false else tryArmLocalOnlyUploadFastPath options fingerprint
    runFromReadCheck options fingerprint armed

def runPhases : FastRun P F Unit := do
  await "setupCycle"
  if options.preSyncAttachmentsBeforeFastCheck then runAttachmentPreSyncPhase options else pure ()
  runFromFastCheck options fingerprint

end

end FastRun

/-! ### The device -/

/-- The runs of a device, one at a time, and the writes of other devices between them; those during a run are part of
its calls. -/
inductive FastEvent (P : Type) where
  | start (options : FastOptions) (allowLegacyWebdavPlaintext : Bool)
  | settle (choice : FastChoice P)
  | peerWrites (document : P)

abbrev FastProgram (P F : Type) :=
  Calls (FastCall P F) (FastAnswer P F) FastFailure (Except FastError Unit × FastVars P F)

/-- What a run does after an error concerns its local document alone. -/
def fastSyncRun {P F : Type} [DecidableEq P] [DecidableEq F] (fingerprint : P → F) (options : FastOptions)
    (allowLegacyWebdavPlaintext : Bool) : FastProgram P F :=
  StateT.run (ExceptT.run (FastRun.runPhases options fingerprint)) { io := { allowLegacyWebdavPlaintext } }

structure FastDevice (P F : Type) where
  store : FastStore P F
  /-- The run that has not ended. -/
  run : Option (FastProgram P F)

def fastStep {P F : Type} [DecidableEq P] [DecidableEq F] (fingerprint : P → F) (d : FastDevice P F) :
    FastEvent P → Option (FastDevice P F)
  | .start options allowLegacyWebdavPlaintext =>
    match d.run with
    | none => some { d with run := some (fastSyncRun fingerprint options allowLegacyWebdavPlaintext) }
    | some _ => none
  | .settle choice =>
    match d.run with
    | none => none
    | some (.done _) => some { d with run := none }
    | some (.call op next) =>
      let outcome := fastPort op choice d.store
      some ⟨outcome.2, some (next outcome.1)⟩
  | .peerWrites document =>
    match d.run with
    | none => some { d with store := d.store.put document }
    | some _ => none

end Mindwtr.Sync
