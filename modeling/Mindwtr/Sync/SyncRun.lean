import Mindwtr.Lib.Calls

/-!
# A shared sync run and the user's edits

`SharedSyncRunMachine` of `sync-run.ts`, with `performSyncCycle` seen from its calls, over the store it
applies its documents to. A user may edit the store while the run awaits a call, and at no other time; an
edit leaves any content and moves `lastDataChangeAt` forward. What a merge, an attachment pass or the
platform makes of a document is up to the environment, as are the answers of the checks on data, on
fingerprints and on the remote.

A document has the number of the snapshot of the store that it is derived from. `coveredAt` is history: the
change stamp at which a snapshot was taken, or at which the store was last found to hold what is derived from
it. So are `edited`, the content that the last edit has left, and `applied`.
-/

namespace Mindwtr.Sync

open Mindwtr.Lib Transaction

structure Document (D : Type) where
  data : D
  snapshot : Nat

/-- A document has been applied to the store. -/
structure Application where
  changeAt : Nat
  coveredAt : Nat
deriving DecidableEq

structure RunStore (D : Type) where
  content : D
  lastDataChangeAt : Nat
  persisted : D
  followUpRequested : Bool
  nextSnapshot : Nat
  coveredAt : Nat → Nat
  edited : D
  applied : List Application

namespace RunStore

variable {D : Type}

/-- The store at the start of a run. An idle cycle may have carried the snapshot `0` over, of a stamp `age`
before that of the store. -/
def init (content persisted : D) (carriedAt age : Nat) : RunStore D :=
  ⟨content, carriedAt + age, persisted, false, 1, fun _ => carriedAt, content, []⟩

/-- `getNextDataChangeAt` gives a later stamp, by one or more. -/
def edit (s : RunStore D) (change : D × Nat) : RunStore D :=
  { s with
    content := change.1
    edited := change.1
    lastDataChangeAt := s.lastDataChangeAt + 1 + change.2 }

def edits (s : RunStore D) (changes : List (D × Nat)) : RunStore D := changes.foldl edit s

def cover (s : RunStore D) (snapshot : Nat) : RunStore D :=
  { s with coveredAt := Function.update s.coveredAt snapshot s.lastDataChangeAt }

def takeSnapshot (s : RunStore D) : RunStore D :=
  { s.cover s.nextSnapshot with nextSnapshot := s.nextSnapshot + 1 }

def apply (s : RunStore D) (document : Document D) : RunStore D :=
  { s with
    content := document.data
    applied := ⟨s.lastDataChangeAt, s.coveredAt document.snapshot⟩ :: s.applied }

end RunStore

/-! ### Calls -/

inductive RunFailure where
  | remoteFence | remoteFenceBusy | fileLockBusy | attachmentTooLarge | remoteWriteConflict | other
deriving DecidableEq

inductive RunError where
  | localSyncAbort
  | failure (failure : RunFailure)
deriving DecidableEq

/-- The calls of a run. Those before `readPersistedLocal` are not awaited. -/
inductive RunCall (D : Type) where
  | getLastDataChangeAt
  | getInMemorySnapshot
  | acceptCoveredSnapshot (expectedData : Document D)
  | applyDataToStore (data : Document D)
  | requestFollowUp
  | clearFollowUp
  | holds (check : String)
  | count (what : String)
  | derive (step : String) (data : Document D)
  | readPersistedLocal
  | persistLocal (data : Document D)
  | assertRemoteMutationFenceHeld (step : String)
  | await (what : String)

abbrev RunAnswer (D : Type) : RunCall D → Type
  | .getLastDataChangeAt | .count _ => Nat
  | .getInMemorySnapshot => Document D
  | .acceptCoveredSnapshot _ | .holds _ => Bool
  | .derive _ _ | .persistLocal _ => Option (Document D)
  | .readPersistedLocal => D
  | _ => Unit

/-- What happens during a call. -/
structure RunChoice (D : Type) where
  before : List (D × Nat)
  after : List (D × Nat)
  effect : Bool
  failure : Option RunFailure
  holds : Bool
  count : Nat
  data : Option D

/-- Desktop applies each local write to the store and knows when the store holds a document already; mobile
refreshes the store at the end. -/
inductive RunPlatform (D : Type) where
  | desktop (covers : D → D → Bool)
  | mobile

def RunPlatform.isDesktop {D : Type} : RunPlatform D → Bool
  | .desktop _ => true
  | .mobile => false

def RunPlatform.covers {D : Type} : RunPlatform D → D → D → Bool
  | .desktop covers => covers
  | .mobile => fun _ _ => false

/-- An awaited call, with the edits before and after it takes effect. -/
def awaited {D A : Type} (choice : RunChoice D) (effect : RunStore D → RunStore D) (answer : RunStore D → A)
    (s : RunStore D) : Except RunFailure A × RunStore D :=
  let before := s.edits choice.before
  match choice.failure with
  | none => (.ok (answer before), (effect before).edits choice.after)
  | some failure => (.error failure, (if choice.effect then effect before else before).edits choice.after)

def RunPlatform.port {D : Type} (platform : RunPlatform D) (op : RunCall D) (choice : RunChoice D)
    (s : RunStore D) : Except RunFailure (RunAnswer D op) × RunStore D :=
  match op with
  | .getLastDataChangeAt => (.ok s.lastDataChangeAt, s)
  | .getInMemorySnapshot => (.ok ⟨s.content, s.nextSnapshot⟩, s.takeSnapshot)
  | .acceptCoveredSnapshot expectedData =>
    if platform.covers s.content expectedData.data then (.ok true, s.cover expectedData.snapshot)
    else (.ok false, s)
  | .applyDataToStore data => (.ok (), s.apply data)
  | .requestFollowUp => (.ok (), { s with followUpRequested := true })
  | .clearFollowUp => (.ok (), { s with followUpRequested := false })
  | .holds _ => (.ok choice.holds, s)
  | .count _ => (.ok choice.count, s)
  | .derive _ data => (.ok (choice.data.map fun derived => ⟨derived, data.snapshot⟩), s)
  | .readPersistedLocal => awaited choice (fun s => s) (·.persisted) s
  | .persistLocal data =>
    awaited choice (fun s => { s with persisted := data.data })
      (fun _ => choice.data.map fun canonical => ⟨canonical, data.snapshot⟩) s
  | .assertRemoteMutationFenceHeld _ | .await _ => awaited choice (fun s => s) (fun _ => ()) s

/-! ### The run -/

structure RunOptions where
  manual : Bool
  activationProbe : Bool
  ignorePendingRemoteWriteBackoff : Bool
  preSyncAttachmentsBeforeFastCheck : Bool
  enableReadCheckSkip : Bool
  attachmentPhasesEnabled : Bool
  postMergeAttachmentsMayFail : Bool

structure RunState (D : Type) where
  localSnapshotChangeAt : Nat
  localDataCache : Option (Nat × Document D)
  localSnapshotMatchesDisk : Bool
  preSyncedLocalData : Option (Document D)
  carriedIdleSnapshot : Option (Nat × Document D)
  wroteLocal : Bool

inductive RunResult where
  | synced | unchanged | disabled | pendingRemoteWriteBackoff | requeued | fileSyncLockBusy | remoteFenceBusy
  | attachmentTooLarge | handled | failed
deriving DecidableEq

abbrev Run (D : Type) := Transaction (RunCall D) (RunAnswer D) RunFailure RunError (RunState D)

namespace Run

variable {D : Type}

def call (op : RunCall D) : Run D (RunAnswer D op) := Transaction.call .failure op

def await (what : String) : Run D Unit := call (.await what)

def holds (check : String) : Run D Bool := call (.holds check)

/-- The error is logged at most. -/
def swallow (operation : Run D Unit) : Run D Unit := tryCatch operation fun _ => pure ()

variable (platform : RunPlatform D) (options : RunOptions)

def requestFollowUp : Run D Unit :=
  if options.activationProbe then pure () else call .requestFollowUp

def acceptCoveredLocalSnapshot (expectedData : Document D) : Run D Bool :=
  if platform.isDesktop then do
    let currentChangeAt ← call .getLastDataChangeAt
    let state ← get
    if currentChangeAt ≤ state.localSnapshotChangeAt then return true
    else
      let accepted ← call (.acceptCoveredSnapshot expectedData)
      if accepted then
        modify fun state => { state with localSnapshotChangeAt := currentChangeAt }
        return true
      else return false
  else return false

/-- `ensureFreshLocalSyncSnapshot` -/
def ensureLocalSnapshotFresh (expectedData : Option (Document D)) : Run D Unit := do
  let currentChangeAt ← call .getLastDataChangeAt
  let state ← get
  if currentChangeAt ≤ state.localSnapshotChangeAt then return
  else
    let accepted ←
      match expectedData with
      | some expectedData => acceptCoveredLocalSnapshot platform expectedData
      | none => pure false
    if accepted then return
    else
      requestFollowUp options
      throw .localSyncAbort

def usableCarriedSnapshot (currentChangeAt : Nat) : Run D (Option (Document D)) := do
  let state ← get
  match state.carriedIdleSnapshot.filter fun carried =>
      carried.1 == currentChangeAt && state.preSyncedLocalData.isNone && !options.activationProbe with
  | none => return none
  | some (_, data) =>
    await "readFastSyncState"
    let recorded ← holds "carried snapshot is the recorded one"
    return if recorded then some data else none

/-- What is persisted or carries the attachment patches, reconciled with the store. -/
def reconcileLocalData : Run D (Document D × Bool) := do
  let inMemorySnapshot ← call .getInMemorySnapshot
  let state ← get
  match state.preSyncedLocalData with
  | some preSynced =>
    let aligned ← holds "pre-synced data is aligned"
    if aligned then return ({ preSynced with snapshot := inMemorySnapshot.snapshot }, false)
    else
      let merged ← call (.derive "mergeAppData" inMemorySnapshot)
      return (merged.getD inMemorySnapshot, false)
  | none =>
    let persisted ← call .readPersistedLocal
    let aligned ← holds "persisted data is aligned"
    if aligned then return (⟨persisted, inMemorySnapshot.snapshot⟩, true)
    else
      let merged ← call (.derive "mergeAppData" inMemorySnapshot)
      return (merged.getD inMemorySnapshot, false)

def injectExternalCalendars (baseData : Document D) : Run D (Option (Document D)) :=
  if options.activationProbe then return none
  else do
    await "injectExternalCalendars"
    call (.derive "injectExternalCalendars" baseData)

def readLocalDataForSyncCycle : Run D (Document D) := do
  let currentChangeAt ← call .getLastDataChangeAt
  let state ← get
  match state.localDataCache.filter fun cache => cache.1 == currentChangeAt with
  | some (_, data) =>
    modify fun state => { state with localSnapshotChangeAt := currentChangeAt }
    return data
  | none =>
    match ← usableCarriedSnapshot options currentChangeAt with
    | some data =>
      modify fun state => { state with
        localSnapshotChangeAt := currentChangeAt
        localDataCache := some (currentChangeAt, data)
        localSnapshotMatchesDisk := true }
      return data
    | none =>
      let (baseData, matchesDisk) ← reconcileLocalData
      let injected ← injectExternalCalendars options baseData
      modify fun state => { state with
        localSnapshotChangeAt := currentChangeAt
        localDataCache := some (currentChangeAt, injected.getD baseData)
        localSnapshotMatchesDisk := matchesDisk && injected.isNone }
      return injected.getD baseData

def persistLocalDataWithTracking (data : Document D) : Run D (Document D) := do
  call (.assertRemoteMutationFenceHeld "persist")
  let canonical ← call (.persistLocal data)
  let persisted := canonical.getD data
  ensureLocalSnapshotFresh platform options (some persisted)
  modify fun state => { state with localSnapshotMatchesDisk := false }
  if platform.isDesktop then
    call (.applyDataToStore persisted)
    let currentChangeAt ← call .getLastDataChangeAt
    modify fun state => { state with
      localSnapshotChangeAt := currentChangeAt
      localDataCache := some (currentChangeAt, persisted)
      wroteLocal := true }
    return persisted
  else
    modify fun state => { state with wroteLocal := true }
    return persisted

def persistPreSyncedDataAfterAbort : Run D Unit := do
  let state ← get
  match state.preSyncedLocalData.filter fun _ => !state.wroteLocal with
  | none => return
  | some _ =>
    let currentChangeAt ← call .getLastDataChangeAt
    modify fun state => { state with localSnapshotChangeAt := currentChangeAt }
    let inMemorySnapshot ← call .getInMemorySnapshot
    let reconciledData ← call (.derive "mergeAppData" inMemorySnapshot)
    let _ ← persistLocalDataWithTracking platform options (reconciledData.getD inMemorySnapshot)

/-- Work of the platform that checks the snapshot any number of times. -/
def awaitWithChecks (what : String) (expectedData : Option (Document D)) : Nat → Run D Unit
  | 0 => await what
  | checks + 1 => do
    await what
    ensureLocalSnapshotFresh platform options expectedData
    awaitWithChecks what expectedData checks

def syncAttachments (data : Document D) : Run D (Option (Document D)) := do
  let checks ← call (.count "checks of the attachment pass")
  awaitWithChecks platform options "syncAttachments" none checks
  call (.derive "syncAttachments" data)

/-! ### Before the merge -/

def preSyncAttachments : Run D Unit := do
  let localData ← readLocalDataForSyncCycle options
  await "shouldRunAttachmentPhase"
  let needed ← holds "attachment pre-sync is needed"
  if needed then
    await "yieldToUi"
    await "ensureNetwork"
    let result ← syncAttachments platform options localData
    call (.assertRemoteMutationFenceHeld "attachments_prepare")
    let mutated ← holds "attachment pre-sync has mutated the data"
    if mutated then
      modify fun state => { state with
        preSyncedLocalData := some (result.getD localData), localDataCache := none }
      ensureLocalSnapshotFresh platform options none
    else return
  else return

def isFenceError : RunError → Bool
  | .failure .remoteFence | .failure .remoteFenceBusy => true
  | _ => false

def runAttachmentPreSyncPhase : Run D Unit :=
  if !options.attachmentPhasesEnabled || options.activationProbe then return
  else tryCatch (preSyncAttachments platform options) fun error => do
    let cycleAborted ← holds "cycle is aborted"
    if error = .localSyncAbort || isFenceError error || cycleAborted then throw error
    else return

def persistUnchangedSyncStatus : Run D Unit := swallow (await "persistSyncStatus")

/-- A fingerprint of the remote, or none when its read fails. -/
def remoteFingerprintMatches : Run D Bool :=
  tryCatch (do await "readRemoteFingerprint"; holds "remote fingerprint is the recorded one") fun _ => return false

def trySkipUnchangedFastSync : Run D Bool := do
  let hasScope ← holds "fast sync has a scope"
  if options.manual || !hasScope then return false
  else
    await "yieldToUi"
    let state ← get
    if state.preSyncedLocalData.isSome then return false
    else
      let _ ← readLocalDataForSyncCycle options
      ensureLocalSnapshotFresh platform options none
      await "readFastSyncState"
      let unchanged ← holds "no side effects are pending and the local fingerprint is the recorded one"
      let remoteUnchanged ← if unchanged then remoteFingerprintMatches else pure false
      if remoteUnchanged then
        ensureLocalSnapshotFresh platform options none
        await "writeFastSyncState"
        persistUnchangedSyncStatus
        return true
      else return false

/-- Arming changes only what the read of the remote answers. -/
def tryArmLocalOnlyUploadFastPath : Run D Unit := do
  let possible ← holds "fast sync has a scope and a conditional write"
  if options.manual || options.ignorePendingRemoteWriteBackoff || !possible
      || !options.preSyncAttachmentsBeforeFastCheck then return
  else
    await "yieldToUi"
    let state ← get
    if state.preSyncedLocalData.isSome then return
    else
      let _ ← readLocalDataForSyncCycle options
      ensureLocalSnapshotFresh platform options none
      await "readFastSyncState"
      let changed ← holds "no side effects are pending and the local fingerprint has changed"
      let remoteUnchanged ← if changed then remoteFingerprintMatches else pure false
      if remoteUnchanged then ensureLocalSnapshotFresh platform options none
      else return

def readRemoteForCycle : Run D Unit := do
  call (.assertRemoteMutationFenceHeld "read-remote")
  await "readRemote"

def recordFastSyncState : Run D Unit := do
  let skipped ← holds "fast sync has no scope or side effects are pending"
  let currentChangeAt ← call .getLastDataChangeAt
  let state ← get
  if skipped || currentChangeAt > state.localSnapshotChangeAt then return
  else
    let known ← remoteFingerprintMatches
    if known then await "writeFastSyncState" else return

def trySkipUnchangedReadSync : Run D Bool := do
  await "yieldToUi"
  let state ← get
  if state.preSyncedLocalData.isSome then return false
  else
    let _ ← readLocalDataForSyncCycle options
    ensureLocalSnapshotFresh platform options none
    let pending ← holds "side effects are pending"
    if pending then return false
    else
      readRemoteForCycle
      ensureLocalSnapshotFresh platform options none
      let unchanged ← holds "remote is there, compacted and has the local fingerprint"
      if unchanged then
        recordFastSyncState
        persistUnchangedSyncStatus
        return true
      else return false

/-! ### The cycle -/

/-- The transfer passes of a candidate's proof. -/
def transferPasses (data : Document D) : Nat → Run D (Document D)
  | 0 => return data
  | passes + 1 => do
    await "yieldToUi"
    await "ensureNetwork"
    ensureLocalSnapshotFresh platform options none
    call (.assertRemoteMutationFenceHeld "attachments_finalize")
    let result ← syncAttachments platform options data
    call (.assertRemoteMutationFenceHeld "attachments_finalize")
    ensureLocalSnapshotFresh platform options none
    transferPasses (result.getD data) passes

def prepareRemoteWriteData (data : Document D) : Run D (Document D) := do
  let nothingToTransfer ← holds "no attachments are to be proven or pending"
  if nothingToTransfer then return data
  else
    await "yieldToUi"
    await "ensureNetwork"
    call (.assertRemoteMutationFenceHeld "attachments_finalize")
    if options.activationProbe then
      let passes ← call (.count "transfer passes")
      let proven ← transferPasses platform options data passes
      let allProven ← holds "all attachments are proven"
      check allProven (.failure .other)
      ensureLocalSnapshotFresh platform options none
      return proven
    else
      let result ← syncAttachments platform options data
      call (.assertRemoteMutationFenceHeld "attachments_finalize")
      return result.getD data

def writeRemoteForCycle : Run D Unit := do
  call (.assertRemoteMutationFenceHeld "write-remote")
  await "ensureNetwork"
  let uploaded ← holds "no attachment upload blocks the write"
  check uploaded (.failure .other)
  let unchanged ← holds "the remote document is unchanged"
  if unchanged then return
  else
    tryCatch (do
      call (.assertRemoteMutationFenceHeld "write-remote")
      await "writeRemote") fun error =>
      if error = .failure .remoteWriteConflict then do
        requestFollowUp options
        throw .localSyncAbort
      else throw error
    call (.assertRemoteMutationFenceHeld "write-remote")
    let serverMerged ← holds "the server has merged remote data"
    if serverMerged then requestFollowUp options else return

def writeLocal (data : Document D) : Run D (Document D) := do
  ensureLocalSnapshotFresh platform options (some data)
  if options.activationProbe then return data
  else persistLocalDataWithTracking platform options data

def writeRemote (data : Document D) : Run D Unit := do
  ensureLocalSnapshotFresh platform options (some data)
  writeRemoteForCycle options

def clearPendingRemoteWriteAfterLocalAbort : Run D Unit :=
  if options.activationProbe then return
  else do
    let current ← call .getInMemorySnapshot
    let otherPending ← holds "another remote write is pending"
    if otherPending then return
    else
      let cleared ← call (.derive "clearPendingRemoteWrite" current)
      let _ ← persistLocalDataWithTracking platform options (cleared.getD current)

def isLocalPersistUnchanged : Run D Bool := do
  let state ← get
  let equivalent ← holds "the data is equivalent to the stored data"
  return !options.activationProbe && state.localSnapshotMatchesDisk && state.localDataCache.isSome && equivalent

/-- The local document stays as it is: the cycle writes to the remote alone. -/
def writeUnchangedLocal (finalData : Document D) : Run D (Document D × Bool) := do
  tryCatch (writeRemote platform options finalData) fun error =>
    if error = .localSyncAbort then throw error
    else do
      let retry ← call (.derive "withPendingRemoteWriteRetry" finalData)
      let _ ← writeLocal platform options (retry.getD finalData)
      throw error
  swallow (await "persistSyncStatusOnly")
  return (finalData, true)

/-- The local document is written before and after the remote. -/
def writeBoth (finalData : Document D) : Run D (Document D × Bool) := do
  let flagged ← call (.derive "withPendingRemoteWriteFlag" finalData)
  let canonical ← writeLocal platform options (flagged.getD finalData)
  let cleared ← call (.derive "clearPendingRemoteWriteFlag" canonical)
  let persistedFinalData := cleared.getD canonical
  tryCatch (writeRemote platform options persistedFinalData) fun error => do
    if error = .localSyncAbort then
      clearPendingRemoteWriteAfterLocalAbort platform options
      throw error
    else
      let retry ← call (.derive "withPendingRemoteWriteRetry" canonical)
      let _ ← writeLocal platform options (retry.getD canonical)
      throw error
  tryCatch (do
    let written ← writeLocal platform options persistedFinalData
    return (written, false)) fun error => do
    if error = .localSyncAbort then
      clearPendingRemoteWriteAfterLocalAbort platform options
      throw error
    else throw error

/-- `performSyncCycle` after it has read its local document. -/
def mergeAndWrite (localData : Document D) (pendingRemoteWrite : Bool) : Run D (Document D × Bool) := do
  await "yieldToUi"
  readRemoteForCycle
  let merged ← call (.derive "mergeAppDataWithStats" localData)
  let valid ← holds "the merged data is valid"
  check valid (.failure .other)
  let finalData ← prepareRemoteWriteData platform options (merged.getD localData)
  let preparedValid ← holds "the prepared data is valid"
  check preparedValid (.failure .other)
  let unchanged ← isLocalPersistUnchanged options
  if !pendingRemoteWrite && unchanged then writeUnchangedLocal platform options finalData
  else writeBoth platform options finalData

/-- The merged document and whether its local write was skipped, or nothing while the backoff is active. -/
def performSyncCycle : Run D (Option (Document D × Bool)) := do
  let localData ← readLocalDataForSyncCycle options
  let pending ← holds "a remote write is pending"
  if pending then
    let blocked ← holds "the backoff is active"
    if blocked then return none
    else
      await "flushPendingLocalBeforeRetryRead"
      let localData ← readLocalDataForSyncCycle options
      let result ← mergeAndWrite platform options localData true
      return some result
  else
    let result ← mergeAndWrite platform options localData false
    return some result

/-! ### After the merge -/

def attachmentPass (mergedData : Document D) : Run D (Option (Document D)) := do
  ensureLocalSnapshotFresh platform options none
  await "ensureNetwork"
  let result ← syncAttachments platform options mergedData
  call (.assertRemoteMutationFenceHeld "attachments")
  let mutated ← holds "the attachment pass has mutated the data"
  if mutated then
    ensureLocalSnapshotFresh platform options none
    return some (result.getD mergedData)
  else return none

def isAttachmentErrorThrown (error : RunError) : Bool :=
  error == .localSyncAbort || isFenceError error
    || (options.postMergeAttachmentsMayFail && error != .failure .attachmentTooLarge)

def runPostMergeAttachmentPhase (mergedData : Document D) : Run D (Document D) := do
  await "shouldRunAttachmentPhase"
  let needed ← holds "the attachment pass is needed"
  if !options.attachmentPhasesEnabled || !needed then return mergedData
  else
    await "yieldToUi"
    let nextData ← tryCatch (attachmentPass platform options mergedData) fun error =>
      if isAttachmentErrorThrown options error then throw error else return none
    match nextData with
    | none => return mergedData
    | some nextData =>
      tryCatch (do
        let _ ← persistLocalDataWithTracking platform options nextData
        await "yieldToUi"
        return nextData) fun error =>
        if isAttachmentErrorThrown options error then throw error else return nextData

def runAttachmentCleanupPhase (mergedData : Document D) : Run D (Document D) := do
  let due ← holds "attachment cleanup is due"
  if !options.attachmentPhasesEnabled || !due then return mergedData
  else
    call (.assertRemoteMutationFenceHeld "attachments_cleanup")
    let checks ← call (.count "checks of the attachment cleanup")
    awaitWithChecks platform options "runAttachmentCleanup" (some mergedData) checks
    call (.assertRemoteMutationFenceHeld "attachments_cleanup")
    ensureLocalSnapshotFresh platform options (some mergedData)
    let cleaned ← call (.derive "runAttachmentCleanup" mergedData)
    match cleaned with
    | none => return mergedData
    | some cleaned =>
      let _ ← persistLocalDataWithTracking platform options cleaned
      return cleaned

/-- Both platforms refresh the store from the document; desktop then clears a follow-up that the run has
covered. -/
def finalizeSuccess (mergedData : Document D) (localWriteSkipped : Bool) : Run D Unit :=
  if platform.isDesktop then do
    call (.applyDataToStore mergedData)
    let _ ← acceptCoveredLocalSnapshot platform mergedData
    let currentChangeAt ← call .getLastDataChangeAt
    let state ← get
    let equivalent ← holds "the queued options are equivalent"
    if equivalent && currentChangeAt ≤ state.localSnapshotChangeAt then call .clearFollowUp else return
  else if localWriteSkipped then return
  else call (.applyDataToStore mergedData)

def runMergePhase : Run D RunResult := do
  match ← performSyncCycle platform options with
  | none => return .pendingRemoteWriteBackoff
  | some (mergedData, skipped) =>
    if options.activationProbe then return .synced
    else
      ensureLocalSnapshotFresh platform options (some mergedData)
      await "persistExternalCalendars"
      let mergedData ← runPostMergeAttachmentPhase platform options mergedData
      await "cleanupAttachmentTempFiles"
      let mergedData ← runAttachmentCleanupPhase platform options mergedData
      recordFastSyncState
      await "yieldToUi"
      ensureLocalSnapshotFresh platform options (some mergedData)
      call (.assertRemoteMutationFenceHeld "refresh")
      let state ← get
      finalizeSuccess platform mergedData (skipped && !state.wroteLocal)
      await "finalizeSuccess"
      return .synced

def runPhases : Run D RunResult := do
  await "flushPendingSave"
  let currentChangeAt ← call .getLastDataChangeAt
  modify fun state => { state with localSnapshotChangeAt := currentChangeAt }
  await "setupCycle"
  let isDisabled ← holds "sync is disabled"
  if isDisabled then return .disabled
  else
    if options.preSyncAttachmentsBeforeFastCheck then runAttachmentPreSyncPhase platform options else pure ()
    let fastSkipped ← if options.activationProbe then pure false else trySkipUnchangedFastSync platform options
    if fastSkipped then return .unchanged
    else
      if options.activationProbe then pure () else tryArmLocalOnlyUploadFastPath platform options
      let armed ← holds "the local-only upload is armed"
      let readSkipped ←
        if options.activationProbe || armed || !options.enableReadCheckSkip then pure false
        else trySkipUnchangedReadSync platform options
      if readSkipped then return .unchanged
      else
        if options.preSyncAttachmentsBeforeFastCheck then pure () else runAttachmentPreSyncPhase platform options
        runMergePhase platform options

def finalizeError : Run D RunResult := do
  swallow (await "logSyncError")
  swallow (await "finalizeErrorStatus")
  return .failed

def handleRunError (error : RunError) : Run D RunResult := do
  match error with
  | .failure .attachmentTooLarge => return .attachmentTooLarge
  | .failure .fileLockBusy =>
    let firstRetry ← holds "the file lock was not busy before"
    if firstRetry then requestFollowUp options else pure ()
    return .fileSyncLockBusy
  | .failure .remoteFenceBusy =>
    requestFollowUp options
    return .remoteFenceBusy
  | .localSyncAbort =>
    let handled ← holds "the platform handles the error"
    if handled && !options.activationProbe then return .handled
    else
      if options.activationProbe then pure () else persistPreSyncedDataAfterAbort platform options
      return .requeued
  | .failure _ =>
    let handled ← holds "the platform handles the error"
    if handled then return .handled else finalizeError

/-- A release that fails asks for a later run. -/
def releaseRemoteMutationFence : Run D Unit :=
  tryCatch (await "releaseRemoteMutationFence") fun _ => requestFollowUp options

def settle : Except RunError RunResult → Run D RunResult
  | .ok result => return result
  | .error error => throw error

def run : Run D RunResult := do
  let outcome ← tryCatch (do
    let result ← tryCatch (runPhases platform options) (handleRunError platform options)
    return Except.ok result) fun error => return Except.error error
  releaseRemoteMutationFence options
  settle outcome

end Run

/-- A run at its start, with the data that an idle cycle may have carried over. -/
def sharedSyncRun {D : Type} (platform : RunPlatform D) (options : RunOptions) (carriedAt : Nat)
    (carried : Option D) : Calls (RunCall D) (RunAnswer D) RunFailure (Except RunError RunResult × RunState D) :=
  StateT.run (ExceptT.run (Run.run platform options))
    ⟨0, none, false, none, carried.map fun data => (carriedAt, ⟨data, 0⟩), false⟩

end Mindwtr.Sync
