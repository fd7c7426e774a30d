import Mindwtr.Js.Text
import Mindwtr.Js.Json

/-!
# The sync cycle and its pending remote write

`performSyncCycleUnlocked` of `sync.ts` as the steps between its reads and writes, with the fields of the
local settings that carry over from one cycle to the next. A document is its content, of any type, and
those fields; the merge, its validation and the purge of tombstones are one function on contents that may
throw, and leave the fields as the local document has them (`mergeSettingsForSync` copies the local
settings). A timestamp is known by the time that `Date.parse` reads in it.

A call may fail before or after it has taken effect, and the process may stop at any point. `found`,
`published`, `hookCalled`, `failures`, `recordedRetryAt`, `remoteCalls` and `result` are history that no step
reads.
-/

namespace Mindwtr.Sync

open Mindwtr.Js

/-- A string in a document. -/
inductive Timestamp where
  | at (ms : Int)
  | invalid (text : String)
deriving DecidableEq

def isValidTimestamp : Option Timestamp → Bool
  | some (.at _) => true
  | _ => false

/-- What a call rejects with. -/
inductive Thrown where
  | error (name message : String)
  | text (value : String)
  | other
deriving DecidableEq

def isLocalSyncAbortError : Thrown → Bool
  | .error name _ => name == "LocalSyncAbort"
  | _ => false

def getSyncErrorMessage (error : Thrown) : Option String :=
  match error with
  | .error _ message => if trim message ≠ "" then some (trim message) else none
  | .text value => if trim value ≠ "" then some (trim value) else none
  | .other => none

structure PendingRemoteWrite where
  pendingRemoteWriteAt : Option Timestamp
  pendingRemoteWriteRetryAt : Option Timestamp
  pendingRemoteWriteAttempts : Option Json

def PendingRemoteWrite.empty : PendingRemoteWrite := ⟨none, none, none⟩

structure SyncDocument (D : Type) where
  content : D
  lastSyncStatus : Option String
  lastSyncError : Option String
  pending : PendingRemoteWrite

def pendingRemoteWriteRetryBaseMs : Int := 5 * 1000
def pendingRemoteWriteRetryMaxMs : Int := 5 * 60 * 1000
def pendingRemoteWriteMaxAttempts : Nat := 12

section
variable {D : Type}

/-- The time of the mark is a valid one: the time of a cycle, or one found so. -/
def withPendingRemoteWriteFlag (data : SyncDocument D) (pendingAt : Int) (attempts : Option Nat) :
    SyncDocument D :=
  { data with pending :=
    { pendingRemoteWriteAt := some (.at pendingAt)
      pendingRemoteWriteRetryAt := none
      pendingRemoteWriteAttempts := (attempts.filter (0 < ·)).map fun n => .num n } }

/-- An empty string alone is left where it is. -/
def clearPendingRemoteWriteFlag (data : SyncDocument D) : SyncDocument D :=
  if (data.pending.pendingRemoteWriteAt = none ∨ data.pending.pendingRemoteWriteAt = some (.invalid "")) ∧
      data.pending.pendingRemoteWriteRetryAt = none ∧ data.pending.pendingRemoteWriteAttempts.isNone then
    data
  else { data with pending := .empty }

def hasPendingRemoteWriteFlag (data : SyncDocument D) : Bool :=
  isValidTimestamp data.pending.pendingRemoteWriteAt

def getPendingRemoteWriteAttemptCount (data : SyncDocument D) : Nat :=
  match asNum? data.pending.pendingRemoteWriteAttempts with
  | none => 0
  | some attempts => attempts.floor.toNat

def getPendingRemoteWriteBlockedMs (data : SyncDocument D) (nowMs : Int) : Int :=
  match data.pending.pendingRemoteWriteRetryAt with
  | some (.at retryAtMs) => max 0 (retryAtMs - nowMs)
  | _ => 0

def backoffMs (attempts : Nat) : Int :=
  min pendingRemoteWriteRetryMaxMs (pendingRemoteWriteRetryBaseMs * 2 ^ (attempts - 1))

def withPendingRemoteWriteRetry (data : SyncDocument D) (nowMs : Int) (error : Thrown) : SyncDocument D :=
  let rawNextAttempts := getPendingRemoteWriteAttemptCount data + 1
  let nextAttempts := min rawNextAttempts pendingRemoteWriteMaxAttempts
  { data with
    lastSyncStatus := some "error"
    lastSyncError := some (
      if pendingRemoteWriteMaxAttempts ≤ rawNextAttempts then
        "Remote write failed after " ++ toString pendingRemoteWriteMaxAttempts ++
          " attempts. Check your sync backend, then sync again."
      else (getSyncErrorMessage error).getD "Remote write failed. Retrying in the background.")
    pending := { data.pending with
      pendingRemoteWriteRetryAt := some (.at (nowMs + backoffMs nextAttempts))
      pendingRemoteWriteAttempts := some (.num nextAttempts) } }

end

/-! ### The steps of a cycle -/

structure PendingRemoteWriteMeta where
  pendingAt : Int
  attempts : Nat

/-- The call the cycle awaits, with what it holds for after it. -/
inductive CycleWait (D : Type) where
  | idle
  | readLocal
  | flushPendingLocal (pending : PendingRemoteWriteMeta)
  | rereadLocal (pending : PendingRemoteWriteMeta)
  | readRemote (localData : SyncDocument D) (pending : Option PendingRemoteWriteMeta)
  | prepareRemoteWrite (finalData : SyncDocument D) (pending : Option PendingRemoteWriteMeta)
  /-- The remote write of a cycle that leaves the local document as it is, and what may follow it. -/
  | writeRemoteOnly (finalData : SyncDocument D)
  | recordRetryOnly (data : SyncDocument D)
  | persistSyncStatusOnly (finalData : SyncDocument D)
  | writeLocalFlagged (data : SyncDocument D)
  | writeRemote (canonical : SyncDocument D)
  | recordRetry (data : SyncDocument D)
  | writeLocalFinal (data : SyncDocument D) (pendingAt : Option Timestamp)
  | clearAfterLocalAbort (pendingAt : Option Timestamp)

inductive SyncCycleResult where
  | skipped (retryInMs : Int) (message : String)
  | written (status : Option String) (localWriteSkipped : Bool)

def pausedMessage (blockedMs : Int) : String :=
  "Sync paused briefly after remote write failure. Retry in about " ++
    toString (max 1 ((blockedMs : Rat) / 1000).ceil) ++ "s."

structure RemoteCall where
  startedAt : Int
  recordedRetryAt : Option Int
deriving DecidableEq

structure CycleState (D : Type) where
  stored : SyncDocument D
  remote : D
  wait : CycleWait D
  /-- The time of the cycle. -/
  nowMs : Int
  /-- What the local storage held before the cycle wrote to it. -/
  found : D
  /-- What the cycle has written to the remote with success. -/
  published : Option D
  hookCalled : Bool
  /-- The remote failures recorded since the last success. -/
  failures : Nat
  recordedRetryAt : Option Int
  remoteCalls : List RemoteCall
  /-- What the last cycle has returned. -/
  result : Option SyncCycleResult

inductive CycleEvent (D : Type) where
  | start (nowMs : Int)
  | readLocal (answer : Except Thrown D)
  /-- What the local storage holds after `flushPendingLocalBeforeRetryRead`. -/
  | flushed (answer : Except Thrown D)
  | readRemote (answer : Except Thrown D)
  /-- What `prepareRemoteWrite` and its validation leave, and the answer of `isLocalPersistUnchanged`. -/
  | prepared (answer : Except Thrown (SyncDocument D)) (unchanged : Bool)
  | writeLocal (effect : Bool) (failure : Option Thrown)
  | writeRemote (effect : Bool) (failure : Option Thrown)
  | persistStatus (effect : Bool)
  /-- What `clearPendingRemoteWriteAfterLocalAbort` leaves in the local storage. -/
  | clearedAfterAbort (stored : Option (SyncDocument D))
  | stop

/-- What the cycle is run with: the canonical form in which a document is stored, and the merge, which also
gives the status of the sync. -/
structure CycleHost (D : Type) where
  canonical : D → D
  merge : D → D → Option (D × String)

namespace CycleState

variable {D : Type} (host : CycleHost D) (s : CycleState D)

def init (stored : SyncDocument D) (remote : D) (nowMs : Int) : CycleState D :=
  ⟨stored, remote, .idle, nowMs, stored.content, none, false, 0, none, [], none⟩

/-- The document that a local write stores and returns. -/
def persisted (data : SyncDocument D) : SyncDocument D := { data with content := host.canonical data.content }

def done (result : SyncCycleResult) : CycleState D := { s with wait := .idle, result := some result }

def await (wait : CycleWait D) : CycleState D := { s with wait }

def start (nowMs : Int) : CycleState D :=
  { s with
    wait := .readLocal
    nowMs
    found := s.stored.content
    published := none
    hookCalled := false
    result := none }

/-- The cycle has read its local document. -/
def afterReadLocal (content : D) : CycleState D :=
  let localData := { s.stored with content }
  match localData.pending.pendingRemoteWriteAt with
  | some (.at ms) =>
    let blockedMs := getPendingRemoteWriteBlockedMs localData s.nowMs
    if 0 < blockedMs then s.done (.skipped blockedMs (pausedMessage blockedMs))
    else s.await (.flushPendingLocal ⟨ms, getPendingRemoteWriteAttemptCount localData⟩)
  | _ => s.await (.readRemote localData none)

def noteRemoteCall : CycleState D :=
  { s with remoteCalls := ⟨s.nowMs, s.recordedRetryAt⟩ :: s.remoteCalls }

def afterReadRemote (localData : SyncDocument D) (pending : Option PendingRemoteWriteMeta) (remote : D) :
    CycleState D :=
  match host.merge localData.content remote with
  | none => s.await .idle
  | some (content, status) =>
    s.await (.prepareRemoteWrite ⟨content, some status, none, localData.pending⟩ pending)

def afterPrepare (finalData : SyncDocument D) (pending : Option PendingRemoteWriteMeta) (unchanged : Bool) :
    CycleState D :=
  if pending.isNone && unchanged then s.await (.writeRemoteOnly finalData)
  else
    s.await (.writeLocalFlagged (withPendingRemoteWriteFlag finalData
      ((pending.map (·.pendingAt)).getD s.nowMs) (pending.map (·.attempts))))

def store (effect : Bool) (data : SyncDocument D) : CycleState D :=
  if effect then { s with stored := persisted host data } else s

/-- A failure has been recorded in the local storage. -/
def storeRetry (effect : Bool) (data : SyncDocument D) : CycleState D :=
  if effect then
    { s.store host true data with
      failures := s.failures + 1
      recordedRetryAt :=
        match data.pending.pendingRemoteWriteRetryAt with
        | some (.at ms) => some ms
        | _ => s.recordedRetryAt }
  else s

def clearRecord : CycleState D := { s with failures := 0, recordedRetryAt := none }

def publish (effect : Bool) (failure : Option Thrown) (content : D) : CycleState D :=
  { s.noteRemoteCall with
    remote := if effect then content else s.remote
    published := if failure.isNone then some content else s.published }

def writeLocal (effect : Bool) (failure : Option Thrown) : Option (CycleState D) :=
  match s.wait with
  | .recordRetryOnly data | .recordRetry data => some ((s.storeRetry host effect data).await .idle)
  | .writeLocalFlagged data =>
    match failure with
    | some _ => some ((s.store host effect data).await .idle)
    | none => some ((s.store host true data).await (.writeRemote (persisted host data)))
  | .writeLocalFinal data pendingAt =>
    match failure with
    | none => some ((s.store host true data).clearRecord.done (.written data.lastSyncStatus false))
    | some error =>
      let t := if effect then (s.store host true data).clearRecord else s
      some (t.await (if isLocalSyncAbortError error then .clearAfterLocalAbort pendingAt else .idle))
  | _ => none

def writeRemote (effect : Bool) (failure : Option Thrown) : Option (CycleState D) :=
  match s.wait with
  | .writeRemoteOnly finalData =>
    let t := s.publish effect failure finalData.content
    match failure with
    | none => some (t.await (.persistSyncStatusOnly finalData))
    | some error =>
      some (t.await (if isLocalSyncAbortError error then .idle
        else .recordRetryOnly (withPendingRemoteWriteRetry finalData s.nowMs error)))
  | .writeRemote canonical =>
    let persistedFinalData := clearPendingRemoteWriteFlag canonical
    let t := s.publish effect failure persistedFinalData.content
    match failure with
    | none => some (t.await (.writeLocalFinal persistedFinalData canonical.pending.pendingRemoteWriteAt))
    | some error =>
      some (t.await (if isLocalSyncAbortError error then
          .clearAfterLocalAbort canonical.pending.pendingRemoteWriteAt
        else .recordRetry (withPendingRemoteWriteRetry canonical s.nowMs error)))
  | _ => none

end CycleState

open CycleState in
def cycleStep {D : Type} (host : CycleHost D) (s : CycleState D) (e : CycleEvent D) : Option (CycleState D) :=
  match e, s.wait with
  | .start nowMs, .idle => some (s.start nowMs)
  | .readLocal (.error _), .readLocal | .readLocal (.error _), .rereadLocal _ => some (s.await .idle)
  | .readLocal (.ok content), .readLocal => some (s.afterReadLocal content)
  | .readLocal (.ok content), .rereadLocal pending =>
    some (s.await (.readRemote (clearPendingRemoteWriteFlag { s.stored with content }) (some pending)))
  | .flushed (.error _), .flushPendingLocal _ => some (s.await .idle)
  | .flushed (.ok content), .flushPendingLocal pending =>
    some { s with stored := { s.stored with content }, found := content, wait := .rereadLocal pending }
  | .readRemote (.error _), .readRemote _ _ => some (s.noteRemoteCall.await .idle)
  | .readRemote (.ok remote), .readRemote localData pending =>
    some (s.noteRemoteCall.afterReadRemote host localData pending remote)
  | .prepared (.error _) _, .prepareRemoteWrite _ _ => some (s.await .idle)
  | .prepared (.ok finalData) unchanged, .prepareRemoteWrite _ pending =>
    some (s.afterPrepare finalData pending unchanged)
  | .writeLocal effect failure, _ => s.writeLocal host effect failure
  | .writeRemote effect failure, _ => s.writeRemote effect failure
  | .persistStatus effect, .persistSyncStatusOnly finalData =>
    let stored := if effect then
      { s.stored with lastSyncStatus := finalData.lastSyncStatus, lastSyncError := finalData.lastSyncError }
      else s.stored
    some ({ s.clearRecord with stored }.done (.written finalData.lastSyncStatus true))
  | .clearedAfterAbort stored, .clearAfterLocalAbort _ =>
    some (match stored with
      | none => s.await .idle
      | some stored => { s.clearRecord with stored, hookCalled := true, wait := .idle })
  | .stop, _ => some (s.await .idle)
  | _, _ => none

end Mindwtr.Sync
