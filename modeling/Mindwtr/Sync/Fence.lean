import Mindwtr.Js.Runtime

/-!
# The remote mutation fence

`sync-remote-fence.ts`: a lease kept in one remote file. A client acquires it by a conditional write
over the generation it has read, verifies the write by another read, renews it the same way and
removes it the same way. A lease whose holder missed several of the heartbeats it advertises may be
taken over before it expires.

Any number of clients run on one server. A read is one step and carries the time of the server. A
write is sent, lands at some later step or never, and is answered after it has landed; whatever else
makes a call throw is the event `fails`, after which the request may still land. Times are in
milliseconds. One client stands for one call of `acquireSyncRemoteMutationFence` with the lease it
returns.

`promises` and `releaseAsked` are history that no step reads.
-/

namespace Mindwtr.Sync

open Mindwtr.Js

inductive FencePurpose where
  | ordinarySync
  | encryptionTransition
deriving DecidableEq

def FencePurpose.text : FencePurpose → String
  | .ordinarySync => "ordinary-sync"
  | .encryptionTransition => "encryption-transition"

structure FenceRecord where
  leaseId : String
  ownerId : String
  purpose : FencePurpose
  expiresAt : Rat
  heartbeatMs : Option Rat
  renewedAt : Option Rat
deriving DecidableEq

/-- The file holds the JSON text of a record or bytes that no client reads as one. -/
inductive FenceBytes where
  | text (record : FenceRecord)
  | other
deriving DecidableEq

structure FenceFile where
  bytes : FenceBytes
  version : Nat
deriving DecidableEq

def minTtlMs : Rat := 10000
def maxTtlMs : Rat := 15 * 60000
def maxFutureExpiryToleranceMs : Rat := 60000
def maxRecordBytes : Nat := 4096
def defaultAcquireAttempts : Nat := 4
def defaultHeartbeatMs : Rat := 20000
def abandonedAfterMissedHeartbeats : Rat := 3
def abandonedJitterMarginMs : Rat := 5000

def isImpossibleFutureExpiry (expiresAt serverNowMs : Rat) : Bool :=
  decide (expiresAt - serverNowMs > maxTtlMs + maxFutureExpiryToleranceMs)

/-- The time from which a record that advertises a heartbeat counts as abandoned. -/
def abandonmentDeadline (record : FenceRecord) : Option Rat :=
  match record.heartbeatMs, record.renewedAt with
  | some heartbeatMs, some renewedAt =>
    if heartbeatMs ≤ 0 then none
    else some (renewedAt + heartbeatMs * abandonedAfterMissedHeartbeats + abandonedJitterMarginMs)
  | _, _ => none

def isAbandonedRecord (record : FenceRecord) (serverNowMs : Rat) : Bool :=
  (abandonmentDeadline record).any fun deadline => decide (deadline < serverNowMs)

/-- The time until which no client may take the record's lease. -/
def safeDeadline (record : FenceRecord) : Rat :=
  match abandonmentDeadline record with
  | none => record.expiresAt
  | some deadline => min record.expiresAt deadline

def getSafeAuthorityRemainingMs (record : FenceRecord) (serverNowMs : Rat) : Rat :=
  safeDeadline record - serverNowMs

/-! ### The options of a call -/

structure AcquireFenceOptions where
  ownerId : String
  purpose : FencePurpose
  ttlMs : Option Rat := none
  heartbeatMs : Option Rat := none
  maxAttempts : Option Nat := none
  leaseId : String

namespace AcquireFenceOptions

variable (options : AcquireFenceOptions)

def owner : String := trim options.ownerId
def ttl : Rat := options.ttlMs.getD (5 * 60000)
def heartbeat : Rat := options.heartbeatMs.getD (max 1000 (min defaultHeartbeatMs (options.ttl / 3).floor))
def attempts : Nat := options.maxAttempts.getD defaultAcquireAttempts

/-- The checks before the first read. -/
def valid : Bool :=
  options.owner != "" && decide (minTtlMs ≤ options.ttl ∧ options.ttl ≤ maxTtlMs) &&
    decide (0 ≤ options.heartbeat ∧ options.heartbeat < options.ttl) &&
    decide (1 ≤ options.attempts ∧ options.attempts ≤ 20) && decide (8 ≤ (utf16 options.leaseId).length)

/-- The record written on a read at this time. -/
def record (heartbeatMs serverNowMs : Rat) : FenceRecord :=
  { leaseId := options.leaseId
    ownerId := options.owner
    purpose := options.purpose
    expiresAt := serverNowMs + options.ttl
    heartbeatMs := some heartbeatMs
    renewedAt := some serverNowMs }

/-- The record is the one this call writes. -/
def owns (record : FenceRecord) : Bool :=
  record.leaseId == options.leaseId && record.ownerId == options.owner

end AcquireFenceOptions

/-! ### Clients and server -/

inductive FencePhase where
  | notStarted
  | reading (attempt : Nat)
  | writing (attempt : Nat) (record : FenceRecord) (request : Nat)
  | verifying (record : FenceRecord)
  | failed
  | held
  | checking (horizon : Rat)
  /-- `horizon` is the one of the `assertHeld` that renews. -/
  | renewReading (horizon : Option Rat)
  | renewWriting (horizon : Option Rat) (record : FenceRecord) (request : Nat)
  | renewVerifying (horizon : Option Rat) (record : FenceRecord)
  | releaseReading
  | removing (request : Nat)
deriving DecidableEq

structure FenceClient where
  options : AcquireFenceOptions
  phase : FencePhase
  advertisedHeartbeatMs : Rat
  closed : Bool
  lostError : Bool
  /-- The running operation is the one of the heartbeat timer. -/
  background : Bool

def FenceClient.init (options : AcquireFenceOptions) : FenceClient :=
  ⟨options, .notStarted, options.heartbeat, false, false, false⟩

inductive FenceAction where
  | acquire (record : FenceRecord)
  | renew (record : FenceRecord)
  | remove
deriving DecidableEq

/-- A conditional write or removal: it applies to the generation its client has seen. -/
structure FenceRequest where
  client : Nat
  seen : Option FenceFile
  action : FenceAction

def FenceRequest.expectedVersion (q : FenceRequest) : Option Nat := q.seen.map (·.version)

structure FencePromise where
  client : Nat
  untilMs : Rat
deriving DecidableEq

structure FenceState where
  file : Option FenceFile
  nextVersion : Nat
  serverNowMs : Rat
  clients : Nat → FenceClient
  /-- The requests that were sent and have not landed. -/
  requests : Nat → Option FenceRequest
  nextRequest : Nat
  /-- Whether a request that has landed was accepted. -/
  outcomes : Nat → Option Bool
  promises : List FencePromise
  releaseAsked : Nat → Bool

def FenceState.init (file : Option FenceBytes) (serverNowMs : Rat) (options : Nat → AcquireFenceOptions) :
    FenceState :=
  { file := file.map fun bytes => ⟨bytes, 0⟩
    nextVersion := 1
    serverNowMs
    clients := fun c => FenceClient.init (options c)
    requests := fun _ => none
    nextRequest := 0
    outcomes := fun _ => none
    promises := []
    releaseAsked := fun _ => false }

inductive FenceEvent where
  | advance (ms : Rat)
  | start (c : Nat)
  | read (c : Nat) (readAgeMs : Rat)
  | land (request : Nat)
  | answered (c : Nat)
  | fails (c : Nat)
  | assertHeld (c : Nat) (minRemainingMs : Rat)
  | renew (c : Nat) (heartbeat : Bool)
  | release (c : Nat)

namespace FenceState

def setClient (s : FenceState) (c : Nat) (client : FenceClient) : FenceState :=
  { s with clients := Function.update s.clients c client }

def setPhase (s : FenceState) (c : Nat) (phase : FencePhase) : FenceState :=
  s.setClient c { s.clients c with phase }

/-- The running operation throws: an acquisition is over, a lease stays as it is. -/
def fail (s : FenceState) (c : Nat) : FenceState :=
  let client := s.clients c
  match client.phase with
  | .notStarted | .failed | .held => s
  | .reading _ | .writing _ _ _ | .verifying _ => s.setPhase c .failed
  | _ => s.setClient c { client with
      phase := .held, lostError := client.lostError || client.background, background := false }

/-- The operation is over and the lease is held. -/
def finish (s : FenceState) (c : Nat) : FenceState :=
  s.setClient c { s.clients c with phase := .held, background := false }

def send (s : FenceState) (c : Nat) (action : FenceAction) (phase : Nat → FencePhase) : FenceState :=
  { s.setPhase c (phase s.nextRequest) with
    requests := Function.update s.requests s.nextRequest (some ⟨c, s.file, action⟩)
    nextRequest := s.nextRequest + 1 }

/-- `assertHeld` returned after a read at this time. -/
def promise (s : FenceState) (c : Nat) (horizon : Rat) : FenceState :=
  { s with promises := ⟨c, s.serverNowMs + horizon⟩ :: s.promises }

/-- The server takes a request: it applies if its generation is still the current one. -/
def land (s : FenceState) (id : Nat) : Option FenceState :=
  match s.requests id with
  | none => none
  | some q =>
    let s := { s with requests := Function.update s.requests id none }
    if s.file.map (·.version) = q.expectedVersion then
      let s := { s with outcomes := Function.update s.outcomes id (some true) }
      match q.action with
      | .acquire record | .renew record =>
        some { s with file := some ⟨.text record, s.nextVersion⟩, nextVersion := s.nextVersion + 1 }
      | .remove => some { s with file := none }
    else some { s with outcomes := Function.update s.outcomes id (some false) }

def start (s : FenceState) (c : Nat) : Option FenceState :=
  let client := s.clients c
  if client.phase = .notStarted then
    some (s.setPhase c (if client.options.valid then .reading 0 else .failed))
  else none

/-- The answer of the client's request. -/
def answered (s : FenceState) (c : Nat) : Option FenceState :=
  let client := s.clients c
  match client.phase with
  | .writing attempt record request =>
    match s.outcomes request with
    | none => none
    | some true => some (s.setPhase c (.verifying record))
    | some false =>
      some (s.setPhase c (if attempt + 1 < client.options.attempts then .reading (attempt + 1) else .failed))
  | .renewWriting horizon record request =>
    match s.outcomes request with
    | none => none
    | some true => some (s.setPhase c (.renewVerifying horizon record))
    | some false => some (s.fail c)
  | .removing request =>
    match s.outcomes request with
    | none => none
    | some true => some (s.setClient c { client with phase := .held, closed := true })
    | some false => some (s.fail c)
  | _ => none

/-- An operation is queued on a lease that is neither closed nor lost. -/
def operable (s : FenceState) (c : Nat) : Bool :=
  (s.clients c).phase == .held && !(s.clients c).closed && !(s.clients c).lostError

def assertHeld (s : FenceState) (c : Nat) (minRemainingMs : Rat) : Option FenceState :=
  if s.operable c ∧ 0 ≤ minRemainingMs ∧ minRemainingMs < (s.clients c).options.ttl then
    some (s.setPhase c (.checking minRemainingMs))
  else none

def renew (s : FenceState) (c : Nat) (heartbeat : Bool) : Option FenceState :=
  if s.operable c then
    some (s.setClient c { s.clients c with phase := .renewReading none, background := heartbeat })
  else none

def release (s : FenceState) (c : Nat) : Option FenceState :=
  if (s.clients c).phase = .held ∧ !(s.clients c).closed then
    some { s.setPhase c .releaseReading with releaseAsked := Function.update s.releaseAsked c true }
  else none

section
variable [Runtime]

/-- The bytes of `JSON.stringify(record)`. -/
def recordBytes (record : FenceRecord) : Nat :=
  let optional (key : String) (value : Option Rat) : List (String × Json) :=
    (value.map fun n => (key, Json.num n)).toList
  (stringify (.obj ([("schema", .num 1), ("leaseId", .str record.leaseId),
    ("ownerId", .str record.ownerId), ("purpose", .str record.purpose.text),
    ("expiresAt", .num record.expiresAt)] ++ optional "heartbeatMs" record.heartbeatMs ++
    optional "renewedAt" record.renewedAt))).utf8ByteSize

/-- A record that is too long or lacks its ids is malformed; a negative heartbeat is dropped. -/
def parseRecord (bytes : FenceBytes) : Option FenceRecord :=
  match bytes with
  | .other => none
  | .text record =>
    if recordBytes record ≤ maxRecordBytes ∧ 8 ≤ (utf16 record.leaseId).length ∧ record.ownerId ≠ "" then
      some { record with heartbeatMs := record.heartbeatMs.filter (0 ≤ ·) }
    else none

/-- An acquisition may write over what it has read. -/
def mayAcquire (file : Option FenceFile) (serverNowMs : Rat) : Bool :=
  match file with
  | none => true
  | some file =>
    (parseRecord file.bytes).any fun current =>
      decide (current.expiresAt ≤ serverNowMs) || isImpossibleFutureExpiry current.expiresAt serverNowMs ||
        isAbandonedRecord current serverNowMs

/-- The record of the client itself, which has not expired. -/
def ownedRecord (s : FenceState) (options : AcquireFenceOptions) (readAgeMs : Rat) : Option FenceRecord :=
  ((s.file.bind fun file => parseRecord file.bytes).filter options.owns).filter fun record =>
    decide (0 < record.expiresAt - s.serverNowMs - readAgeMs)

/-- The verifying read finds the record that was written, and it is live. -/
def verifiedRecord (s : FenceState) (options : AcquireFenceOptions) (written : FenceRecord)
    (readAgeMs : Rat) : Option FenceRecord :=
  (s.ownedRecord options readAgeMs).filter fun record =>
    decide (record.expiresAt = written.expiresAt) && !isImpossibleFutureExpiry record.expiresAt s.serverNowMs

/-- The check of `assertHeld`, which renews when the lease does not cover the horizon. -/
def check (s : FenceState) (c : Nat) (horizon : Rat) (readAgeMs : Rat) : FenceState :=
  let client := s.clients c
  match s.ownedRecord client.options readAgeMs with
  | none => s.fail c
  | some record =>
    if getSafeAuthorityRemainingMs record s.serverNowMs - readAgeMs ≤ horizon then
      s.setClient c { client with
        phase := .renewReading (some horizon)
        advertisedHeartbeatMs :=
          if client.advertisedHeartbeatMs > 0 then
            max client.advertisedHeartbeatMs (horizon / abandonedAfterMissedHeartbeats).ceil
          else client.advertisedHeartbeatMs }
    else (s.promise c horizon).finish c

/-- The verification of a renewal, with the horizon of the `assertHeld` that renewed. -/
def renewVerified (s : FenceState) (c : Nat) (horizon : Option Rat) (written : FenceRecord)
    (readAgeMs : Rat) : FenceState :=
  match s.verifiedRecord (s.clients c).options written readAgeMs with
  | none => s.fail c
  | some record =>
    match horizon with
    | none => s.finish c
    | some horizon =>
      if getSafeAuthorityRemainingMs record s.serverNowMs - readAgeMs ≤ horizon then s.fail c
      else (s.promise c horizon).finish c

/-- The next read of the running operation, up to its next wait. -/
def read (s : FenceState) (c : Nat) (readAgeMs : Rat) : Option FenceState :=
  let client := s.clients c
  match client.phase with
  | .reading attempt =>
    let record := client.options.record client.options.heartbeat s.serverNowMs
    if mayAcquire s.file s.serverNowMs then
      some (s.send c (.acquire record) fun request => .writing attempt record request)
    else some (s.fail c)
  | .verifying record =>
    -- the age of this read does not count
    match s.verifiedRecord client.options record 0 with
    | none => some (s.fail c)
    | some _ => some (s.finish c)
  | .checking horizon => some (s.check c horizon readAgeMs)
  | .renewReading horizon =>
    match s.ownedRecord client.options readAgeMs with
    | none => some (s.fail c)
    | some _ =>
      let record := client.options.record client.advertisedHeartbeatMs s.serverNowMs
      some (s.send c (.renew record) fun request => .renewWriting horizon record request)
  | .renewVerifying horizon record => some (s.renewVerified c horizon record readAgeMs)
  | .releaseReading =>
    match s.file with
    | none => some (s.setClient c { client with phase := .held, closed := true })
    | some file =>
      if (parseRecord file.bytes).any client.options.owns then
        some (s.send c .remove fun request => .removing request)
      else some (s.fail c)
  | _ => none

end

end FenceState

open FenceState in
def fenceStep [Runtime] (s : FenceState) : FenceEvent → Option FenceState
  | .advance ms => if 0 ≤ ms then some { s with serverNowMs := s.serverNowMs + ms } else none
  | .start c => s.start c
  | .read c readAgeMs => if 0 ≤ readAgeMs then s.read c readAgeMs else none
  | .land id => s.land id
  | .answered c => s.answered c
  | .fails c => some (s.fail c)
  | .assertHeld c minRemainingMs => s.assertHeld c minRemainingMs
  | .renew c heartbeat => s.renew c heartbeat
  | .release c => s.release c

/-- The verifying read of `c`, with which its acquisition returns. -/
def FenceState.acquires [Runtime] (s : FenceState) (c : Nat) : Bool :=
  match (s.clients c).phase with
  | .verifying record => (s.verifiedRecord (s.clients c).options record 0).isSome
  | _ => false

end Mindwtr.Sync
