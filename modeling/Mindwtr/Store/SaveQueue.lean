import Mindwtr.Lib.System
import Mindwtr.Sync.Revision

/-!
# The save queue

`store.ts`: edits reach storage as snapshots of the whole store, queued and coalesced by
`enqueuePendingSave` and `flushPendingSave`, or as single rows dispatched at once by
`trackImmediateSave`. Every `await` is a point where other callers run, so the model is a transition
system whose events are the jobs of the event loop: edits, flush calls, the dispatch of a snapshot,
the completion of the storage operation at the head of the adapter's queue, the handlers of a settled
promise and the continuation of each waiting flush. Timers, error texts and callbacks are left out: a
flush may be called at any time.

`calledWith`, `docAt`, `written`, `enqueued`, `lost` and `lastTarget` are history that no step reads.
-/

namespace Mindwtr.Store

open Mindwtr.Sync

def maxPendingSaves : Nat := 100
def maxSaveRetryAttempts : Nat := 5

/-- A stored row: its revision and the ordinal of the edit it is the result of. -/
structure RowVersion where
  rev : Nat
  edit : Nat
deriving DecidableEq, Repr

/-- The rows of a document, by id. -/
abbrev Doc := String → RowVersion

structure PendingSave where
  version : Nat
  data : Doc
  attempts : Nat

/-- The promise chain of a dispatched write. -/
inductive WritePhase where
  /-- `storage.saveData` is not called yet. -/
  | scheduled
  /-- In the adapter's queue. -/
  | dispatched
  /-- Settled; its handlers have not run. -/
  | fulfilled
  | rejected
  /-- `savedVersion` is set; the `finally` handler has not run. -/
  | acknowledged
deriving DecidableEq, Repr

structure SnapshotWrite where
  ordinal : Nat
  version : Nat
  data : Doc
  attempts : Nat
  phase : WritePhase

inductive ImmediatePhase where
  | dispatched
  | fulfilled
  | rejected
  /-- The retry snapshot is handled; the save is still in the set of running ones. -/
  | caught
  | doneFulfilled
  | doneRejected
deriving DecidableEq, Repr

structure ImmediateSave where
  version : Nat
  row : String
  retrySnapshot : Doc
  phase : ImmediatePhase

def ImmediateSave.inFlight (i : ImmediateSave) : Bool :=
  match i.phase with
  | .doneFulfilled | .doneRejected => false
  | _ => true

inductive StorageOp where
  | snapshot (data : Doc)
  | task (version : Nat) (row : String) (value : RowVersion)

inductive FlushPc where
  | awaitImmediate (versions : List Nat)
  | awaitInFlight (ordinal : Nat)
  /-- Waits for the write it dispatched. -/
  | awaitSave
  /-- After its write settled. -/
  | afterSave (version attempts : Nat) (saveSucceeded : Bool)
  | sleeping
  /-- Returned normally, with or without a persistence failure recorded at that time. -/
  | returned (failureRecorded : Bool)
  | thrown
deriving DecidableEq, Repr

structure FlushCaller where
  pc : FlushPc
  /-- The document at the time of the call. -/
  calledWith : Doc

structure State where
  doc : Doc
  edits : Nat
  pendingSaves : List PendingSave
  pendingVersion : Nat
  savedVersion : Nat
  saveInFlight : Option SnapshotWrite
  writes : Nat
  immediateSaves : List ImmediateSave
  callers : List FlushCaller
  storageQueue : List StorageOp
  storage : Doc
  persistenceFailure : Bool
  docAt : Nat → Doc
  written : List Nat
  enqueued : List Nat
  lost : Nat
  lastTarget : Nat

/-- A store that has loaded the stored rows, given by their revisions. -/
def State.init (revisions : String → Nat) : State :=
  let doc : Doc := fun r => ⟨revisions r, 0⟩
  { doc, edits := 0, pendingSaves := [], pendingVersion := 0, savedVersion := 0, saveInFlight := none,
    writes := 0, immediateSaves := [], callers := [], storageQueue := [], storage := doc,
    persistenceFailure := false, docAt := fun _ => doc, written := [], enqueued := [], lost := 0,
    lastTarget := 0 }

namespace State

def immediatesInFlight (s : State) : List ImmediateSave := s.immediateSaves.filter (·.inFlight)

def hasPendingSaveWork (s : State) : Bool :=
  !s.pendingSaves.isEmpty || s.saveInFlight.isSome || !s.immediatesInFlight.isEmpty

/-! ### Queueing -/

/-- Drops the oldest entries beyond the cap and records that it did. -/
def enforcePendingSaveCap (s : State) : State :=
  if s.pendingSaves.length ≤ maxPendingSaves then s
  else
    { s with
      pendingSaves := s.pendingSaves.drop (s.pendingSaves.length - maxPendingSaves)
      persistenceFailure := true }

def enqueuePendingSave (s : State) (data : Doc) (version : Nat) : State :=
  enforcePendingSaveCap { s with
    pendingSaves := s.pendingSaves ++ [⟨version, data, 0⟩]
    enqueued := version :: s.enqueued }

/-- The next version, with the document it is drawn for. -/
def drawVersion (s : State) : State :=
  { s with
    pendingVersion := s.pendingVersion + 1
    docAt := fun v => if v = s.pendingVersion + 1 then s.doc else s.docAt v }

def debouncedSave (s : State) : State :=
  let s := s.drawVersion
  s.enqueuePendingSave s.doc s.pendingVersion

/-- Each edited row gets the next revision. -/
def applyEdit (s : State) (rows : List String) : State :=
  { s with
    edits := s.edits + 1
    doc := fun r => if r ∈ rows then ⟨bumpRevision (s.doc r).rev, s.edits + 1⟩ else s.doc r }

/-- A single-row write of the version just drawn, with the snapshot to fall back on. -/
def trackImmediateSave (s : State) (row : String) : State :=
  { s with
    storageQueue := s.storageQueue ++ [.task s.pendingVersion row (s.doc row)]
    immediateSaves := s.immediateSaves ++ [⟨s.pendingVersion, row, s.doc, .dispatched⟩] }

/-- `updateTask`: a single-row write where the adapter can and no snapshot is queued. -/
def persistTask (s : State) (row : String) (incremental : Bool) : State :=
  if incremental && s.pendingSaves.isEmpty then s.drawVersion.trackImmediateSave row
  else s.debouncedSave

/-! ### Flushing -/

def setPc (s : State) (i : Nat) (pc : FlushPc) : State :=
  { s with callers := s.callers.modify i fun c => { c with pc } }

def maxAttempts (queue : List PendingSave) : Nat := queue.foldl (fun m p => max m p.attempts) 0

/-- Takes the whole queue and puts its latest entry in flight. -/
def beginWrite (s : State) (latestSave : PendingSave) : State :=
  { s with
    pendingSaves := []
    writes := s.writes + 1
    lastTarget := latestSave.version
    saveInFlight := some
      { ordinal := s.writes
        version := latestSave.version
        data := latestSave.data
        attempts := maxAttempts s.pendingSaves
        phase := .scheduled } }

/-- The body of the flush loop up to the next `await`. -/
def flushLoop (s : State) (i : Nat) : State :=
  if s.immediatesInFlight ≠ [] then
    s.setPc i (.awaitImmediate (s.immediatesInFlight.map (·.version)))
  else
    match s.saveInFlight, s.pendingSaves.getLast? with
    | some w, _ => s.setPc i (.awaitInFlight w.ordinal)
    | none, none => s.setPc i (.returned s.persistenceFailure)
    | none, some latestSave =>
      -- nothing newer than what is saved: the next turn finds an empty queue
      if latestSave.version ≤ s.savedVersion then
        setPc { s with pendingSaves := [] } i (.returned s.persistenceFailure)
      else (s.beginWrite latestSave).setPc i .awaitSave

def callFlush (s : State) : State :=
  flushLoop { s with callers := s.callers ++ [⟨.sleeping, s.doc⟩] } s.callers.length

def reportFailure (s : State) (version : Nat) : State :=
  { s with persistenceFailure := true, lost := max s.lost version }

/-- The continuation of a caller; `none` while what it waits for is not settled. -/
def resume (s : State) (i : Nat) : Option State :=
  match s.callers[i]?.map FlushCaller.pc with
  | some (.awaitImmediate versions) =>
    let settledAs (phase : ImmediatePhase) (v : Nat) : Bool :=
      s.immediateSaves.any fun save => save.version == v && save.phase == phase
    -- `Promise.all` rejects with the first rejection and fulfils with the last fulfilment
    if versions.any (settledAs .doneRejected) then some (s.setPc i .thrown)
    else if versions.all (settledAs .doneFulfilled) then some (s.flushLoop i)
    else none
  | some (.awaitInFlight ordinal) =>
    if s.saveInFlight.any (·.ordinal == ordinal) then none else some (s.flushLoop i)
  | some (.afterSave _ _ true) => some (s.flushLoop i)
  | some (.afterSave version _ false) =>
    if s.pendingSaves.any (fun p => version < p.version) then some (s.flushLoop i)
    else if s.pendingSaves.any (fun p => p.version == version) then some (s.setPc i .sleeping)
    else some ((s.reportFailure version).setPc i .thrown)
  | some .sleeping => some (s.flushLoop i)
  | _ => none

/-! ### The promise chain of a snapshot write -/

def dispatchSnapshot (s : State) : Option State :=
  match s.saveInFlight with
  | some w =>
    if w.phase = .scheduled then
      some { s with
        storageQueue := s.storageQueue ++ [.snapshot w.data]
        saveInFlight := some { w with phase := .dispatched } }
    else none
  | none => none

/-- The `then` handler of a write that succeeded. -/
def acknowledgeSave (s : State) : Option State :=
  match s.saveInFlight with
  | some w =>
    if w.phase = .fulfilled then
      some { s with
        savedVersion := w.version
        persistenceFailure := false
        saveInFlight := some { w with phase := .acknowledged } }
    else none
  | none => none

/-- Nothing is in flight any more, and the dispatching caller learns how its write ended. -/
def settle (s : State) (w : SnapshotWrite) (saveSucceeded : Bool) : State :=
  { s with
    saveInFlight := none
    callers := s.callers.map fun c =>
      if c.pc = .awaitSave then { c with pc := .afterSave w.version w.attempts saveSucceeded } else c }

def requeue (s : State) (w : SnapshotWrite) : State :=
  enforcePendingSaveCap { s with
    pendingSaves := ⟨w.version, w.data, w.attempts + 1⟩ :: s.pendingSaves }

/-- The `finally` handler: a failed snapshot is queued again unless a newer one is queued or its
attempts are used up. -/
def finallySave (s : State) : Option State :=
  match s.saveInFlight with
  | some w =>
    if w.phase = .acknowledged then some (s.settle w true)
    else if w.phase = .rejected then
      if s.pendingSaves.any (fun p => w.version < p.version) then some (s.settle w false)
      else if w.attempts + 1 < maxSaveRetryAttempts then some ((s.settle w false).requeue w)
      else some (s.settle w false)
    else none
  | none => none

/-! ### The storage adapter -/

/-- The guard of the row upsert. -/
def upsertRow (stored row : RowVersion) : RowVersion := if stored.rev ≤ row.rev then row else stored

def setImmediatePhase (s : State) (version : Nat) (phase : ImmediatePhase) : State :=
  { s with
    immediateSaves := s.immediateSaves.map fun i =>
      if i.version = version then { i with phase } else i }

def writeRow (s : State) (row : String) (value : RowVersion) : State :=
  { s with storage := fun r => if r = row then upsertRow (s.storage r) value else s.storage r }

def writeSnapshot (s : State) (w : SnapshotWrite) (data : Doc) : State :=
  { s with
    storage := fun r => upsertRow (s.storage r) (data r)
    written := w.version :: s.written
    saveInFlight := some { w with phase := .fulfilled } }

/-- The operation at the head of the queue commits or rolls back. -/
def completeStorageOp (s : State) (ok : Bool) : Option State :=
  match s.storageQueue with
  | [] => none
  | .task version row value :: rest =>
    let s := { s with storageQueue := rest }
    if ok then some ((s.writeRow row value).setImmediatePhase version .fulfilled)
    else some (s.setImmediatePhase version .rejected)
  | .snapshot data :: rest =>
    let s := { s with storageQueue := rest }
    match s.saveInFlight with
    | none => none
    | some w =>
      if ok then some (s.writeSnapshot w data)
      else some { s with saveInFlight := some { w with phase := .rejected } }

/-! ### The promise chain of a single-row write -/

/-- The `catch` handler: the snapshot taken at dispatch is queued unless a newer one is, and the
failure is recorded. -/
def catchImmediate (s : State) (version : Nat) : Option State :=
  match s.immediateSaves.find? (fun i => i.version == version && i.phase == .rejected) with
  | none => none
  | some i =>
    let caught := { s.setImmediatePhase version .caught with persistenceFailure := true }
    if s.pendingSaves.any (fun p => version < p.version) then some caught
    else some (caught.enqueuePendingSave i.retrySnapshot version)

def finallyImmediate (s : State) (version : Nat) : Option State :=
  match s.immediateSaves.find? (fun i => i.version == version) with
  | some i =>
    match i.phase with
    | .fulfilled => some (s.setImmediatePhase version .doneFulfilled)
    | .caught => some (s.setImmediatePhase version .doneRejected)
    | _ => none
  | none => none

end State

/-! ### The transition system -/

inductive Event where
  /-- An action that changes these rows and saves a snapshot. -/
  | edit (rows : List String)
  /-- `updateTask`, with whether its other conditions allow a single-row write. -/
  | editTask (row : String) (incremental : Bool)
  | flushPendingSave
  | resume (caller : Nat)
  | dispatchSnapshot
  | completeStorageOp (ok : Bool)
  | acknowledgeSave
  | finallySave
  | catchImmediate (version : Nat)
  | finallyImmediate (version : Nat)
deriving DecidableEq, Repr

def step (s : State) : Event → Option State
  | .edit rows => some (s.applyEdit rows).debouncedSave
  | .editTask row incremental => some ((s.applyEdit [row]).persistTask row incremental)
  | .flushPendingSave => some s.callFlush
  | .resume i => s.resume i
  | .dispatchSnapshot => s.dispatchSnapshot
  | .completeStorageOp ok => s.completeStorageOp ok
  | .acknowledgeSave => s.acknowledgeSave
  | .finallySave => s.finallySave
  | .catchImmediate version => s.catchImmediate version
  | .finallyImmediate version => s.finallyImmediate version

end Mindwtr.Store
