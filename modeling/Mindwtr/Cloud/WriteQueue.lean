import Mindwtr.Lib.Stamped
import Mindwtr.Lib.System

/-!
# The writes of one namespace

`createWriteLockRunner` and `withCloudFileLock` of `server-storage.ts` with `loadAppDataForWrite` and `writeCloudData`
of `server-data-cache.ts`, for the data file of one namespace. Any number of server processes serve it. In each, the
runs of `withWriteLock` form a queue; the oldest polls for the lock all processes share and then runs its handler,
which may load and write the document. Requests that only read load it without the queue.

A load or a write is several steps, since other processes go on between two calls to the file system; within one
process nothing else runs until it returns (`SyncCall`). A handler is what it writes for the document it loaded.
A cache entry may be dropped at any time, as it is when other files fill the cache or it cannot be cloned.
-/

namespace Mindwtr.Cloud

open Mindwtr.Lib

/-- What requests do to the document of a namespace; documents are taken as JSON, and the clock a handler reads is part
of its request. -/
structure Handlers (Request Doc : Type) where
  /-- What the handler writes for the document it loaded; `none` where it only reads. -/
  apply : Request → Doc → Option Doc
  createDefaultData : Doc
  /-- `normalizeLoadedAreas(toAppDataShape(JSON.parse(raw)))`, which dates areas without a date at the time given. -/
  readBack : Nat → Doc → Doc
  /-- A handler writes a document that is read back as it is. -/
  readBack_apply : ∀ request doc written, apply request doc = some written → ∀ now, readBack now written = written

/-- Where the oldest run of a queue stands. -/
inductive RunPhase (Doc : Type) where
  /-- It is not its turn yet, or its turn has not begun. -/
  | queued
  /-- `withCloudFileLock` tries to take the lock. -/
  | polling
  /-- Its handler runs, with what it has loaded since it last wrote. -/
  | handling (loaded : Option Doc)
deriving DecidableEq, Repr

def RunPhase.isHandling {Doc : Type} : RunPhase Doc → Bool
  | .handling _ => true
  | _ => false

/-- A call that has not returned; `locked` where a handler made it. -/
inductive SyncCall (Doc : Type) where
  /-- A load that the cache did not answer. -/
  | reading (locked : Bool)
  /-- A load that has read the file and is about to ask for its identity. -/
  | remembering (locked : Bool) (doc : Doc)
  /-- A write that has put the file in place and is about to ask for its identity. -/
  | written (doc : Doc)
deriving DecidableEq, Repr

structure ServerProcess (Request Doc Identity : Type) where
  /-- The runs that have not settled, the oldest first. -/
  queue : List Request := []
  phase : RunPhase Doc := .queued
  call : Option (SyncCall Doc) := none
  /-- The entry of `parsedDataCache`. -/
  parsed : Option (Identity × Doc) := none

structure CloudStore (Process Request Doc Identity : Type) where
  file : Stamped Identity Doc
  /-- The process that has the lock. -/
  lock : Option Process := none
  process : Process → ServerProcess Request Doc Identity := fun _ => {}
  /-- The requests whose signal was aborted. -/
  aborted : List Request := []
  /-- The calls of `withWriteLock` and the handlers that began, in order. -/
  requested : List (Process × Request) := []
  started : List (Process × Request) := []
  /-- The requests whose handlers published a document, in order. -/
  published : List Request := []

inductive CloudEvent (Process Request Identity : Type) where
  | request (p : Process) (r : Request)
  | abort (r : Request)
  | beginRun (p : Process)
  | takeLock (p : Process)
  /-- Aborted, timed out or failed without the lock. -/
  | giveUp (p : Process)
  | load (p : Process) (locked : Bool)
  | readFile (p : Process) (now : Nat)
  | readFails (p : Process)
  | remember (p : Process)
  /-- A handler reads the file itself, as `loadExistingDataForMerge` does. -/
  | readDirect (p : Process) (now : Nat)
  | publish (p : Process) (identity : Identity)
  | rememberWrite (p : Process)
  /-- `writeData` throws, before or after the file is in place. -/
  | writeFails (p : Process)
  /-- The handler has returned or thrown. -/
  | settle (p : Process)
  | forget (p : Process)

section
variable {Process Request Doc Identity : Type}

/-- `loadAppDataForWriteUncached`. -/
def storedData (handlers : Handlers Request Doc) (now : Nat) (file : Stamped Identity Doc) : Doc :=
  match file.current with
  | none => handlers.createDefaultData
  | some (_, doc) => handlers.readBack now doc

/-- A handler that made the call has its result. -/
def ServerProcess.loaded (proc : ServerProcess Request Doc Identity) (locked : Bool) (doc : Doc) :
    ServerProcess Request Doc Identity :=
  if locked && proc.phase.isHandling then { proc with phase := .handling (some doc) } else proc

variable [DecidableEq Process] [DecidableEq Request] [DecidableEq Identity]

def CloudStore.setProcess (s : CloudStore Process Request Doc Identity) (p : Process)
    (proc : ServerProcess Request Doc Identity) : CloudStore Process Request Doc Identity :=
  { s with process := Function.update s.process p proc }

/-- One step of the server; `none` where it cannot happen. -/
def cloudStep (handlers : Handlers Request Doc) (s : CloudStore Process Request Doc Identity) :
    CloudEvent Process Request Identity → Option (CloudStore Process Request Doc Identity)
  | .request p r =>
    let proc := s.process p
    if r ∈ s.requested.map Prod.snd then none
    else some { s.setProcess p { proc with queue := proc.queue ++ [r] } with requested := s.requested ++ [(p, r)] }
  | .abort r => some { s with aborted := r :: s.aborted }
  | .beginRun p =>
    let proc := s.process p
    match proc.queue, proc.phase, proc.call with
    | r :: rest, .queued, none =>
      if r ∈ s.aborted then some (s.setProcess p { proc with queue := rest })
      else some (s.setProcess p { proc with phase := .polling })
    | _, _, _ => none
  | .takeLock p =>
    let proc := s.process p
    match proc.queue, proc.phase, proc.call, s.lock with
    | r :: _, .polling, none, none =>
      if r ∈ s.aborted then none
      else some { s.setProcess p { proc with phase := .handling none } with
        lock := some p
        started := s.started ++ [(p, r)] }
    | _, _, _, _ => none
  | .giveUp p =>
    let proc := s.process p
    match proc.queue, proc.phase, proc.call with
    | _ :: rest, .polling, none => some (s.setProcess p { proc with queue := rest, phase := .queued })
    | _, _, _ => none
  | .load p locked =>
    let proc := s.process p
    if proc.call.isSome || (locked && !proc.phase.isHandling) then none
    else
      match s.file.lookup proc.parsed with
      | some doc => some (s.setProcess p (proc.loaded locked doc))
      | none => some (s.setProcess p { proc with call := some (.reading locked) })
  | .readFile p now =>
    let proc := s.process p
    match proc.call with
    | some (.reading locked) =>
      some (s.setProcess p { proc with call := some (.remembering locked (storedData handlers now s.file)) })
    | _ => none
  | .readFails p =>
    let proc := s.process p
    match proc.call with
    | some (.reading _) => some (s.setProcess p { proc with call := none })
    | _ => none
  | .remember p =>
    let proc := s.process p
    match proc.call with
    | some (.remembering locked doc) =>
      some (s.setProcess p { proc.loaded locked doc with call := none, parsed := s.file.keep doc })
    | _ => none
  | .readDirect p now =>
    let proc := s.process p
    match proc.phase, proc.call with
    | .handling _, none =>
      some (s.setProcess p { proc with phase := .handling (some (storedData handlers now s.file)) })
    | _, _ => none
  | .publish p identity =>
    let proc := s.process p
    match proc.queue, proc.phase, proc.call with
    | r :: _, .handling (some doc), none =>
      match handlers.apply r doc with
      | some written =>
        if identity ∈ s.file.used then none
        else some { s.setProcess p { proc with phase := .handling none, call := some (.written written) } with
          file := s.file.put identity written
          published := s.published ++ [r] }
      | none => none
    | _, _, _ => none
  | .rememberWrite p =>
    let proc := s.process p
    match proc.call with
    | some (.written doc) => some (s.setProcess p { proc with call := none, parsed := s.file.keep doc })
    | _ => none
  | .writeFails p =>
    let proc := s.process p
    match proc.phase, proc.call with
    | .handling _, none => some (s.setProcess p { proc with parsed := none })
    | .handling _, some (.written _) => some (s.setProcess p { proc with call := none, parsed := none })
    | _, _ => none
  | .settle p =>
    let proc := s.process p
    match proc.queue, proc.phase, proc.call with
    | _ :: rest, .handling _, none =>
      some { s.setProcess p { proc with queue := rest, phase := .queued } with lock := none }
    | _, _, _ => none
  | .forget p => some (s.setProcess p { s.process p with parsed := none })

end

end Mindwtr.Cloud
