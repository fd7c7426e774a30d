import Mathlib

/-!
# The sync orchestrator

`createSyncOrchestrator` of `sync-orchestrator.ts`: at most one cycle is in flight, and a request that
arrives meanwhile is kept in one queued argument. A cycle is known by its place in `cycles`. Its promise
settles at one step; the callback of `finally` runs at a later one, and other calls may come between the
two. An argument that is `none` is `undefined`; a delay is a finite number of milliseconds.

The callbacks of the host only observe: they do not call the orchestrator before they return.
`requests` is history that no step reads.
-/

namespace Mindwtr.Sync

structure Cycle (Arg Result Error : Type) where
  arg : Option Arg
  outcome : Option (Except Error Result)
deriving DecidableEq

structure OrchestratorRequest where
  /-- How many cycles had started. -/
  seen : Nat
  /-- The cycle in flight. -/
  during : Option Nat
  /-- The cycle whose promise `run` returned. -/
  returned : Option Nat
deriving DecidableEq

structure Orchestrator (Arg Result Error : Type) where
  inFlight : Option Nat
  queued : Bool
  queuedArg : Option Arg
  /-- The armed timer, with the `cycleArg` its callback was closed over. -/
  followUpTimer : Option (Option Arg)
  minimumFollowUpDelayMs : Rat
  cycles : List (Cycle Arg Result Error)
  requests : List OrchestratorRequest
deriving DecidableEq

namespace Orchestrator

variable {Arg Result Error : Type}

def init : Orchestrator Arg Result Error := ⟨none, false, none, none, 0, [], []⟩

variable (s : Orchestrator Arg Result Error)

def requestFollowUp (nextArg : Option Arg) : Orchestrator Arg Result Error :=
  { s with queuedArg := nextArg.or s.queuedArg, queued := true }

def requestFollowUpAfter (delayMs : Rat) (nextArg : Option Arg) : Orchestrator Arg Result Error :=
  { s with
    queuedArg := nextArg.or s.queuedArg
    minimumFollowUpDelayMs := max s.minimumFollowUpDelayMs (max 0 delayMs.ceil)
    queued := true }

def clearFollowUp : Orchestrator Arg Result Error :=
  { s with followUpTimer := none, queuedArg := none, minimumFollowUpDelayMs := 0, queued := false }

/-- A call of `run` with no cycle in flight, up to the call of `runCycle`. -/
def startCycle (arg : Option Arg) : Orchestrator Arg Result Error :=
  { s with
    followUpTimer := none
    queued := false
    queuedArg := none
    inFlight := some s.cycles.length
    cycles := s.cycles ++ [⟨arg, none⟩] }

/-- It returns the promise of the cycle that is in flight afterwards. -/
def run (arg : Option Arg) : Orchestrator Arg Result Error :=
  if s.inFlight.isSome then s.requestFollowUp arg else s.startCycle arg

def startQueuedRun (cycleArg : Option Arg) : Orchestrator Arg Result Error :=
  let s := { s with followUpTimer := none }
  if s.inFlight.isSome ∨ s.queued = false then s
  else run { s with queued := false, queuedArg := none } (s.queuedArg.or cycleArg)

/-- The callback of `finally`; `hostDelayMs` is the answer of `getFollowUpDelayMs`, `0` without one. -/
def cycleFinally (cycleArg : Option Arg) (hostDelayMs : Rat) : Orchestrator Arg Result Error :=
  let s := { s with inFlight := none }
  if s.queued then
    let delayMs := max hostDelayMs s.minimumFollowUpDelayMs
    let s := { s with minimumFollowUpDelayMs := 0 }
    if delayMs > 0 then { s with followUpTimer := some cycleArg } else s.startQueuedRun cycleArg
  else s

/-- `runCycle` settles, or throws before it returns a promise. -/
def settle (c : Nat) (outcome : Except Error Result) : Orchestrator Arg Result Error :=
  { s with cycles := s.cycles.modify c fun cycle => { cycle with outcome := some outcome } }

/-- A call from outside, kept for the record. -/
def noteRequest (t : Orchestrator Arg Result Error) (returned : Option Nat) :
    Orchestrator Arg Result Error :=
  { t with requests := ⟨s.cycles.length, s.inFlight, returned⟩ :: t.requests }

end Orchestrator

inductive OrchestratorEvent (Arg Result Error : Type) where
  | run (arg : Option Arg)
  | requestFollowUp (nextArg : Option Arg)
  | requestFollowUpAfter (delayMs : Rat) (nextArg : Option Arg)
  /-- `requestFollowUp` of the controls given to a cycle. -/
  | cycleRequestsFollowUp (c : Nat) (nextArg : Option Arg)
  | cycleRequestsFollowUpAfter (c : Nat) (delayMs : Rat) (nextArg : Option Arg)
  | settle (c : Nat) (outcome : Except Error Result)
  | cycleFinally (hostDelayMs : Rat)
  | followUpTimer

def orchestratorStep {Arg Result Error : Type} (s : Orchestrator Arg Result Error) :
    OrchestratorEvent Arg Result Error → Option (Orchestrator Arg Result Error)
  | .run arg => some (s.noteRequest (s.run arg) (s.run arg).inFlight)
  | .requestFollowUp nextArg => some (s.noteRequest (s.requestFollowUp nextArg) none)
  | .requestFollowUpAfter delayMs nextArg => some (s.noteRequest (s.requestFollowUpAfter delayMs nextArg) none)
  | .cycleRequestsFollowUp c nextArg =>
    s.cycles[c]?.map fun cycle => s.noteRequest (s.requestFollowUp (nextArg.or cycle.arg)) none
  | .cycleRequestsFollowUpAfter c delayMs nextArg =>
    s.cycles[c]?.map fun cycle => s.noteRequest (s.requestFollowUpAfter delayMs (nextArg.or cycle.arg)) none
  | .settle c outcome =>
    match s.cycles[c]? with
    | some ⟨_, none⟩ => some (s.settle c outcome)
    | _ => none
  | .cycleFinally hostDelayMs =>
    match s.inFlight.bind (s.cycles[·]?) with
    | some ⟨arg, some _⟩ => some (s.cycleFinally arg hostDelayMs)
    | _ => none
  | .followUpTimer => s.followUpTimer.map s.startQueuedRun

end Mindwtr.Sync
