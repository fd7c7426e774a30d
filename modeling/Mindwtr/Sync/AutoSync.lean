import Mindwtr.Sync.Orchestrator

/-!
# The auto-sync controller

`createAutoSyncController` of `auto-sync-controller.ts` on its orchestrator: the throttle, the failure
cooldown, adaptive pacing and the cycle as the steps between its awaits. A trigger (focus, blur, a data
change, the heartbeat) is a call of `requestAutoSync`; a timer may fire at any time after it is set. What
the host answers when it is asked is part of an event. The controller asks for no delay of a follow-up,
so its orchestrator arms no timer. `dispose` is left out.

`manual` and `performed` are history that no step reads.
-/

namespace Mindwtr.Sync

structure AdaptivePacing where
  durationMultiplier : Rat
  maxIntervalMs : Rat

structure AutoSyncOptions where
  /-- The host gives `canSync`. -/
  canSync : Bool
  autoFailureCooldownMs : Rat := 60000
  maxFailureCooldownMs : Rat := 10 * 60000
  adaptivePacing : Option AdaptivePacing := none
  skipRetryWhileCycleRunning : Bool := false

structure HostAnswers where
  isRuntimeActive : Bool
  isSuspended : Bool
  cadenceMinIntervalMs : Rat

structure SyncResult where
  success : Bool
  /-- The delay that `parseCloudKitRetryAfterMs` reads in the error. -/
  retryAfterMs : Option Rat
  /-- The host's `isIgnorableFailure`. -/
  ignorable : Bool

structure AutoSyncRequest where
  minIntervalMs : Option Rat
  source : String
  bypassFailureCooldown : Bool
deriving DecidableEq

/-- What the cycle awaits. -/
inductive CyclePhase where
  | suspension
  | canSync
  | flushing
  | performing
deriving DecidableEq

structure RunningCycle where
  request : AutoSyncRequest
  nowMs : Rat
  startedSuspended : Bool
  phase : CyclePhase
deriving DecidableEq

inductive RetrySource where
  | failureCooldown
  | throttle
deriving DecidableEq

def RetrySource.text : RetrySource → String
  | .failureCooldown => "failure-cooldown"
  | .throttle => "throttle"

structure ManualRequest where
  /-- How many cycles had started. -/
  seen : Nat
  /-- A cycle was in flight. -/
  duringCycle : Bool
deriving DecidableEq

structure AutoSync where
  orchestrator : Orchestrator AutoSyncRequest Unit Unit
  /-- The function of the cycle in flight, until it returns or throws. -/
  running : Option RunningCycle
  nowMs : Rat
  lastAutoSyncAt : Rat
  lastCycleDurationMs : Rat
  autoSyncRetryAfter : Rat
  consecutiveAutoSyncFailures : Nat
  syncThrottleTimer : Option RetrySource
  requestedWhileSuspended : Bool
  manual : List ManualRequest
  /-- The cycles that have called `performSync`. -/
  performed : List Nat
deriving DecidableEq

def resolveSyncFailureCooldownMs (retryAfterMs : Option Rat) (consecutiveFailures : Nat) (baseMs maxMs : Rat) :
    Rat :=
  let attempt := max 1 consecutiveFailures
  match retryAfterMs with
  | none => min maxMs (max baseMs (baseMs * 2 ^ (attempt - 1)))
  | some requestedMs => min (max maxMs requestedMs) (requestedMs * 2 ^ (attempt - 1))

namespace AutoSync

def init (nowMs : Rat) : AutoSync := ⟨.init, none, nowMs, 0, 0, 0, 0, none, false, [], []⟩

variable (o : AutoSyncOptions) (s : AutoSync)

def inCooldown : Bool := decide (s.nowMs < s.autoSyncRetryAfter)

def setThrottleTimer (source : RetrySource) : AutoSync :=
  { s with syncThrottleTimer := s.syncThrottleTimer.or (some source) }

def resolveEffectiveMinIntervalMs (minIntervalMs : Option Rat) (host : HostAnswers) : Rat :=
  let requested := minIntervalMs.getD host.cadenceMinIntervalMs
  match o.adaptivePacing with
  | none => requested
  | some pacing =>
    if requested ≤ 0 then requested
    else max requested (min (s.lastCycleDurationMs * pacing.durationMultiplier) pacing.maxIntervalMs)

def throttled (minIntervalMs : Option Rat) (host : HostAnswers) : Bool :=
  decide (s.nowMs - s.lastAutoSyncAt < s.resolveEffectiveMinIntervalMs o minIntervalMs host)

/-- The cycle in flight returns or throws. -/
def endCycle (outcome : Except Unit Unit) : AutoSync :=
  match s.orchestrator.inFlight with
  | none => s
  | some c => { s with orchestrator := s.orchestrator.settle c outcome, running := none }

def flush (cycle : RunningCycle) : AutoSync :=
  { s with lastAutoSyncAt := cycle.nowMs, running := some { cycle with phase := .flushing } }

def askCanSync (cycle : RunningCycle) : AutoSync :=
  if o.canSync then { s with running := some { cycle with phase := .canSync } } else s.flush cycle

/-- `runCycle` up to its first await. -/
def runCycle (request : AutoSyncRequest) (host : HostAnswers) : AutoSync :=
  if !host.isRuntimeActive then s.endCycle (.ok ())
  else if !request.bypassFailureCooldown && s.inCooldown then
    (s.setThrottleTimer .failureCooldown).endCycle (.ok ())
  else if s.throttled o request.minIntervalMs host then (s.setThrottleTimer .throttle).endCycle (.ok ())
  else
    let cycle : RunningCycle := ⟨request, s.nowMs, host.isSuspended, .suspension⟩
    if request.source = "manual" then s.askCanSync o cycle else { s with running := some cycle }

/-- The orchestrator has moved; a cycle it has started runs up to its first await. -/
def orchestrate (next : Orchestrator AutoSyncRequest Unit Unit) (host : HostAnswers) : AutoSync :=
  let t := { s with orchestrator := next }
  if s.orchestrator.cycles.length < next.cycles.length then
    match next.cycles.getLast?.bind (·.arg) with
    | none => t
    | some request => t.runCycle o request host
  else t

def noteManual : AutoSync :=
  { s with manual := ⟨s.orchestrator.cycles.length, s.orchestrator.inFlight.isSome⟩ :: s.manual }

def requestSync (minIntervalMs : Option Rat) (host : HostAnswers) : AutoSync :=
  let t := s.noteManual
  if host.isRuntimeActive then
    t.orchestrate o (t.orchestrator.run (some ⟨minIntervalMs, "manual", true⟩)) host
  else t

/-- The checks of `requestAutoSync` that come before the cooldown. -/
def accepts (internalRetry : Bool) (host : HostAnswers) : Bool :=
  host.isRuntimeActive &&
    !(internalRetry && o.skipRetryWhileCycleRunning && s.orchestrator.inFlight.isSome)

def noteSuspended (host : HostAnswers) : AutoSync :=
  if host.isRuntimeActive && host.isSuspended && s.orchestrator.inFlight.isSome then
    { s with requestedWhileSuspended := true }
  else s

def requestAutoSync (minIntervalMs : Option Rat) (source : String) (internalRetry : Bool)
    (host : HostAnswers) : AutoSync :=
  let t := s.noteSuspended host
  if !s.accepts o internalRetry host then t
  else if s.inCooldown then t.setThrottleTimer .failureCooldown
  else t.orchestrate o (t.orchestrator.run (some ⟨minIntervalMs, source, false⟩)) host

/-- The cooldown after a result of `performSync`. -/
def noteResult (result : SyncResult) : AutoSync :=
  if result.success then
    { s with autoSyncRetryAfter := 0, consecutiveAutoSyncFailures := 0, syncThrottleTimer := none }
  else if result.ignorable then s
  else
    let failures := s.consecutiveAutoSyncFailures + 1
    let cooldownMs :=
      resolveSyncFailureCooldownMs result.retryAfterMs failures o.autoFailureCooldownMs o.maxFailureCooldownMs
    { s with
      consecutiveAutoSyncFailures := failures
      autoSyncRetryAfter := max s.autoSyncRetryAfter (s.nowMs + cooldownMs)
      syncThrottleTimer := some .failureCooldown }

/-- What adaptive pacing does to the queue at the end of a cycle. -/
def pace (cycle : RunningCycle) (host : HostAnswers) : AutoSync :=
  if o.adaptivePacing.isSome then
    let s := { s with lastCycleDurationMs := s.nowMs - cycle.nowMs, lastAutoSyncAt := s.nowMs }
    if cycle.startedSuspended && s.requestedWhileSuspended then
      { s with requestedWhileSuspended := false, orchestrator := s.orchestrator.clearFollowUp }
    else if s.orchestrator.queued then
      { s with
        orchestrator := s.orchestrator.requestFollowUp
          (some ⟨some host.cadenceMinIntervalMs, "follow-up", false⟩) }
    else s
  else s

end AutoSync

inductive AutoSyncEvent where
  | setClock (nowMs : Rat)
  | requestSync (minIntervalMs : Option Rat) (host : HostAnswers)
  | requestAutoSync (minIntervalMs : Option Rat) (source : String) (host : HostAnswers)
  | retryTimer (host : HostAnswers)
  /-- Whether the encryption state holds automatic sync off. -/
  | suspensionAnswered (answer : Except Unit Bool)
  | canSyncAnswered (answer : Except Unit Bool)
  | flushed
  | performed (answer : Except Unit SyncResult) (host : HostAnswers)
  | cycleFinally (host : HostAnswers)
  | handleSuspend
  | notifyExternalSyncSuccess
  | takePendingSuspendedRequest

/-- The cycle in flight goes on from the await it is at. -/
def AutoSync.resume (o : AutoSyncOptions) (s : AutoSync) (cycle : RunningCycle) :
    AutoSyncEvent → Option AutoSync
  | .suspensionAnswered answer =>
    if cycle.phase = .suspension then
      some (match answer with
        | .error e => s.endCycle (.error e)
        | .ok true => s.endCycle (.ok ())
        | .ok false => s.askCanSync o cycle)
    else none
  | .canSyncAnswered answer =>
    if cycle.phase = .canSync then
      some (match answer with
        | .error e => s.endCycle (.error e)
        | .ok false => s.endCycle (.ok ())
        | .ok true => s.flush cycle)
    else none
  | .flushed =>
    if cycle.phase = .flushing then
      some { s with
        running := some { cycle with phase := .performing }
        performed := (s.orchestrator.cycles.length - 1) :: s.performed }
    else none
  | .performed answer host =>
    if cycle.phase = .performing then
      some (match answer with
        | .error e => s.endCycle (.error e)
        | .ok result => ((s.noteResult o result).pace o cycle host).endCycle (.ok ()))
    else none
  | _ => none

open AutoSync in
def autoSyncStep (o : AutoSyncOptions) (s : AutoSync) (e : AutoSyncEvent) : Option AutoSync :=
  match e with
  | .setClock nowMs => some { s with nowMs }
  | .requestSync minIntervalMs host => some (s.requestSync o minIntervalMs host)
  | .requestAutoSync minIntervalMs source host => some (s.requestAutoSync o minIntervalMs source false host)
  | .retryTimer host =>
    s.syncThrottleTimer.map fun source =>
      { s with syncThrottleTimer := none }.requestAutoSync o (some 0) source.text true host
  | .cycleFinally host =>
    match s.orchestrator.inFlight.bind (s.orchestrator.cycles[·]?) with
    | some ⟨arg, some _⟩ => some (s.orchestrate o (s.orchestrator.cycleFinally arg 0) host)
    | _ => none
  | .handleSuspend =>
    some (if s.autoSyncRetryAfter = 0 then { s with syncThrottleTimer := none } else s)
  | .notifyExternalSyncSuccess =>
    some { s with autoSyncRetryAfter := 0, consecutiveAutoSyncFailures := 0, syncThrottleTimer := none }
  | .takePendingSuspendedRequest => some { s with requestedWhileSuspended := false }
  | e => s.running.bind fun cycle => s.resume o cycle e

end Mindwtr.Sync
