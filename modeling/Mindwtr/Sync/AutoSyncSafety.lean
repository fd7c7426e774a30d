import Mindwtr.Lib.Fair
import Mindwtr.Sync.AutoSync

/-!
# Manual sync requests and the failure cooldown

A manual request made while a cycle is in flight waits in the one queued argument of the orchestrator,
which the next automatic request replaces by an argument that does not bypass the cooldown
(`automatic_request_replaces_manual`). While nothing replaces it, and nothing but the cooldown stands
against the follow-up (`Undisturbed`), a cycle that starts after the request calls `performSync`, during a
cooldown or not (`manual_sync_served`).
-/

namespace Mindwtr.Sync

open Mindwtr.Lib Orchestrator AutoSync

namespace AutoSync

/-- A manual request is the queued one. -/
def ManualQueued (s : AutoSync) : Prop :=
  ∃ request ∈ s.orchestrator.queuedArg, request.bypassFailureCooldown = true

instance (s : AutoSync) : Decidable s.ManualQueued :=
  inferInstanceAs (Decidable (∃ request ∈ s.orchestrator.queuedArg, request.bypassFailureCooldown = true))

/-- The cycle in flight is the one a manual request has waited for. -/
def Awaited (s : AutoSync) : Prop :=
  ∃ r ∈ s.manual, r.duringCycle = true ∧ r.seen + 1 = s.orchestrator.cycles.length

instance (s : AutoSync) : Decidable s.Awaited :=
  inferInstanceAs (Decidable (∃ r ∈ s.manual, r.duringCycle = true ∧
    r.seen + 1 = s.orchestrator.cycles.length))

/-- A cycle that started after the request has called `performSync`. -/
def Served (s : AutoSync) (r : ManualRequest) : Prop := ∃ c ∈ s.performed, r.seen ≤ c

/-- The request waits for the cycle in flight to end. -/
def Waits (s : AutoSync) (r : ManualRequest) : Prop :=
  r.seen = s.orchestrator.cycles.length ∧ s.orchestrator.inFlight.isSome ∧ s.ManualQueued

/-- The cycle in flight serves the request: it is past the cooldown and has not called `performSync`. -/
def Serves (s : AutoSync) (r : ManualRequest) : Prop :=
  r.seen + 1 = s.orchestrator.cycles.length ∧ ∃ cycle, s.running = some cycle ∧
    cycle.request.bypassFailureCooldown = true ∧ (cycle.phase = .canSync ∨ cycle.phase = .flushing)

end AutoSync

/-- No automatic request and no pacing takes the place of a queued manual request; its cycle finds the
runtime active, its interval over and the host willing. -/
def Undisturbed (o : AutoSyncOptions) (s : AutoSync) : AutoSyncEvent → Prop
  | .requestSync _ host => s.orchestrator.inFlight.isSome → host.isRuntimeActive = true
  | .requestAutoSync _ _ host => s.ManualQueued → s.accepts o false host = true → s.inCooldown = true
  | .retryTimer host => s.ManualQueued → s.accepts o true host = true → s.inCooldown = true
  | .canSyncAnswered answer => s.Awaited → answer.toOption = some true
  | .performed (.ok _) _ => s.ManualQueued → o.adaptivePacing.isNone
  | .cycleFinally host => s.ManualQueued → host.isRuntimeActive = true ∧
      ∀ request ∈ s.orchestrator.queuedArg, s.throttled o request.minIntervalMs host = false
  | _ => True

instance (o : AutoSyncOptions) (s : AutoSync) : (e : AutoSyncEvent) → Decidable (Undisturbed o s e)
  | .requestSync _ _ => inferInstanceAs (Decidable (_ → _))
  | .requestAutoSync _ _ _ => inferInstanceAs (Decidable (_ → _ → _))
  | .retryTimer _ => inferInstanceAs (Decidable (_ → _ → _))
  | .canSyncAnswered _ => inferInstanceAs (Decidable (_ → _))
  | .performed (.ok _) _ => inferInstanceAs (Decidable (s.ManualQueued → o.adaptivePacing.isNone))
  | .cycleFinally host => inferInstanceAs (Decidable (s.ManualQueued → host.isRuntimeActive = true ∧
      ∀ request ∈ s.orchestrator.queuedArg, s.throttled o request.minIntervalMs host = false))
  | .setClock _ | .suspensionAnswered _ | .flushed | .performed (.error _) _ | .handleSuspend
  | .notifyExternalSyncSuccess | .takePendingSuspendedRequest => inferInstanceAs (Decidable True)

structure AutoSyncInv (s : AutoSync) : Prop where
  last : ∀ c, s.orchestrator.inFlight = some c → c + 1 = s.orchestrator.cycles.length
  running : s.running.isSome → ∃ c arg, s.orchestrator.inFlight = some c ∧
    s.orchestrator.cycles[c]? = some ⟨arg, none⟩
  ended : ∀ c, s.orchestrator.inFlight = some c → s.running = none →
    ∃ arg outcome, s.orchestrator.cycles[c]? = some ⟨arg, some outcome⟩
  noDelay : s.orchestrator.minimumFollowUpDelayMs = 0
  queued : s.orchestrator.queued = s.orchestrator.queuedArg.isSome
  queuedSource : ∀ request, s.orchestrator.queuedArg = some request →
    request.bypassFailureCooldown = true → request.source = "manual"
  runningPhase : ∀ cycle, s.running = some cycle →
    cycle.request.bypassFailureCooldown = true → cycle.phase ≠ .suspension
  seen : ∀ r ∈ s.manual, r.seen ≤ s.orchestrator.cycles.length
  kept : ∀ r ∈ s.manual, r.duringCycle = true → s.Served r ∨ s.Waits r ∨ s.Serves r

theorem autoSyncInv_init (nowMs : Rat) : AutoSyncInv (AutoSync.init nowMs) where
  last c h := by cases h
  running h := by cases h
  ended c h := by cases h
  noDelay := rfl
  queued := rfl
  queuedSource request h := by cases h
  runningPhase cycle h := by cases h
  seen r h := by cases h
  kept r h := by cases h

section
variable {o : AutoSyncOptions} {s t : AutoSync}

/-- The invariant reads four fields. -/
theorem AutoSyncInv.congr (hs : AutoSyncInv s) (horchestrator : t.orchestrator = s.orchestrator)
    (hrunning : t.running = s.running) (hmanual : t.manual = s.manual)
    (hperformed : t.performed = s.performed) : AutoSyncInv t where
  last := by rw [horchestrator]; exact hs.last
  running := by rw [horchestrator, hrunning]; exact hs.running
  ended := by rw [horchestrator, hrunning]; exact hs.ended
  noDelay := by rw [horchestrator]; exact hs.noDelay
  queued := by rw [horchestrator]; exact hs.queued
  queuedSource := by rw [horchestrator]; exact hs.queuedSource
  runningPhase := by rw [hrunning]; exact hs.runningPhase
  seen := by rw [horchestrator, hmanual]; exact hs.seen
  kept := by
    simp only [Served, Waits, Serves, ManualQueued, horchestrator, hrunning, hmanual, hperformed]
    exact hs.kept

/-! ### Between the awaits of a cycle -/

/-- A cycle that serves no request may end. -/
theorem AutoSyncInv.endCycle (hs : AutoSyncInv s) (hrunning : s.running.isSome)
    (hnone : ∀ r ∈ s.manual, r.duringCycle = true → ¬ s.Serves r) (outcome : Except Unit Unit) :
    AutoSyncInv (s.endCycle outcome) := by
  obtain ⟨c, arg, hflight, hc⟩ := hs.running hrunning
  have ht : s.endCycle outcome =
      { s with orchestrator := s.orchestrator.settle c outcome, running := none } := by
    simp only [AutoSync.endCycle, hflight]
  rw [ht]
  refine ⟨?_, nofun, ?_, hs.noDelay, hs.queued, hs.queuedSource, nofun, ?_, ?_⟩
  · simpa [Orchestrator.settle] using hs.last
  · rintro d hd -
    obtain rfl := Option.some.inj (hflight.symm.trans hd)
    exact ⟨arg, outcome, by simp [Orchestrator.settle, hc]⟩
  · simpa [Orchestrator.settle] using hs.seen
  · intro r hr hduring
    rcases hs.kept r hr hduring with hserved | hwaits | hserves
    · exact .inl hserved
    · exact .inr (.inl ⟨by simpa [Orchestrator.settle] using hwaits.1, hwaits.2⟩)
    · exact absurd hserves (hnone r hr hduring)

/-- The cycle goes on to ask the host or to save what is pending. -/
theorem AutoSyncInv.advance (hs : AutoSyncInv s) {cycle next : RunningCycle}
    (hrunning : s.running = some cycle) (hrequest : next.request = cycle.request)
    (hphase : next.phase = .canSync ∨ next.phase = .flushing)
    (ht : t.orchestrator = s.orchestrator ∧ t.running = some next ∧ t.manual = s.manual ∧
      t.performed = s.performed) : AutoSyncInv t := by
  obtain ⟨horchestrator, hnext, hmanual, hperformed⟩ := ht
  have hsome : s.running.isSome := by simp [hrunning]
  refine ⟨by rw [horchestrator]; exact hs.last, ?_, ?_, by rw [horchestrator]; exact hs.noDelay,
    by rw [horchestrator]; exact hs.queued, by rw [horchestrator]; exact hs.queuedSource,
    ?_, by rw [horchestrator, hmanual]; exact hs.seen, ?_⟩
  · rw [horchestrator]
    exact fun _ => hs.running hsome
  · intro c _ hnone
    rw [hnext] at hnone
    cases hnone
  · intro c hc _ hsuspension
    obtain rfl := Option.some.inj (hnext.symm.trans hc)
    rcases hphase with h | h <;> rw [h] at hsuspension <;> cases hsuspension
  · intro r hr hduring
    rw [hmanual] at hr
    rcases hs.kept r hr hduring with hserved | hwaits | ⟨hseen, cycle', hcycle, hbypass, -⟩
    · exact .inl (by simpa only [Served, hperformed] using hserved)
    · exact .inr (.inl (by simpa only [Waits, ManualQueued, horchestrator] using hwaits))
    · obtain rfl := Option.some.inj (hrunning.symm.trans hcycle)
      exact .inr (.inr ⟨by rw [horchestrator]; exact hseen, next, hnext, by rw [hrequest]; exact hbypass,
        hphase⟩)

theorem AutoSyncInv.flush (hs : AutoSyncInv s) {cycle : RunningCycle} (h : s.running = some cycle) :
    AutoSyncInv (s.flush cycle) := by
  refine hs.advance h ?_ ?_ ⟨rfl, rfl, rfl, rfl⟩
  · rfl
  · exact .inr rfl

theorem AutoSyncInv.askCanSync (hs : AutoSyncInv s) {cycle : RunningCycle} (h : s.running = some cycle) :
    AutoSyncInv (s.askCanSync o cycle) := by
  unfold AutoSync.askCanSync
  split
  · refine hs.advance h ?_ ?_ ⟨rfl, rfl, rfl, rfl⟩
    · rfl
    · exact .inl rfl
  · exact hs.flush h

/-- `performSync` is called. -/
theorem AutoSyncInv.flushed (hs : AutoSyncInv s) {cycle : RunningCycle} (h : s.running = some cycle) :
    AutoSyncInv { s with
      running := some { cycle with phase := .performing }
      performed := (s.orchestrator.cycles.length - 1) :: s.performed } := by
  have hsome : s.running.isSome := by simp [h]
  refine ⟨hs.last, fun _ => hs.running hsome, nofun, hs.noDelay, hs.queued, hs.queuedSource, ?_, hs.seen, ?_⟩
  · rintro c hc - hsuspension
    obtain rfl := Option.some.inj hc
    cases hsuspension
  · intro r hr hduring
    rcases hs.kept r hr hduring with ⟨c, hc, hle⟩ | hwaits | ⟨hseen, -⟩
    · exact .inl ⟨c, List.mem_cons_of_mem _ hc, hle⟩
    · exact .inr (.inl hwaits)
    · refine .inl ⟨_, List.mem_cons_self, ?_⟩
      omega

/-! ### The queue -/

/-- Nothing manual is queued before or after. -/
theorem AutoSyncInv.requeue (hs : AutoSyncInv s) (hnone : ¬ s.ManualQueued) (hqueue : ¬ t.ManualQueued)
    (hcycles : t.orchestrator.cycles = s.orchestrator.cycles)
    (hflight : t.orchestrator.inFlight = s.orchestrator.inFlight)
    (hdelay : t.orchestrator.minimumFollowUpDelayMs = 0)
    (hqueued : t.orchestrator.queued = t.orchestrator.queuedArg.isSome)
    (ht : t.running = s.running ∧ t.manual = s.manual ∧ t.performed = s.performed) : AutoSyncInv t := by
  obtain ⟨hrunning, hmanual, hperformed⟩ := ht
  refine ⟨by rw [hcycles, hflight]; exact hs.last, by rw [hcycles, hflight, hrunning]; exact hs.running,
    by rw [hcycles, hflight, hrunning]; exact hs.ended, hdelay, hqueued, ?_,
    by rw [hrunning]; exact hs.runningPhase, by rw [hcycles, hmanual]; exact hs.seen, ?_⟩
  · exact fun request h hbypass => absurd ⟨request, h, hbypass⟩ hqueue
  · intro r hr hduring
    rw [hmanual] at hr
    rcases hs.kept r hr hduring with hserved | ⟨-, -, hqueued⟩ | hserves
    · exact .inl (by simpa only [Served, hperformed] using hserved)
    · exact absurd hqueued hnone
    · exact .inr (.inr (by simpa only [Serves, hcycles, hrunning] using hserves))

/-! ### The start of a cycle -/

/-- The orchestrator has started a cycle, which has not run. -/
structure CycleStarted (s : AutoSync) (c : Nat) : Prop where
  inFlight : s.orchestrator.inFlight = some c
  last : c + 1 = s.orchestrator.cycles.length
  running : ∃ arg, s.orchestrator.cycles[c]? = some ⟨arg, none⟩
  noDelay : s.orchestrator.minimumFollowUpDelayMs = 0
  queued : s.orchestrator.queued = false
  queuedArg : s.orchestrator.queuedArg = none
  seen : ∀ r ∈ s.manual, r.seen ≤ s.orchestrator.cycles.length

theorem CycleStarted.endCycle {c : Nat} (hs : CycleStarted s c)
    (hserved : ∀ r ∈ s.manual, r.duringCycle = true → s.Served r) :
    AutoSyncInv (s.endCycle (.ok ())) := by
  have ht : s.endCycle (.ok ()) =
      { s with orchestrator := s.orchestrator.settle c (.ok ()), running := none } := by
    simp only [AutoSync.endCycle, hs.inFlight]
  obtain ⟨arg, hc⟩ := hs.running
  have hnone : ¬ (s.endCycle (.ok ())).ManualQueued := by
    rintro ⟨request, h, -⟩
    rw [ht] at h
    cases hs.queuedArg.symm.trans h
  rw [ht] at hnone ⊢
  refine ⟨?_, nofun, ?_, hs.noDelay, by simp [Orchestrator.settle, hs.queued, hs.queuedArg],
    fun request h hbypass => absurd ⟨request, h, hbypass⟩ hnone, nofun, ?_, ?_⟩
  · rintro d hd
    obtain rfl := Option.some.inj (hs.inFlight.symm.trans hd)
    simpa [Orchestrator.settle] using hs.last
  · rintro d hd -
    obtain rfl := Option.some.inj (hs.inFlight.symm.trans hd)
    exact ⟨arg, .ok (), by simp [Orchestrator.settle, hc]⟩
  · simpa [Orchestrator.settle] using hs.seen
  · exact fun r hr hduring => .inl (hserved r hr hduring)

/-- The cycle stands at its first await. -/
theorem CycleStarted.awaits {c : Nat} (hs : CycleStarted s c) {cycle : RunningCycle}
    (ht : t.orchestrator = s.orchestrator ∧ t.running = some cycle ∧ t.manual = s.manual ∧
      t.performed = s.performed)
    (hphase : cycle.request.bypassFailureCooldown = true → cycle.phase ≠ .suspension)
    (hkept : ∀ r ∈ s.manual, r.duringCycle = true → s.Served r ∨ t.Serves r) : AutoSyncInv t := by
  obtain ⟨horchestrator, hrunning, hmanual, hperformed⟩ := ht
  obtain ⟨arg, hc⟩ := hs.running
  have hnone : ¬ t.ManualQueued := by
    rintro ⟨request, h, -⟩
    rw [horchestrator] at h
    cases hs.queuedArg.symm.trans h
  refine ⟨?_, ?_, ?_, by rw [horchestrator]; exact hs.noDelay,
    by rw [horchestrator, hs.queued, hs.queuedArg]; rfl,
    fun request h hbypass => absurd ⟨request, h, hbypass⟩ hnone, ?_,
    by rw [horchestrator, hmanual]; exact hs.seen, ?_⟩
  · rw [horchestrator]
    rintro d hd
    obtain rfl := Option.some.inj (hs.inFlight.symm.trans hd)
    exact hs.last
  · rw [horchestrator]
    exact fun _ => ⟨c, arg, hs.inFlight, hc⟩
  · rintro d - h
    rw [hrunning] at h
    cases h
  · rintro cycle' h hbypass
    obtain rfl := Option.some.inj (hrunning.symm.trans h)
    exact hphase hbypass
  · intro r hr hduring
    rw [hmanual] at hr
    rcases hkept r hr hduring with hserved | hserves
    · exact .inl (by simpa only [Served, hperformed] using hserved)
    · exact .inr (.inr hserves)

/-- A request that waited for this cycle is served by it, which bypasses the cooldown and is let through. -/
theorem CycleStarted.runCycle {c : Nat} (hs : CycleStarted s c) {request : AutoSyncRequest}
    {host : HostAnswers}
    (hsource : request.bypassFailureCooldown = true → request.source = "manual")
    (hkept : ∀ r ∈ s.manual, r.duringCycle = true → s.Served r ∨
      (r.seen = c ∧ request.bypassFailureCooldown = true ∧ host.isRuntimeActive = true ∧
        s.throttled o request.minIntervalMs host = false)) :
    AutoSyncInv (s.runCycle o request host) := by
  unfold AutoSync.runCycle
  split
  · rename_i hactive
    refine hs.endCycle fun r hr hduring => (hkept r hr hduring).resolve_right ?_
    rintro ⟨-, -, h, -⟩
    simp [h] at hactive
  split
  · rename_i hcooldown
    have hstarted : CycleStarted (s.setThrottleTimer .failureCooldown) c :=
      ⟨hs.inFlight, hs.last, hs.running, hs.noDelay, hs.queued, hs.queuedArg, hs.seen⟩
    refine hstarted.endCycle fun r hr hduring => (hkept r hr hduring).resolve_right ?_
    rintro ⟨-, h, -⟩
    simp [h] at hcooldown
  split
  · rename_i hthrottled
    have hstarted : CycleStarted (s.setThrottleTimer .throttle) c :=
      ⟨hs.inFlight, hs.last, hs.running, hs.noDelay, hs.queued, hs.queuedArg, hs.seen⟩
    refine hstarted.endCycle fun r hr hduring => (hkept r hr hduring).resolve_right ?_
    rintro ⟨-, -, -, h⟩
    rw [h] at hthrottled
    cases hthrottled
  dsimp only
  have hserves : ∀ r ∈ s.manual, r.duringCycle = true → s.Served r ∨
      (r.seen + 1 = s.orchestrator.cycles.length ∧ request.bypassFailureCooldown = true) := by
    intro r hr hduring
    refine (hkept r hr hduring).imp (fun h => h) fun h => ⟨?_, h.2.1⟩
    rw [h.1, hs.last]
  split
  · unfold AutoSync.askCanSync
    split
    · refine hs.awaits ⟨rfl, rfl, rfl, rfl⟩ (fun _ => nofun) fun r hr hduring => ?_
      refine (hserves r hr hduring).imp (fun h => h) fun h => ⟨h.1, _, rfl, h.2, .inl rfl⟩
    · refine hs.awaits ⟨rfl, rfl, rfl, rfl⟩ (fun _ => nofun) fun r hr hduring => ?_
      refine (hserves r hr hduring).imp (fun h => h) fun h => ⟨h.1, _, rfl, h.2, .inr rfl⟩
  · rename_i hmanual
    refine hs.awaits ⟨rfl, rfl, rfl, rfl⟩ (fun h => absurd (hsource h) hmanual) fun r hr hduring => ?_
    exact (hserves r hr hduring).imp (fun h => h) fun h => absurd (hsource h.2) hmanual

theorem cycleStarted {next : Orchestrator AutoSyncRequest Unit Unit} {arg : Option AutoSyncRequest}
    (hnext : next = { s.orchestrator.startCycle arg with minimumFollowUpDelayMs := 0 })
    (hseen : ∀ r ∈ s.manual, r.seen ≤ s.orchestrator.cycles.length) :
    CycleStarted { s with orchestrator := next } s.orchestrator.cycles.length := by
  subst hnext
  refine ⟨rfl, by simp [startCycle], ⟨arg, by simp [startCycle]⟩, rfl, rfl, rfl, fun r hr => ?_⟩
  have := hseen r hr
  simp only [startCycle, List.length_append, List.length_singleton]
  omega

theorem orchestrate_started {next : Orchestrator AutoSyncRequest Unit Unit} {request : AutoSyncRequest}
    {host : HostAnswers} (h : next.cycles = s.orchestrator.cycles ++ [⟨some request, none⟩]) :
    s.orchestrate o next host = AutoSync.runCycle o { s with orchestrator := next } request host := by
  simp [AutoSync.orchestrate, h]

theorem orchestrate_same {next : Orchestrator AutoSyncRequest Unit Unit} {host : HostAnswers}
    (h : next.cycles = s.orchestrator.cycles) : s.orchestrate o next host = { s with orchestrator := next } := by
  simp [AutoSync.orchestrate, h]

/-- With a cycle in flight a request is queued. -/
theorem orchestrate_run_busy {request : AutoSyncRequest} {host : HostAnswers}
    (h : s.orchestrator.inFlight.isSome) :
    s.orchestrate o (s.orchestrator.run (some request)) host =
      { s with orchestrator := s.orchestrator.requestFollowUp (some request) } := by
  have hrun : s.orchestrator.run (some request) = s.orchestrator.requestFollowUp (some request) := by
    simp [Orchestrator.run, h]
  rw [hrun, orchestrate_same (by rfl)]

/-- With no cycle in flight every request has been served. -/
theorem AutoSyncInv.served_of_idle (hs : AutoSyncInv s) (h : s.orchestrator.inFlight = none)
    {r : ManualRequest} (hr : r ∈ s.manual) (hduring : r.duringCycle = true) : s.Served r := by
  rcases hs.kept r hr hduring with hserved | ⟨-, hflight, -⟩ | ⟨-, cycle, hrunning, -⟩
  · exact hserved
  · simp [h] at hflight
  · obtain ⟨c, -, hc, -⟩ := hs.running (by simp [hrunning])
    cases h.symm.trans hc

theorem AutoSyncInv.startDirect (hs : AutoSyncInv s) (h : s.orchestrator.inFlight = none)
    {request : AutoSyncRequest} (hsource : request.bypassFailureCooldown = true → request.source = "manual")
    (host : HostAnswers) :
    AutoSyncInv (s.orchestrate o (s.orchestrator.run (some request)) host) := by
  have hrun : s.orchestrator.run (some request) = s.orchestrator.startCycle (some request) := by
    simp [Orchestrator.run, h]
  have hnext : s.orchestrator.startCycle (some request) =
      { s.orchestrator.startCycle (some request) with minimumFollowUpDelayMs := 0 } := by
    simp [startCycle, hs.noDelay]
  rw [hrun, orchestrate_started (by rfl)]
  exact (cycleStarted hnext hs.seen).runCycle hsource fun r hr hduring =>
    .inl (hs.served_of_idle h hr hduring)

/-! ### Requests -/

theorem AutoSyncInv.noteManual_idle (hs : AutoSyncInv s) (h : s.orchestrator.inFlight = none) :
    AutoSyncInv s.noteManual := by
  refine ⟨hs.last, hs.running, hs.ended, hs.noDelay, hs.queued, hs.queuedSource, hs.runningPhase, ?_, ?_⟩
  · intro r hr
    rcases List.mem_cons.1 hr with rfl | hr
    · exact le_refl _
    · exact hs.seen r hr
  · intro r hr hduring
    rcases List.mem_cons.1 hr with rfl | hr
    · simp [h] at hduring
    · exact hs.kept r hr hduring

/-- A manual request made while a cycle is in flight becomes the queued one. -/
theorem AutoSyncInv.queueManual (hs : AutoSyncInv s) (h : s.orchestrator.inFlight.isSome)
    (minIntervalMs : Option Rat) :
    AutoSyncInv { s.noteManual with
      orchestrator := s.orchestrator.requestFollowUp (some ⟨minIntervalMs, "manual", true⟩) } := by
  refine ⟨hs.last, hs.running, hs.ended, hs.noDelay, rfl, ?_, hs.runningPhase, ?_, ?_⟩
  · rintro request hrequest -
    obtain rfl := Option.some.inj hrequest
    rfl
  · intro r hr
    rcases List.mem_cons.1 hr with rfl | hr
    · exact le_refl _
    · exact hs.seen r hr
  · intro r hr hduring
    rcases List.mem_cons.1 hr with rfl | hr
    · exact .inr (.inl ⟨rfl, h, _, rfl, rfl⟩)
    · rcases hs.kept r hr hduring with hserved | ⟨hseen, hflight, -⟩ | hserves
      · exact .inl hserved
      · exact .inr (.inl ⟨hseen, hflight, _, rfl, rfl⟩)
      · exact .inr (.inr hserves)

theorem AutoSyncInv.requestSync (hs : AutoSyncInv s) {minIntervalMs : Option Rat} {host : HostAnswers}
    (hok : s.orchestrator.inFlight.isSome → host.isRuntimeActive = true) :
    AutoSyncInv (s.requestSync o minIntervalMs host) := by
  unfold AutoSync.requestSync
  dsimp only
  by_cases h : s.orchestrator.inFlight.isSome
  · rw [if_pos (hok h), orchestrate_run_busy (by exact h)]
    exact hs.queueManual h minIntervalMs
  · have hidle : s.orchestrator.inFlight = none := by simpa using h
    have hnoted := hs.noteManual_idle hidle
    split
    · exact hnoted.startDirect hidle (fun _ => rfl) host
    · exact hnoted

theorem noteSuspended_fields (host : HostAnswers) :
    (s.noteSuspended host).orchestrator = s.orchestrator ∧ (s.noteSuspended host).running = s.running ∧
      (s.noteSuspended host).manual = s.manual ∧ (s.noteSuspended host).performed = s.performed := by
  unfold AutoSync.noteSuspended
  split <;> exact ⟨rfl, rfl, rfl, rfl⟩

theorem AutoSyncInv.requestAutoSync (hs : AutoSyncInv s) {minIntervalMs : Option Rat} {source : String}
    {internalRetry : Bool} {host : HostAnswers}
    (hok : s.ManualQueued → s.accepts o internalRetry host = true → s.inCooldown = true) :
    AutoSyncInv (s.requestAutoSync o minIntervalMs source internalRetry host) := by
  obtain ⟨horchestrator, hrunning, hmanual, hperformed⟩ := noteSuspended_fields (s := s) host
  have hnoted := hs.congr horchestrator hrunning hmanual hperformed
  unfold AutoSync.requestAutoSync
  dsimp only
  split
  · exact hnoted
  rename_i haccepts
  split
  · exact hnoted.congr rfl rfl rfl rfl
  rename_i hcooldown
  by_cases h : (s.noteSuspended host).orchestrator.inFlight.isSome
  · have hnone : ¬ (s.noteSuspended host).ManualQueued := by
      intro hqueued
      refine hcooldown (hok ?_ (by simpa using haccepts))
      simpa only [ManualQueued, horchestrator] using hqueued
    rw [orchestrate_run_busy h]
    refine hnoted.requeue hnone ?_ rfl rfl hnoted.noDelay rfl ⟨rfl, rfl, rfl⟩
    rintro ⟨request, hrequest, hbypass⟩
    obtain rfl := Option.some.inj hrequest
    cases hbypass
  · exact hnoted.startDirect (by simpa using h) (fun h => by cases h) host

/-! ### The end of a cycle -/

theorem AutoSyncInv.noteResult (hs : AutoSyncInv s) (result : SyncResult) :
    AutoSyncInv (s.noteResult o result) := by
  refine hs.congr ?_ ?_ ?_ ?_ <;>
  · unfold AutoSync.noteResult
    split
    · rfl
    · split <;> rfl

theorem noteResult_orchestrator (result : SyncResult) :
    (s.noteResult o result).orchestrator = s.orchestrator := by
  unfold AutoSync.noteResult
  split
  · rfl
  · split <;> rfl

theorem noteResult_running (result : SyncResult) : (s.noteResult o result).running = s.running := by
  unfold AutoSync.noteResult
  split
  · rfl
  · split <;> rfl

theorem AutoSyncInv.pace (hs : AutoSyncInv s) {cycle : RunningCycle} {host : HostAnswers}
    (hok : s.ManualQueued → o.adaptivePacing.isNone) : AutoSyncInv (s.pace o cycle host) := by
  unfold AutoSync.pace
  split
  · rename_i hpacing
    have hnone : ¬ s.ManualQueued := fun h => by
      simp [Option.isNone_iff_eq_none.1 (hok h)] at hpacing
    dsimp only
    split
    · refine hs.requeue hnone ?_ rfl rfl rfl rfl ⟨rfl, rfl, rfl⟩
      rintro ⟨request, h, -⟩
      cases h
    split
    · refine hs.requeue hnone ?_ rfl rfl hs.noDelay rfl ⟨rfl, rfl, rfl⟩
      rintro ⟨request, hrequest, hbypass⟩
      obtain rfl := Option.some.inj hrequest
      cases hbypass
    · exact hs.congr rfl rfl rfl rfl
  · exact hs

theorem pace_running {cycle : RunningCycle} {host : HostAnswers} :
    (s.pace o cycle host).running = s.running := by
  unfold AutoSync.pace
  split
  · dsimp only
    split
    · rfl
    · split <;> rfl
  · rfl

/-- The follow-up of a cycle starts at once, with the queued request. -/
theorem AutoSyncInv.cycleFinally (hs : AutoSyncInv s) {c : Nat} {arg : Option AutoSyncRequest}
    {outcome : Except Unit Unit} {host : HostAnswers} (hflight : s.orchestrator.inFlight = some c)
    (hc : s.orchestrator.cycles[c]? = some ⟨arg, some outcome⟩)
    (hok : s.ManualQueued → host.isRuntimeActive = true ∧ ∀ request,
      s.orchestrator.queuedArg = some request → s.throttled o request.minIntervalMs host = false) :
    AutoSyncInv (s.orchestrate o (s.orchestrator.cycleFinally arg 0) host) := by
  have hidle : s.running = none := by
    by_contra hne
    obtain ⟨d, arg', hd, hd'⟩ := hs.running (Option.isSome_iff_ne_none.2 hne)
    obtain rfl := Option.some.inj (hflight.symm.trans hd)
    cases hc.symm.trans hd'
  have hkept : ∀ r ∈ s.manual, r.duringCycle = true → s.Served r ∨ s.Waits r := by
    intro r hr hduring
    rcases hs.kept r hr hduring with hserved | hwaits | ⟨-, cycle, hrunning, -⟩
    · exact .inl hserved
    · exact .inr hwaits
    · cases hidle.symm.trans hrunning
  cases hqueued : s.orchestrator.queuedArg with
  | none =>
    have hempty : s.orchestrator.queued = false := by rw [hs.queued, hqueued]; rfl
    have hnone : ¬ s.ManualQueued := by
      rintro ⟨request, h, -⟩
      cases hqueued.symm.trans h
    have hfinally : s.orchestrator.cycleFinally arg 0 = { s.orchestrator with inFlight := none } := by
      simp [Orchestrator.cycleFinally, hempty]
    rw [hfinally, orchestrate_same (by rfl)]
    refine ⟨nofun, ?_, nofun, hs.noDelay, hs.queued, hs.queuedSource, hs.runningPhase, hs.seen, ?_⟩
    · intro h
      simp [hidle] at h
    · intro r hr hduring
      exact .inl ((hkept r hr hduring).resolve_right fun h => hnone h.2.2)
  | some request =>
    have hfull : s.orchestrator.queued = true := by rw [hs.queued, hqueued]; rfl
    have hfinally : s.orchestrator.cycleFinally arg 0 =
        { s.orchestrator.startCycle (some request) with minimumFollowUpDelayMs := 0 } := by
      simp [Orchestrator.cycleFinally, hfull, hs.noDelay, hqueued, startQueuedRun, Orchestrator.run,
        startCycle]
    rw [orchestrate_started (by rw [hfinally]; rfl)]
    refine (cycleStarted hfinally hs.seen).runCycle (hs.queuedSource request hqueued) fun r hr hduring => ?_
    refine (hkept r hr hduring).imp (fun h => h) fun ⟨hseen, _, hmanual⟩ => ?_
    have hbypass : request.bypassFailureCooldown = true := by
      obtain ⟨request', h, hbypass⟩ := hmanual
      obtain rfl := Option.some.inj (hqueued.symm.trans h)
      exact hbypass
    exact ⟨hseen, hbypass, (hok hmanual).1, (hok hmanual).2 request hqueued⟩

theorem AutoSyncInv.resume (hs : AutoSyncInv s) {cycle : RunningCycle} {e : AutoSyncEvent}
    (hrunning : s.running = some cycle) (hok : Undisturbed o s e) (h : s.resume o cycle e = some t) :
    AutoSyncInv t := by
  have hsome : s.running.isSome := by simp [hrunning]
  have hnot : ∀ (u : AutoSync), u.running = some cycle → ¬ (cycle.phase = .canSync ∨ cycle.phase = .flushing) →
      ∀ r ∈ u.manual, r.duringCycle = true → ¬ u.Serves r := by
    rintro u hu hphase r - - ⟨-, cycle', hcycle, -, hserving⟩
    obtain rfl := Option.some.inj (hu.symm.trans hcycle)
    exact hphase hserving
  cases e with
  | suspensionAnswered answer =>
    obtain ⟨hphase, h⟩ := Option.ite_none_right_eq_some.1 h
    obtain rfl := Option.some.inj h
    have hnone := hnot s hrunning (by simp [hphase])
    rcases answer with e | _ | _
    · exact hs.endCycle hsome hnone _
    · exact hs.askCanSync hrunning
    · exact hs.endCycle hsome hnone _
  | canSyncAnswered answer =>
    obtain ⟨hphase, h⟩ := Option.ite_none_right_eq_some.1 h
    obtain rfl := Option.some.inj h
    have hnone : answer.toOption ≠ some true → ∀ r ∈ s.manual, r.duringCycle = true → ¬ s.Serves r :=
      fun hanswer r hr hduring hserves => hanswer (hok ⟨r, hr, hduring, hserves.1⟩)
    rcases answer with e | _ | _
    · exact hs.endCycle hsome (hnone nofun) _
    · exact hs.endCycle hsome (hnone (by decide)) _
    · exact hs.flush hrunning
  | flushed =>
    obtain ⟨hphase, h⟩ := Option.ite_none_right_eq_some.1 h
    exact Option.some.inj h ▸ hs.flushed hrunning
  | performed answer host =>
    obtain ⟨hphase, h⟩ := Option.ite_none_right_eq_some.1 h
    obtain rfl := Option.some.inj h
    rcases answer with e | result
    · exact hs.endCycle hsome (hnot s hrunning (by simp [hphase])) _
    · have hnoted := hs.noteResult (o := o) result
      have hpaced : AutoSyncInv ((s.noteResult o result).pace o cycle host) := hnoted.pace fun h =>
        hok (by simpa only [ManualQueued, noteResult_orchestrator] using h)
      have hstill : ((s.noteResult o result).pace o cycle host).running = some cycle := by
        rw [pace_running, noteResult_running, hrunning]
      exact hpaced.endCycle (by simp [hstill]) (hnot _ hstill (by simp [hphase])) _
  | _ => cases h

theorem AutoSyncInv.step (hs : AutoSyncInv s) {e : AutoSyncEvent} (hok : Undisturbed o s e)
    (h : autoSyncStep o s e = some t) : AutoSyncInv t := by
  cases e with
  | setClock nowMs => exact Option.some.inj h ▸ hs.congr rfl rfl rfl rfl
  | requestSync minIntervalMs host => exact Option.some.inj h ▸ hs.requestSync hok
  | requestAutoSync minIntervalMs source host => exact Option.some.inj h ▸ hs.requestAutoSync hok
  | retryTimer host =>
    obtain ⟨source, -, rfl⟩ := Option.map_eq_some_iff.1 h
    have hcleared : AutoSyncInv { s with syncThrottleTimer := none } := hs.congr rfl rfl rfl rfl
    exact hcleared.requestAutoSync hok
  | cycleFinally host =>
    simp only [autoSyncStep] at h
    split at h
    · rename_i arg outcome hcycle
      obtain ⟨c, hflight, hc⟩ := Option.bind_eq_some_iff.1 hcycle
      exact Option.some.inj h ▸ hs.cycleFinally hflight hc hok
    · cases h
  | handleSuspend =>
    obtain rfl := Option.some.inj h
    split
    · exact hs.congr rfl rfl rfl rfl
    · exact hs
  | notifyExternalSyncSuccess => exact Option.some.inj h ▸ hs.congr rfl rfl rfl rfl
  | takePendingSuspendedRequest => exact Option.some.inj h ▸ hs.congr rfl rfl rfl rfl
  | suspensionAnswered answer =>
    obtain ⟨cycle, hrunning, h⟩ := Option.bind_eq_some_iff.1 h
    exact hs.resume hrunning hok h
  | canSyncAnswered answer =>
    obtain ⟨cycle, hrunning, h⟩ := Option.bind_eq_some_iff.1 h
    exact hs.resume hrunning hok h
  | flushed =>
    obtain ⟨cycle, hrunning, h⟩ := Option.bind_eq_some_iff.1 h
    exact hs.resume hrunning hok h
  | performed answer host =>
    obtain ⟨cycle, hrunning, h⟩ := Option.bind_eq_some_iff.1 h
    exact hs.resume hrunning hok h

/-! ### What a step leaves alone -/

theorem endCycle_manual (outcome : Except Unit Unit) : (s.endCycle outcome).manual = s.manual := by
  unfold AutoSync.endCycle
  split <;> rfl

theorem endCycle_length (outcome : Except Unit Unit) :
    (s.endCycle outcome).orchestrator.cycles.length = s.orchestrator.cycles.length := by
  unfold AutoSync.endCycle
  split
  · rfl
  · simp [Orchestrator.settle]

theorem endCycle_running (h : s.orchestrator.inFlight.isSome) (outcome : Except Unit Unit) :
    (s.endCycle outcome).running = none := by
  obtain ⟨c, hc⟩ := Option.isSome_iff_exists.1 h
  simp only [AutoSync.endCycle, hc]

theorem askCanSync_manual (cycle : RunningCycle) : (s.askCanSync o cycle).manual = s.manual := by
  unfold AutoSync.askCanSync
  split <;> rfl

theorem askCanSync_orchestrator (cycle : RunningCycle) :
    (s.askCanSync o cycle).orchestrator = s.orchestrator := by
  unfold AutoSync.askCanSync
  split <;> rfl

theorem runCycle_manual (request : AutoSyncRequest) (host : HostAnswers) :
    (s.runCycle o request host).manual = s.manual := by
  unfold AutoSync.runCycle
  split
  · exact endCycle_manual _
  split
  · exact endCycle_manual _
  split
  · exact endCycle_manual _
  dsimp only
  split
  · exact askCanSync_manual _
  · rfl

theorem runCycle_length (request : AutoSyncRequest) (host : HostAnswers) :
    (s.runCycle o request host).orchestrator.cycles.length = s.orchestrator.cycles.length := by
  unfold AutoSync.runCycle
  split
  · exact endCycle_length _
  split
  · exact endCycle_length _
  split
  · exact endCycle_length _
  dsimp only
  split
  · rw [askCanSync_orchestrator]
  · rfl

theorem orchestrate_manual (next : Orchestrator AutoSyncRequest Unit Unit) (host : HostAnswers) :
    (s.orchestrate o next host).manual = s.manual := by
  unfold AutoSync.orchestrate
  dsimp only
  split
  · split
    · rfl
    · exact runCycle_manual _ _
  · rfl

theorem requestAutoSync_manual (minIntervalMs : Option Rat) (source : String) (internalRetry : Bool)
    (host : HostAnswers) :
    (s.requestAutoSync o minIntervalMs source internalRetry host).manual = s.manual := by
  obtain ⟨-, -, hmanual, -⟩ := noteSuspended_fields (s := s) host
  unfold AutoSync.requestAutoSync
  dsimp only
  split
  · exact hmanual
  split
  · exact hmanual
  · rw [orchestrate_manual, hmanual]

theorem requestSync_manual {minIntervalMs : Option Rat} {host : HostAnswers} {r : ManualRequest}
    (hr : r ∈ s.manual) : r ∈ (s.requestSync o minIntervalMs host).manual := by
  unfold AutoSync.requestSync
  dsimp only
  split
  · rw [orchestrate_manual]
    exact List.mem_cons_of_mem _ hr
  · exact List.mem_cons_of_mem _ hr

theorem noteResult_manual (result : SyncResult) : (s.noteResult o result).manual = s.manual := by
  unfold AutoSync.noteResult
  split
  · rfl
  · split <;> rfl

theorem pace_fields (cycle : RunningCycle) (host : HostAnswers) :
    (s.pace o cycle host).manual = s.manual ∧
      (s.pace o cycle host).orchestrator.inFlight = s.orchestrator.inFlight ∧
      (s.pace o cycle host).orchestrator.cycles = s.orchestrator.cycles := by
  unfold AutoSync.pace
  split
  · dsimp only
    split
    · exact ⟨rfl, rfl, rfl⟩
    · split <;> exact ⟨rfl, rfl, rfl⟩
  · exact ⟨rfl, rfl, rfl⟩

theorem manual_kept {e : AutoSyncEvent} (h : autoSyncStep o s e = some t) {r : ManualRequest}
    (hr : r ∈ s.manual) : r ∈ t.manual := by
  have hresume : ∀ e, (s.running.bind fun cycle => s.resume o cycle e) = some t → t.manual = s.manual := by
    intro e h
    obtain ⟨cycle, -, h⟩ := Option.bind_eq_some_iff.1 h
    cases e with
    | suspensionAnswered answer =>
      obtain ⟨-, h⟩ := Option.ite_none_right_eq_some.1 h
      obtain rfl := Option.some.inj h
      rcases answer with e | _ | _
      · exact endCycle_manual _
      · exact askCanSync_manual _
      · exact endCycle_manual _
    | canSyncAnswered answer =>
      obtain ⟨-, h⟩ := Option.ite_none_right_eq_some.1 h
      obtain rfl := Option.some.inj h
      rcases answer with e | _ | _
      · exact endCycle_manual _
      · exact endCycle_manual _
      · rfl
    | flushed =>
      obtain ⟨-, h⟩ := Option.ite_none_right_eq_some.1 h
      obtain rfl := Option.some.inj h
      rfl
    | performed answer host =>
      obtain ⟨-, h⟩ := Option.ite_none_right_eq_some.1 h
      obtain rfl := Option.some.inj h
      rcases answer with e | result
      · exact endCycle_manual _
      · exact (endCycle_manual _).trans ((pace_fields cycle host).1.trans (noteResult_manual _))
    | _ => cases h
  cases e with
  | setClock nowMs => exact Option.some.inj h ▸ hr
  | requestSync minIntervalMs host => exact Option.some.inj h ▸ requestSync_manual hr
  | requestAutoSync minIntervalMs source host =>
    obtain rfl := Option.some.inj h
    rwa [requestAutoSync_manual]
  | retryTimer host =>
    obtain ⟨source, -, rfl⟩ := Option.map_eq_some_iff.1 h
    rwa [requestAutoSync_manual]
  | cycleFinally host =>
    simp only [autoSyncStep] at h
    split at h
    · obtain rfl := Option.some.inj h
      rwa [orchestrate_manual]
    · cases h
  | handleSuspend =>
    obtain rfl := Option.some.inj h
    split <;> exact hr
  | notifyExternalSyncSuccess => exact Option.some.inj h ▸ hr
  | takePendingSuspendedRequest => exact Option.some.inj h ▸ hr
  | _ => exact hresume _ h ▸ hr

/-! ### Every undisturbed request is served -/

/-- The awaits of a cycle and the callback of `finally`. -/
def cycleEvents : Set AutoSyncEvent :=
  {e | (∃ answer, e = .suspensionAnswered answer) ∨ (∃ answer, e = .canSyncAnswered answer) ∨
    e = .flushed ∨ (∃ answer host, e = .performed answer host) ∨ ∃ host, e = .cycleFinally host}

/-- How many awaits the cycle may still pass. -/
def awaitsLeft : Option RunningCycle → Nat
  | none => 0
  | some cycle =>
    match cycle.phase with
    | .suspension => 4
    | .canSync => 3
    | .flushing => 2
    | .performing => 1

/-- The cycle in flight, and the whole of the next one while the request waits for it. -/
def stepsLeft (r : ManualRequest) (s : AutoSync) : Nat :=
  (if r.seen = s.orchestrator.cycles.length then 10 else 0) + awaitsLeft s.running

theorem awaitsLeft_askCanSync (cycle : RunningCycle) : awaitsLeft (s.askCanSync o cycle).running ≤ 3 := by
  unfold AutoSync.askCanSync
  split
  · exact le_refl _
  · exact Nat.le_succ _

/-- An await that is over brings the cycle nearer to its end. -/
theorem resume_progress {cycle : RunningCycle} {e : AutoSyncEvent} (hs : AutoSyncInv s)
    (hrunning : s.running = some cycle) (h : s.resume o cycle e = some t) :
    t.orchestrator.cycles.length = s.orchestrator.cycles.length ∧
      awaitsLeft t.running < awaitsLeft s.running := by
  have hflight : s.orchestrator.inFlight.isSome := by
    obtain ⟨c, -, hc, -⟩ := hs.running (by simp [hrunning])
    simp [hc]
  have hends : ∀ (u : AutoSync) outcome, u.orchestrator.inFlight.isSome → 0 < awaitsLeft s.running →
      awaitsLeft (u.endCycle outcome).running < awaitsLeft s.running := by
    intro u outcome hu hpos
    rw [endCycle_running hu]
    exact hpos
  rw [hrunning] at hends ⊢
  cases e with
  | suspensionAnswered answer =>
    obtain ⟨hphase, h⟩ := Option.ite_none_right_eq_some.1 h
    obtain rfl := Option.some.inj h
    have hleft : awaitsLeft (some cycle) = 4 := by simp only [awaitsLeft, hphase]
    rw [hleft] at hends ⊢
    rcases answer with e | _ | _
    · exact ⟨endCycle_length _, hends _ _ hflight (by omega)⟩
    · refine ⟨congrArg (·.cycles.length) (askCanSync_orchestrator cycle), ?_⟩
      exact Nat.lt_succ_of_le (awaitsLeft_askCanSync cycle)
    · exact ⟨endCycle_length _, hends _ _ hflight (by omega)⟩
  | canSyncAnswered answer =>
    obtain ⟨hphase, h⟩ := Option.ite_none_right_eq_some.1 h
    obtain rfl := Option.some.inj h
    have hleft : awaitsLeft (some cycle) = 3 := by simp only [awaitsLeft, hphase]
    rw [hleft] at hends ⊢
    rcases answer with e | _ | _
    · exact ⟨endCycle_length _, hends _ _ hflight (by omega)⟩
    · exact ⟨endCycle_length _, hends _ _ hflight (by omega)⟩
    · exact ⟨rfl, Nat.lt_succ_self _⟩
  | flushed =>
    obtain ⟨hphase, h⟩ := Option.ite_none_right_eq_some.1 h
    obtain rfl := Option.some.inj h
    have hleft : awaitsLeft (some cycle) = 2 := by simp only [awaitsLeft, hphase]
    rw [hleft]
    exact ⟨rfl, Nat.lt_succ_self _⟩
  | performed answer host =>
    obtain ⟨hphase, h⟩ := Option.ite_none_right_eq_some.1 h
    obtain rfl := Option.some.inj h
    have hleft : awaitsLeft (some cycle) = 1 := by simp only [awaitsLeft, hphase]
    rw [hleft] at hends ⊢
    rcases answer with e | result
    · exact ⟨endCycle_length _, hends _ _ hflight (by omega)⟩
    · have hnoted := noteResult_orchestrator (o := o) (s := s) result
      obtain ⟨-, hflight', hcycles⟩ := pace_fields (o := o) (s := s.noteResult o result) cycle host
      refine ⟨?_, hends _ _ (by rw [hflight', hnoted]; exact hflight) (by omega)⟩
      rw [endCycle_length, hcycles, hnoted]
  | _ => cases h

theorem requestAutoSync_busy (h : s.orchestrator.inFlight.isSome) (minIntervalMs : Option Rat)
    (source : String) (internalRetry : Bool) (host : HostAnswers) :
    (s.requestAutoSync o minIntervalMs source internalRetry host).orchestrator.cycles = s.orchestrator.cycles ∧
      (s.requestAutoSync o minIntervalMs source internalRetry host).running = s.running := by
  obtain ⟨horchestrator, hrunning, -⟩ := noteSuspended_fields (s := s) host
  have hcycles := congrArg (·.cycles) horchestrator
  unfold AutoSync.requestAutoSync
  dsimp only
  split
  · exact ⟨hcycles, hrunning⟩
  split
  · exact ⟨hcycles, hrunning⟩
  · rw [orchestrate_run_busy (by rw [horchestrator]; exact h)]
    exact ⟨hcycles, hrunning⟩

/-- Nothing but the cycle itself moves it. -/
theorem busy_step {e : AutoSyncEvent} (hflight : s.orchestrator.inFlight.isSome) (he : e ∉ cycleEvents)
    (h : autoSyncStep o s e = some t) :
    t.orchestrator.cycles = s.orchestrator.cycles ∧ t.running = s.running := by
  cases e with
  | setClock nowMs => exact Option.some.inj h ▸ ⟨rfl, rfl⟩
  | requestSync minIntervalMs host =>
    obtain rfl := Option.some.inj h
    unfold AutoSync.requestSync
    dsimp only
    split
    · rw [orchestrate_run_busy (by exact hflight)]
      exact ⟨rfl, rfl⟩
    · exact ⟨rfl, rfl⟩
  | requestAutoSync minIntervalMs source host =>
    exact Option.some.inj h ▸ requestAutoSync_busy hflight _ _ _ _
  | retryTimer host =>
    obtain ⟨source, -, rfl⟩ := Option.map_eq_some_iff.1 h
    exact requestAutoSync_busy (by exact hflight) _ _ _ _
  | handleSuspend =>
    obtain rfl := Option.some.inj h
    split <;> exact ⟨rfl, rfl⟩
  | notifyExternalSyncSuccess => exact Option.some.inj h ▸ ⟨rfl, rfl⟩
  | takePendingSuspendedRequest => exact Option.some.inj h ▸ ⟨rfl, rfl⟩
  | suspensionAnswered answer => exact absurd (.inl ⟨answer, rfl⟩) he
  | canSyncAnswered answer => exact absurd (.inr (.inl ⟨answer, rfl⟩)) he
  | flushed => exact absurd (.inr (.inr (.inl rfl))) he
  | performed answer host => exact absurd (.inr (.inr (.inr (.inl ⟨answer, host, rfl⟩)))) he
  | cycleFinally host => exact absurd (.inr (.inr (.inr (.inr ⟨host, rfl⟩)))) he

/-- The callback of `finally` starts the cycle that a request waits for. -/
theorem cycleFinally_starts {host : HostAnswers} (hs : AutoSyncInv s) {r : ManualRequest}
    (hwaits : s.Waits r) (h : autoSyncStep o s (.cycleFinally host) = some t) :
    r.seen < t.orchestrator.cycles.length := by
  simp only [autoSyncStep] at h
  split at h
  · rename_i arg outcome hcycle
    obtain rfl := Option.some.inj h
    obtain ⟨hseen, -, request, hmem, -⟩ := hwaits
    have hqueued : s.orchestrator.queuedArg = some request := hmem
    have hfull : s.orchestrator.queued = true := by rw [hs.queued, hqueued]; rfl
    have hcycles : (s.orchestrator.cycleFinally arg 0).cycles =
        s.orchestrator.cycles ++ [⟨some request, none⟩] := by
      simp [Orchestrator.cycleFinally, hfull, hs.noDelay, hqueued, startQueuedRun, Orchestrator.run,
        startCycle]
    rw [orchestrate_started hcycles, runCycle_length]
    show r.seen < (s.orchestrator.cycleFinally arg 0).cycles.length
    rw [hcycles, List.length_append, List.length_singleton]
    omega
  · cases h

/-- Until the request is served each step of the cycle brings it nearer, and no other step delays it. -/
theorem step_progress {e : AutoSyncEvent} {r : ManualRequest} (hs : AutoSyncInv s) (hr : r ∈ s.manual)
    (hduring : r.duringCycle = true) (hunserved : ¬ s.Served r) (hok : Undisturbed o s e)
    (h : autoSyncStep o s e = some t) (ht : ¬ t.Served r) :
    stepsLeft r t < stepsLeft r s ∨ (e ∉ cycleEvents ∧ stepsLeft r t = stepsLeft r s) := by
  have hkept := (hs.kept r hr hduring).resolve_left hunserved
  have hflight : s.orchestrator.inFlight.isSome := by
    rcases hkept with hwaits | ⟨-, cycle, hrunning, -⟩
    · exact hwaits.2.1
    · obtain ⟨c, -, hc, -⟩ := hs.running (by simp [hrunning])
      simp [hc]
  have hresume : ∀ e, (s.running.bind fun cycle => s.resume o cycle e) = some t →
      stepsLeft r t < stepsLeft r s := by
    intro e h
    obtain ⟨cycle, hrunning, h⟩ := Option.bind_eq_some_iff.1 h
    obtain ⟨hlength, hless⟩ := resume_progress hs hrunning h
    simp only [stepsLeft, hlength]
    omega
  by_cases he : e ∈ cycleEvents
  · left
    rcases he with ⟨answer, rfl⟩ | ⟨answer, rfl⟩ | rfl | ⟨answer, host, rfl⟩ | ⟨host, rfl⟩
    · exact hresume _ h
    · exact hresume _ h
    · exact hresume _ h
    · exact hresume _ h
    · have hended : s.running = none := by
        by_contra hne
        obtain ⟨c, arg, hc, hcycle⟩ := hs.running (Option.isSome_iff_ne_none.2 hne)
        simp only [autoSyncStep, hc, Option.bind_some, hcycle] at h
        cases h
      have hwaits : s.Waits r := by
        refine hkept.resolve_right ?_
        rintro ⟨-, cycle, hrunning, -⟩
        cases hended.symm.trans hrunning
      have hstarts := cycleFinally_starts hs hwaits h
      have hnext := ((hs.step hok h).kept r (manual_kept h hr) hduring).resolve_left ht
      rcases hnext with hagain | ⟨-, cycle, hrunning, -, hphase⟩
      · exact absurd hagain.1 (by omega)
      · have hleft : awaitsLeft (some cycle) ≤ 3 := by
          rcases hphase with hphase | hphase <;> simp [awaitsLeft, hphase]
        rw [stepsLeft, stepsLeft, if_neg (by omega), if_pos hwaits.1, hrunning, hended]
        omega
  · obtain ⟨hcycles, hrunning⟩ := busy_step hflight he h
    exact .inr ⟨he, by rw [stepsLeft, stepsLeft, hcycles, hrunning]⟩

theorem cycle_enabled {r : ManualRequest} (hs : AutoSyncInv s) (h : s.Waits r ∨ s.Serves r) :
    Enabled (autoSyncStep o) cycleEvents s := by
  cases hrunning : s.running with
  | none =>
    have hflight : s.orchestrator.inFlight.isSome := by
      rcases h with hwaits | ⟨-, cycle, hcycle, -⟩
      · exact hwaits.2.1
      · cases hrunning.symm.trans hcycle
    obtain ⟨c, hc⟩ := Option.isSome_iff_exists.1 hflight
    obtain ⟨arg, outcome, hcycle⟩ := hs.ended c hc hrunning
    refine ⟨.cycleFinally ⟨false, false, 0⟩, .inr (.inr (.inr (.inr ⟨_, rfl⟩))), ?_⟩
    simp [autoSyncStep, hc, hcycle]
  | some cycle =>
    cases hphase : cycle.phase with
    | suspension =>
      refine ⟨.suspensionAnswered (.error ()), .inl ⟨_, rfl⟩, ?_⟩
      simp [autoSyncStep, hrunning, AutoSync.resume, hphase]
    | canSync =>
      refine ⟨.canSyncAnswered (.error ()), .inr (.inl ⟨_, rfl⟩), ?_⟩
      simp [autoSyncStep, hrunning, AutoSync.resume, hphase]
    | flushing =>
      refine ⟨.flushed, .inr (.inr (.inl rfl)), ?_⟩
      simp [autoSyncStep, hrunning, AutoSync.resume, hphase]
    | performing =>
      refine ⟨.performed (.error ()) ⟨false, false, 0⟩, .inr (.inr (.inr (.inl ⟨_, _, rfl⟩))), ?_⟩
      simp [autoSyncStep, hrunning, AutoSync.resume, hphase]

end

theorem autoSyncInv_of_reaches {o : AutoSyncOptions} {nowMs : Rat} {s : AutoSync}
    (h : Reaches (autoSyncStep o) (Undisturbed o) (AutoSync.init nowMs) s) : AutoSyncInv s :=
  h.invariant (autoSyncInv_init nowMs) fun _ _ _ ha hok hab => ha.step hok hab

theorem leadsTo_served {o : AutoSyncOptions} {nowMs : Rat}
    {run : InfiniteRun (autoSyncStep o) (Undisturbed o) (AutoSync.init nowMs)}
    (hfair : run.FairTo cycleEvents) {r : ManualRequest} (hduring : r.duringCycle = true) :
    run.LeadsTo (fun s => AutoSyncInv s ∧ r ∈ s.manual) (fun s => s.Served r) := by
  have hunserved : run.LeadsTo (fun s => AutoSyncInv s ∧ r ∈ s.manual ∧ ¬ s.Served r)
      (fun s => s.Served r) := by
    refine InfiniteRun.leadsTo_of_rank (stepsLeft r) hfair ?_ ?_ ?_
    · rintro s ⟨hs, hr, hnot⟩
      exact cycle_enabled hs ((hs.kept r hr hduring).resolve_left hnot)
    · rintro s e t ⟨hs, hr, hnot⟩ hok h
      by_cases ht : t.Served r
      · exact .inr ht
      · refine .inl ⟨⟨hs.step hok h, manual_kept h hr, ht⟩, ?_⟩
        rcases step_progress hs hr hduring hnot hok h ht with hless | ⟨-, hsame⟩
        · exact hless.le
        · exact hsame.le
    · rintro s e t ⟨hs, hr, hnot⟩ he hok h
      by_cases ht : t.Served r
      · exact .inr ht
      · refine .inl ⟨⟨hs.step hok h, manual_kept h hr, ht⟩, ?_⟩
        rcases step_progress hs hr hduring hnot hok h ht with hless | ⟨hother, -⟩
        · exact hless
        · exact absurd he hother
  intro i hi
  by_cases hserved : (run.state i).Served r
  · exact ⟨i, le_refl i, hserved⟩
  · exact hunserved i ⟨hi.1, hi.2, hserved⟩

/-- In an undisturbed run a manual request made while a cycle is in flight has been served by a cycle that
started after it, or waits for the cycle in flight, or is the one that cycle serves past the cooldown; and
when awaits are answered it is served. -/
theorem manual_sync_served (o : AutoSyncOptions) (nowMs : Rat) :
    (∀ s, Reaches (autoSyncStep o) (Undisturbed o) (AutoSync.init nowMs) s →
      ∀ r ∈ s.manual, r.duringCycle = true → s.Served r ∨ s.Waits r ∨ s.Serves r) ∧
    ∀ run : InfiniteRun (autoSyncStep o) (Undisturbed o) (AutoSync.init nowMs),
      run.FairTo cycleEvents → ∀ i, ∀ r ∈ (run.state i).manual, r.duringCycle = true →
        ∃ j ≥ i, (run.state j).Served r := by
  refine ⟨fun s hs => (autoSyncInv_of_reaches hs).kept, fun run hfair i r hr hduring => ?_⟩
  exact leadsTo_served hfair hduring i ⟨autoSyncInv_of_reaches (run.reaches i), hr⟩

/-- The host of the desktop application, active throughout. -/
def activeHost : HostAnswers := ⟨true, false, 5000⟩

/-- An automatic cycle is at `performSync` when the user asks for a sync. -/
def manualDuringCycle : List AutoSyncEvent :=
  [.requestAutoSync none "focus" activeHost, .suspensionAnswered (.ok false), .canSyncAnswered (.ok true),
    .flushed, .requestSync (some 0) activeHost]

def failedCycle : List AutoSyncEvent :=
  [.performed (.ok ⟨false, none, false⟩) activeHost, .cycleFinally activeHost]

/-- The cycle fails, and the request is served during the cooldown. -/
theorem manual_sync_served_in_cooldown :
    ∃ run : InfiniteRun (autoSyncStep ⟨true, 60000, 600000, none, false⟩)
        (Undisturbed ⟨true, 60000, 600000, none, false⟩) (AutoSync.init 100000),
      run.FairTo cycleEvents ∧ ∃ r ∈ (run.state 5).manual, r.duringCycle = true ∧
        (run.state 7).inCooldown = true ∧ ∃ j ≥ 5, (run.state j).Served r := by
  let o : AutoSyncOptions := ⟨true, 60000, 600000, none, false⟩
  let events := manualDuringCycle ++ failedCycle ++ [.canSyncAnswered (.ok true), .flushed,
    .performed (.ok ⟨true, none, false⟩) activeHost, .cycleFinally activeHost]
  have hmeets : ∀ i < events.length, ∀ e ∈ events[i]?,
      Undisturbed o (replayState (autoSyncStep o) (AutoSync.init 100000) events i) e := by
    decide +kernel
  have hok : ∀ (i : Nat) e, events[i]? = some e →
      Undisturbed o (replayState (autoSyncStep o) (AutoSync.init 100000) events i) e := fun i e he =>
    hmeets i (List.getElem?_eq_some_iff.mp he).1 e he
  have hidle : (runEvents (autoSyncStep o) (AutoSync.init 100000) events).any (fun s =>
      decide (s.running = none ∧ s.orchestrator.inFlight = none)) = true := by
    decide +kernel
  obtain ⟨s, hs, hend⟩ := (Option.any_eq_true _ _).mp hidle
  obtain ⟨hrunning, hflight⟩ := of_decide_eq_true hend
  have hfair : (replay hs hok).FairTo cycleEvents := by
    refine replay_fairTo hs hok ?_
    rintro ⟨e, ⟨answer, rfl⟩ | ⟨answer, rfl⟩ | rfl | ⟨answer, host, rfl⟩ | ⟨host, rfl⟩, h⟩ <;>
      simp [autoSyncStep, hrunning, hflight] at h
  have hmem : (⟨1, true⟩ : ManualRequest) ∈
      (replayState (autoSyncStep o) (AutoSync.init 100000) events 5).manual := by
    decide +kernel
  have hcooldown : (replayState (autoSyncStep o) (AutoSync.init 100000) events 7).inCooldown = true := by
    decide +kernel
  exact ⟨_, hfair, _, hmem, rfl, hcooldown, (manual_sync_served o 100000).2 _ hfair 5 _ hmem rfl⟩

/-- A blur after the manual request replaces it in the queue: the follow-up stops in the cooldown and
nothing is left in the queue. -/
theorem automatic_request_replaces_manual :
    ∃ s, Reaches (autoSyncStep ⟨true, 60000, 600000, none, false⟩) (fun _ _ => True)
        (AutoSync.init 100000) s ∧
      ∃ r ∈ s.manual, r.duringCycle = true ∧ ¬ s.Served r ∧ s.orchestrator.inFlight = none ∧
        s.orchestrator.queued = false ∧ s.inCooldown = true := by
  have hrun : (runEvents (autoSyncStep ⟨true, 60000, 600000, none, false⟩) (AutoSync.init 100000)
      (manualDuringCycle ++ [.requestAutoSync none "blur" activeHost] ++ failedCycle ++
        [.cycleFinally activeHost])).any (fun s => decide (s.manual = [⟨1, true⟩] ∧ s.performed = [0] ∧
      s.orchestrator.inFlight = none ∧ s.orchestrator.queued = false ∧ s.inCooldown = true)) = true := by
    decide +kernel
  obtain ⟨s, hs, hp⟩ := reaches_of_any hrun
  obtain ⟨hmanual, hperformed, hflight, hqueued, hcooldown⟩ := of_decide_eq_true hp
  refine ⟨s, hs, ⟨1, true⟩, by simp [hmanual], rfl, ?_, hflight, hqueued, hcooldown⟩
  rintro ⟨c, hc, hle⟩
  rw [hperformed, List.mem_singleton] at hc
  subst hc
  exact absurd hle (by decide)

end Mindwtr.Sync
