import Mindwtr.Lib.Fair
import Mindwtr.Sync.Orchestrator

/-!
# The orchestrator loses no request

In every reachable state at most one cycle runs, and a request made while a cycle was in flight has been
followed by the start of a cycle or is still queued, with a cycle in flight or a timer armed
(`OrchestratorInv`). In a run where cycles settle, their `finally` callbacks run and armed timers fire or
are cancelled, every such request is followed by a cycle that starts later, and every promise that `run`
returned settles (`orchestrator_serves`).
-/

namespace Mindwtr.Sync

open Mindwtr.Lib

variable {Arg Result Error : Type}

namespace Orchestrator

/-- `runCycle` has been called for the cycle and has not settled. -/
def Running (s : Orchestrator Arg Result Error) (c : Nat) : Prop := ∃ arg, s.cycles[c]? = some ⟨arg, none⟩

def Settled (s : Orchestrator Arg Result Error) (c : Nat) : Prop :=
  ∃ arg outcome, s.cycles[c]? = some ⟨arg, some outcome⟩

/-- A queued request that something will still pick up. -/
def Pending (s : Orchestrator Arg Result Error) : Prop :=
  s.queued = true ∧ (s.inFlight.isSome ∨ s.followUpTimer.isSome)

end Orchestrator

open Orchestrator

/-- The promise of a request is the one of the cycle in flight, or of the cycle the request starts. -/
structure PromiseInv (started : Nat) (r : OrchestratorRequest) : Prop where
  seen_le : r.seen ≤ started
  during_lt : ∀ d, r.during = some d → d < r.seen
  returned_lt : ∀ c, r.returned = some c → c < started
  returned_during : ∀ c d, r.returned = some c → r.during = some d → c = d
  returned_new : ∀ c, r.returned = some c → r.during = none → r.seen ≤ c

structure OrchestratorInv (s : Orchestrator Arg Result Error) : Prop where
  last : ∀ c, s.inFlight = some c → c + 1 = s.cycles.length
  running : ∀ c, s.Running c → s.inFlight = some c
  timer : s.followUpTimer.isSome → s.inFlight = none ∧ s.queued = true
  promised : ∀ r ∈ s.requests, PromiseInv s.cycles.length r
  served : ∀ r ∈ s.requests, r.during.isSome → r.seen < s.cycles.length ∨ s.Pending

theorem orchestratorInv_init : OrchestratorInv (init : Orchestrator Arg Result Error) where
  last c h := by cases h
  running c h := by
    obtain ⟨arg, h⟩ := h
    cases h
  timer h := by cases h
  promised r h := by cases h
  served r h := by cases h

theorem PromiseInv.mono {m n : Nat} {r : OrchestratorRequest} (h : PromiseInv m r) (hmn : m ≤ n) :
    PromiseInv n r where
  seen_le := h.seen_le.trans hmn
  during_lt := h.during_lt
  returned_lt c hc := lt_of_lt_of_le (h.returned_lt c hc) hmn
  returned_during := h.returned_during
  returned_new := h.returned_new

section
variable {s t : Orchestrator Arg Result Error}

theorem orchestratorInv_requestFollowUp (hs : OrchestratorInv s) (hcycles : t.cycles = s.cycles)
    (hflight : t.inFlight = s.inFlight) (htimer : t.followUpTimer = s.followUpTimer)
    (hrequests : t.requests = s.requests) (hqueued : t.queued = true) : OrchestratorInv t where
  last c h := by rw [hcycles]; exact hs.last c (hflight ▸ h)
  running c h := by
    rw [hflight]
    exact hs.running c (by simpa only [Running, hcycles] using h)
  timer h := by
    rw [hflight, hqueued]
    exact ⟨(hs.timer (htimer ▸ h)).1, rfl⟩
  promised r h := by rw [hcycles]; exact hs.promised r (hrequests ▸ h)
  served r h hduring := by
    rw [hcycles]
    rcases hs.served r (hrequests ▸ h) hduring with hlt | ⟨-, hpending⟩
    · exact .inl hlt
    · exact .inr ⟨hqueued, by rw [hflight, htimer]; exact hpending⟩

/-- A cycle starts where none runs; it serves every request made before. -/
theorem orchestratorInv_startCycle (hidle : ∀ c, ¬ s.Running c)
    (hpromised : ∀ r ∈ s.requests, PromiseInv s.cycles.length r) (arg : Option Arg) :
    OrchestratorInv (s.startCycle arg) where
  last c h := by
    obtain rfl := Option.some.inj h
    simp [startCycle]
  running c h := by
    obtain ⟨arg', h⟩ := h
    simp only [startCycle, List.getElem?_append] at h
    split at h
    · exact absurd ⟨arg', h⟩ (hidle c)
    · have hc : c - s.cycles.length = 0 := by
        have := (List.getElem?_eq_some_iff.1 h).1
        simpa using this
      show some s.cycles.length = some c
      congr 1
      omega
  timer h := by cases h
  promised r h := (hpromised r h).mono (by simp [startCycle])
  served r h _ := .inl (by
    have := (hpromised r h).seen_le
    simp only [startCycle, List.length_append, List.length_singleton]
    omega)

theorem OrchestratorInv.idle (hs : OrchestratorInv s) (h : s.inFlight = none) (c : Nat) : ¬ s.Running c := by
  intro hrunning
  rw [hs.running c hrunning] at h
  cases h

theorem OrchestratorInv.run (hs : OrchestratorInv s) (arg : Option Arg) : OrchestratorInv (s.run arg) := by
  unfold Orchestrator.run
  split
  · exact orchestratorInv_requestFollowUp hs rfl rfl rfl rfl rfl
  · rename_i h
    exact orchestratorInv_startCycle (hs.idle (by simpa using h)) hs.promised arg

theorem OrchestratorInv.settle (hs : OrchestratorInv s) (c : Nat) (outcome : Except Error Result) :
    OrchestratorInv (s.settle c outcome) where
  last d h := by simpa [Orchestrator.settle] using hs.last d h
  running d h := by
    obtain ⟨arg, h⟩ := h
    simp only [Orchestrator.settle, List.getElem?_modify] at h
    split at h
    · obtain ⟨cycle, -, hcycle⟩ := Option.map_eq_some_iff.1 h
      cases congrArg Cycle.outcome hcycle
    · exact hs.running d ⟨arg, by simpa using h⟩
  timer := hs.timer
  promised r h := by simpa [Orchestrator.settle] using hs.promised r h
  served r h hduring := by simpa [Orchestrator.settle, Pending] using hs.served r h hduring

/-- The queued run starts where no cycle runs and one is queued. -/
theorem startQueuedRun_eq {cycleArg : Option Arg} (hflight : s.inFlight = none) (hqueued : s.queued = true) :
    s.startQueuedRun cycleArg = s.startCycle (s.queuedArg.or cycleArg) := by
  simp [startQueuedRun, hflight, hqueued, Orchestrator.run, startCycle]

theorem OrchestratorInv.cycleFinally (hs : OrchestratorInv s) {c : Nat} (hflight : s.inFlight = some c)
    (hsettled : s.Settled c) (cycleArg : Option Arg) (hostDelayMs : Rat) :
    OrchestratorInv (s.cycleFinally cycleArg hostDelayMs) := by
  have hidle : ∀ d, ¬ s.Running d := by
    rintro d hrunning
    obtain rfl := Option.some.inj (hflight.symm.trans (hs.running d hrunning))
    obtain ⟨arg, harg⟩ := hrunning
    obtain ⟨arg', outcome, h⟩ := hsettled
    cases harg.symm.trans h
  unfold Orchestrator.cycleFinally
  dsimp only
  split
  · rename_i hqueued
    split
    · refine ⟨nofun, fun d h => absurd h (hidle d), fun _ => ⟨rfl, hqueued⟩, hs.promised, ?_⟩
      intro r _ _
      exact .inr ⟨hqueued, .inr rfl⟩
    · rw [startQueuedRun_eq (by rfl) (by exact hqueued)]
      exact orchestratorInv_startCycle (by exact hidle) (by exact hs.promised) _
  · rename_i hqueued
    refine ⟨nofun, fun d h => absurd h (hidle d), ?_, hs.promised, ?_⟩
    · intro h
      exact absurd (hs.timer h).2 hqueued
    · intro r h hduring
      refine (hs.served r h hduring).imp (fun h => h) fun hpending => ?_
      exact absurd hpending.1 hqueued

theorem OrchestratorInv.timerFires (hs : OrchestratorInv s) {cycleArg : Option Arg}
    (h : s.followUpTimer = some cycleArg) : OrchestratorInv (s.startQueuedRun cycleArg) := by
  obtain ⟨hflight, hqueued⟩ := hs.timer (by rw [h]; rfl)
  rw [startQueuedRun_eq hflight hqueued]
  exact orchestratorInv_startCycle (hs.idle hflight) hs.promised _

theorem OrchestratorInv.noteRequest (ht : OrchestratorInv t) {returned : Option Nat}
    (hpromised : PromiseInv t.cycles.length ⟨s.cycles.length, s.inFlight, returned⟩)
    (hserved : s.inFlight.isSome → s.cycles.length < t.cycles.length ∨ t.Pending) :
    OrchestratorInv (s.noteRequest t returned) where
  last := ht.last
  running := ht.running
  timer := ht.timer
  promised r h := by
    rcases List.mem_cons.1 h with rfl | h
    · exact hpromised
    · exact ht.promised r h
  served r h hduring := by
    rcases List.mem_cons.1 h with rfl | h
    · exact hserved hduring
    · exact ht.served r h hduring

/-- A follow-up asked for while a cycle is in flight waits in the queue. -/
theorem OrchestratorInv.noteFollowUp (hs : OrchestratorInv s) (hcycles : t.cycles = s.cycles)
    (hflight : t.inFlight = s.inFlight) (htimer : t.followUpTimer = s.followUpTimer)
    (hrequests : t.requests = s.requests) (hqueued : t.queued = true) :
    OrchestratorInv (s.noteRequest t none) := by
  have ht := orchestratorInv_requestFollowUp hs hcycles hflight htimer hrequests hqueued
  refine ht.noteRequest ⟨by rw [hcycles], ?_, nofun, nofun, nofun⟩ fun h => ?_
  · intro d hd
    have := hs.last d hd
    show d < s.cycles.length
    omega
  · exact .inr ⟨hqueued, .inl (by rw [hflight]; exact h)⟩

theorem OrchestratorInv.noteRun (hs : OrchestratorInv s) (arg : Option Arg) :
    OrchestratorInv (s.noteRequest (s.run arg) (s.run arg).inFlight) := by
  have ht := hs.run arg
  by_cases h : s.inFlight.isSome
  · obtain ⟨c, hc⟩ := Option.isSome_iff_exists.1 h
    have hrun : s.run arg = s.requestFollowUp arg := if_pos h
    have hlast := hs.last c hc
    rw [hrun] at ht ⊢
    refine ht.noteRequest ⟨le_refl _, ?_, ?_, ?_, ?_⟩ fun _ => .inr ⟨rfl, .inl h⟩
    · rintro d hd
      obtain rfl := Option.some.inj (hc.symm.trans hd)
      show c < s.cycles.length
      omega
    · rintro d hd
      obtain rfl := Option.some.inj (hc.symm.trans hd)
      show c < s.cycles.length
      omega
    · rintro d e hd he
      exact Option.some.inj (hd.symm.trans he)
    · rintro d - hnone
      cases hc.symm.trans hnone
  · have hnone : s.inFlight = none := by simpa using h
    have hrun : s.run arg = s.startCycle arg := if_neg h
    rw [hrun] at ht ⊢
    refine ht.noteRequest ⟨by simp [startCycle], ?_, ?_, ?_, ?_⟩ fun h' => absurd h' h
    · rintro d hd
      cases hnone.symm.trans hd
    · rintro d hd
      obtain rfl := Option.some.inj hd
      simp [startCycle]
    · rintro d e - he
      cases hnone.symm.trans he
    · rintro d hd -
      obtain rfl := Option.some.inj hd
      exact le_refl _

theorem settle_step {c : Nat} {outcome : Except Error Result}
    (h : orchestratorStep s (.settle c outcome) = some t) : s.Running c ∧ t = s.settle c outcome := by
  simp only [orchestratorStep] at h
  split at h
  · rename_i arg hc
    exact ⟨⟨arg, hc⟩, (Option.some.inj h).symm⟩
  · cases h

theorem OrchestratorInv.step (hs : OrchestratorInv s) {e : OrchestratorEvent Arg Result Error}
    (h : orchestratorStep s e = some t) : OrchestratorInv t := by
  cases e with
  | run arg => exact Option.some.inj h ▸ hs.noteRun arg
  | requestFollowUp nextArg => exact Option.some.inj h ▸ hs.noteFollowUp rfl rfl rfl rfl rfl
  | requestFollowUpAfter delayMs nextArg => exact Option.some.inj h ▸ hs.noteFollowUp rfl rfl rfl rfl rfl
  | cycleRequestsFollowUp c nextArg =>
    obtain ⟨cycle, -, rfl⟩ := Option.map_eq_some_iff.1 h
    exact hs.noteFollowUp rfl rfl rfl rfl rfl
  | cycleRequestsFollowUpAfter c delayMs nextArg =>
    obtain ⟨cycle, -, rfl⟩ := Option.map_eq_some_iff.1 h
    exact hs.noteFollowUp rfl rfl rfl rfl rfl
  | settle c outcome =>
    obtain ⟨-, rfl⟩ := settle_step h
    exact hs.settle c outcome
  | cycleFinally hostDelayMs =>
    simp only [orchestratorStep] at h
    split at h
    · rename_i arg outcome hcycle
      obtain ⟨c, hflight, hc⟩ := Option.bind_eq_some_iff.1 hcycle
      exact Option.some.inj h ▸ hs.cycleFinally hflight ⟨arg, outcome, hc⟩ arg hostDelayMs
    · cases h
  | followUpTimer =>
    obtain ⟨cycleArg, htimer, rfl⟩ := Option.map_eq_some_iff.1 h
    exact hs.timerFires htimer

end

theorem orchestratorInv_of_reaches {s : Orchestrator Arg Result Error}
    (h : Reaches orchestratorStep (fun _ _ => True) init s) : OrchestratorInv s :=
  h.invariant orchestratorInv_init fun _ _ _ ha _ hab => ha.step hab

/-! ### Every request is served -/

section
variable {s t : Orchestrator Arg Result Error}

/-- What a step does to the cycles and to what is pending. -/
inductive StepEffect (s : Orchestrator Arg Result Error) (e : OrchestratorEvent Arg Result Error)
    (t : Orchestrator Arg Result Error) : Prop where
  | requested (cycles : t.cycles = s.cycles) (inFlight : t.inFlight = s.inFlight)
      (timer : t.followUpTimer = s.followUpTimer) (queued : t.queued = true)
  | settled (c : Nat) (outcome : Except Error Result) (event : e = .settle c outcome)
      (running : s.Running c) (state : t = s.settle c outcome)
  | started (arg : Option Arg) (cycles : t.cycles = s.cycles ++ [⟨arg, none⟩])
  | waits (c : Nat) (inFlight : s.inFlight = some c) (settled : s.Settled c) (cycles : t.cycles = s.cycles)
      (timer : s.queued = true → t.queued = true ∧ t.followUpTimer.isSome)

theorem stepEffect_run (s : Orchestrator Arg Result Error) (e : OrchestratorEvent Arg Result Error) (arg : Option Arg) :
    StepEffect s e (s.noteRequest (s.run arg) (s.run arg).inFlight) := by
  by_cases h : s.inFlight.isSome
  · rw [show s.run arg = s.requestFollowUp arg from if_pos h]
    exact .requested rfl rfl rfl rfl
  · rw [show s.run arg = s.startCycle arg from if_neg h]
    exact .started arg rfl

theorem cycleFinally_step {hostDelayMs : Rat} (h : orchestratorStep s (.cycleFinally hostDelayMs) = some t) :
    ∃ c, s.inFlight = some c ∧ s.Settled c ∧
      ((t.cycles = s.cycles ∧ (s.queued = true → t.queued = true ∧ t.followUpTimer.isSome)) ∨
        ∃ arg, t.cycles = s.cycles ++ [⟨arg, none⟩]) := by
  simp only [orchestratorStep] at h
  split at h
  · rename_i arg outcome hcycle
    obtain ⟨c, hflight, hc⟩ := Option.bind_eq_some_iff.1 hcycle
    obtain rfl := Option.some.inj h
    refine ⟨c, hflight, ⟨arg, outcome, hc⟩, ?_⟩
    unfold Orchestrator.cycleFinally
    dsimp only
    split
    · rename_i hqueued
      split
      · exact .inl ⟨rfl, fun _ => ⟨hqueued, rfl⟩⟩
      · rw [startQueuedRun_eq (by rfl) (by exact hqueued)]
        exact .inr ⟨_, rfl⟩
    · rename_i hqueued
      exact .inl ⟨rfl, fun h => absurd h hqueued⟩
  · cases h

theorem stepEffect (hs : OrchestratorInv s) {e : OrchestratorEvent Arg Result Error}
    (h : orchestratorStep s e = some t) : StepEffect s e t := by
  cases e with
  | run arg => exact Option.some.inj h ▸ stepEffect_run s _ arg
  | requestFollowUp nextArg => exact Option.some.inj h ▸ .requested rfl rfl rfl rfl
  | requestFollowUpAfter delayMs nextArg => exact Option.some.inj h ▸ .requested rfl rfl rfl rfl
  | cycleRequestsFollowUp c nextArg =>
    obtain ⟨cycle, -, rfl⟩ := Option.map_eq_some_iff.1 h
    exact .requested rfl rfl rfl rfl
  | cycleRequestsFollowUpAfter c delayMs nextArg =>
    obtain ⟨cycle, -, rfl⟩ := Option.map_eq_some_iff.1 h
    exact .requested rfl rfl rfl rfl
  | settle c outcome =>
    obtain ⟨hrunning, ht⟩ := settle_step h
    exact .settled c outcome rfl hrunning ht
  | cycleFinally hostDelayMs =>
    obtain ⟨c, hflight, hc, hwaits | ⟨arg, hstarted⟩⟩ := cycleFinally_step h
    · exact .waits c hflight hc hwaits.1 hwaits.2
    · exact .started arg hstarted
  | followUpTimer =>
    obtain ⟨cycleArg, htimer, rfl⟩ := Option.map_eq_some_iff.1 h
    obtain ⟨hflight, hqueued⟩ := hs.timer (by rw [htimer]; rfl)
    rw [startQueuedRun_eq hflight hqueued]
    exact .started _ rfl

/-! ### What a fair run reaches -/

def settleEvents : Set (OrchestratorEvent Arg Result Error) := {e | ∃ c outcome, e = .settle c outcome}

def finallyEvents : Set (OrchestratorEvent Arg Result Error) := {e | ∃ hostDelayMs, e = .cycleFinally hostDelayMs}

/-- Cycles settle, the callbacks of `finally` run, and an armed timer fires unless it is cancelled. -/
structure FairRun (run : InfiniteRun (@orchestratorStep Arg Result Error) (fun _ _ => True) init) :
    Prop where
  settle : run.FairTo settleEvents
  cycleFinally : run.FairTo finallyEvents
  followUpTimer : run.FairTo {.followUpTimer}

theorem running_or_settled {c : Nat} (h : c < s.cycles.length) : s.Running c ∨ s.Settled c := by
  obtain ⟨⟨arg, outcome⟩, hc⟩ : ∃ cycle, s.cycles[c]? = some cycle := ⟨_, List.getElem?_eq_getElem h⟩
  cases outcome with
  | none => exact .inl ⟨arg, hc⟩
  | some outcome => exact .inr ⟨arg, outcome, hc⟩

theorem settled_settle {c : Nat} {outcome : Except Error Result} (h : s.Running c) :
    (s.settle c outcome).Settled c := by
  obtain ⟨arg, h⟩ := h
  exact ⟨arg, outcome, by simp [Orchestrator.settle, h]⟩

theorem settle_enabled [Inhabited Result] {c : Nat} (h : s.Running c) :
    Enabled (@orchestratorStep Arg Result Error) settleEvents s := by
  obtain ⟨arg, h⟩ := h
  exact ⟨.settle c (.ok default), ⟨c, _, rfl⟩, by simp [orchestratorStep, h]⟩

theorem running_kept {c : Nat} {e : OrchestratorEvent Arg Result Error} (hs : OrchestratorInv s)
    (h : orchestratorStep s e = some t) (hc : s.Running c) : t.Running c ∨ t.Settled c := by
  have hlt : c < s.cycles.length := by
    obtain ⟨arg, hc⟩ := hc
    exact (List.getElem?_eq_some_iff.1 hc).1
  refine running_or_settled ?_
  cases stepEffect hs h with
  | requested cycles => rwa [cycles]
  | settled d outcome event running state => simpa [state, Orchestrator.settle] using hlt
  | started arg cycles =>
    rw [cycles, List.length_append]
    omega
  | waits d inFlight settled cycles => rwa [cycles]

theorem settled_kept {c : Nat} {e : OrchestratorEvent Arg Result Error} (hs : OrchestratorInv s)
    (h : orchestratorStep s e = some t) (hc : s.Settled c) : t.Settled c := by
  obtain ⟨arg, outcome, hc⟩ := hc
  refine ⟨arg, outcome, ?_⟩
  cases stepEffect hs h with
  | requested cycles => rwa [cycles]
  | settled d outcome' event running state =>
    have hne : d ≠ c := by
      rintro rfl
      obtain ⟨arg', hd⟩ := running
      cases hd.symm.trans hc
    rw [state]
    simp [Orchestrator.settle, hne, hc]
  | started arg' cycles => rw [cycles, List.getElem?_append_left (List.getElem?_eq_some_iff.1 hc).1, hc]
  | waits d inFlight settled cycles => rwa [cycles]

/-- A request is queued, and `n` cycles have started. -/
def Waiting (n : Nat) (s : Orchestrator Arg Result Error) : Prop :=
  OrchestratorInv s ∧ s.cycles.length = n ∧ s.queued = true

def Served (n : Nat) (s : Orchestrator Arg Result Error) : Prop := n < s.cycles.length

def TimerArmed (n : Nat) (s : Orchestrator Arg Result Error) : Prop :=
  Waiting n s ∧ s.followUpTimer.isSome

def CycleEnded (n c : Nat) (s : Orchestrator Arg Result Error) : Prop :=
  Waiting n s ∧ s.inFlight = some c ∧ s.Settled c

def CycleRuns (n c : Nat) (s : Orchestrator Arg Result Error) : Prop :=
  Waiting n s ∧ s.inFlight = some c ∧ s.Running c

theorem waiting_step {n : Nat} {e : OrchestratorEvent Arg Result Error} (hw : Waiting n s)
    (h : orchestratorStep s e = some t) :
    (Waiting n t ∧ t.inFlight = s.inFlight ∧ t.followUpTimer = s.followUpTimer) ∨ TimerArmed n t ∨
      Served n t := by
  obtain ⟨hs, rfl, hqueued⟩ := hw
  have ht := hs.step h
  cases stepEffect hs h with
  | requested cycles inFlight timer queued =>
    exact .inl ⟨⟨ht, congrArg List.length cycles, queued⟩, inFlight, timer⟩
  | settled d outcome event running state =>
    subst state
    exact .inl ⟨⟨ht, by simp [Orchestrator.settle], hqueued⟩, rfl, rfl⟩
  | started arg cycles => exact .inr (.inr (by simp [Served, cycles]))
  | waits d inFlight settled cycles timer =>
    obtain ⟨hqueued, harmed⟩ := timer hqueued
    exact .inr (.inl ⟨⟨ht, congrArg List.length cycles, hqueued⟩, harmed⟩)

section
variable {run : InfiniteRun (@orchestratorStep Arg Result Error) (fun _ _ => True) init}

theorem leadsTo_served_of_timer (hfair : FairRun run) (n : Nat) :
    run.LeadsTo (TimerArmed n) (Served n) := by
  refine InfiniteRun.leadsTo hfair.followUpTimer ?_ ?_ ?_
  · rintro s ⟨-, harmed⟩
    exact ⟨_, rfl, by simpa [orchestratorStep] using harmed⟩
  · rintro s e t ⟨hw, harmed⟩ - h
    rcases waiting_step hw h with ⟨hw, -, htimer⟩ | harmed | hserved
    · exact .inl ⟨hw, by rw [htimer]; exact harmed⟩
    · exact .inl harmed
    · exact .inr hserved
  · rintro s e t ⟨⟨hs, rfl, -⟩, -⟩ rfl - h
    obtain ⟨cycleArg, htimer, rfl⟩ := Option.map_eq_some_iff.1 h
    obtain ⟨hflight, hqueued⟩ := hs.timer (by rw [htimer]; rfl)
    rw [startQueuedRun_eq hflight hqueued]
    simp [Served, startCycle]

theorem leadsTo_served_of_ended (hfair : FairRun run) (n c : Nat) :
    run.LeadsTo (CycleEnded n c) (Served n) := by
  have hends : run.LeadsTo (CycleEnded n c) (fun s => TimerArmed n s ∨ Served n s) := by
    refine InfiniteRun.leadsTo hfair.cycleFinally ?_ ?_ ?_
    · rintro s ⟨-, hflight, arg, outcome, hc⟩
      exact ⟨_, ⟨0, rfl⟩, by simp [orchestratorStep, hflight, hc]⟩
    · rintro s e t ⟨hw, hflight, hc⟩ - h
      rcases waiting_step hw h with ⟨ht, hsame, -⟩ | hgoal
      · exact .inl ⟨ht, hsame.trans hflight, settled_kept hw.1 h hc⟩
      · exact .inr hgoal
    · rintro s e t ⟨⟨hs, rfl, hqueued⟩, -⟩ ⟨hostDelayMs, rfl⟩ - h
      obtain ⟨d, -, -, ⟨hcycles, hwaits⟩ | ⟨arg, hstarted⟩⟩ := cycleFinally_step h
      · obtain ⟨hqueued, harmed⟩ := hwaits hqueued
        exact .inl ⟨⟨hs.step h, congrArg List.length hcycles, hqueued⟩, harmed⟩
      · exact .inr (by simp [Served, hstarted])
  exact hends.trans ((leadsTo_served_of_timer hfair n).or (InfiniteRun.leadsTo_of_imp fun _ h => h))

variable [Inhabited Result]

/-- The promise of a cycle settles. -/
theorem leadsTo_settled (hfair : FairRun run) (c : Nat) :
    run.LeadsTo (fun s => OrchestratorInv s ∧ s.Running c) (fun s => s.Settled c) := by
  refine InfiniteRun.leadsTo hfair.settle (fun s h => settle_enabled h.2) ?_ ?_
  · rintro s e t ⟨hs, hc⟩ - h
    exact (running_kept hs h hc).imp (fun hc => ⟨hs.step h, hc⟩) fun hc => hc
  · rintro s e t ⟨hs, hc⟩ ⟨d, outcome, rfl⟩ - h
    obtain ⟨hd, rfl⟩ := settle_step h
    obtain rfl := Option.some.inj ((hs.running c hc).symm.trans (hs.running d hd))
    exact settled_settle hc

theorem leadsTo_served_of_runs (hfair : FairRun run) (n c : Nat) :
    run.LeadsTo (CycleRuns n c) (Served n) := by
  have hsettles : run.LeadsTo (CycleRuns n c)
      (fun s => CycleEnded n c s ∨ TimerArmed n s ∨ Served n s) := by
    refine InfiniteRun.leadsTo hfair.settle (fun s h => settle_enabled h.2.2) ?_ ?_
    · rintro s e t ⟨hw, hflight, hc⟩ - h
      rcases waiting_step hw h with ⟨ht, hsame, -⟩ | hgoal
      · exact (running_kept hw.1 h hc).imp (fun hc => ⟨ht, hsame.trans hflight, hc⟩)
          fun hc => .inl ⟨ht, hsame.trans hflight, hc⟩
      · exact .inr (.inr hgoal)
    · rintro s e t ⟨hw, hflight, hc⟩ ⟨d, outcome, rfl⟩ - h
      obtain ⟨hd, rfl⟩ := settle_step h
      obtain rfl := Option.some.inj ((hw.1.running c hc).symm.trans (hw.1.running d hd))
      exact .inl ⟨⟨hw.1.step h, by simpa [Orchestrator.settle] using hw.2.1, hw.2.2⟩, hflight,
        settled_settle hc⟩
  exact hsettles.trans ((leadsTo_served_of_ended hfair n c).or
    ((leadsTo_served_of_timer hfair n).or (InfiniteRun.leadsTo_of_imp fun _ h => h)))

/-- A request that was made while a cycle was in flight. -/
theorem served_of_request (hfair : FairRun run) {i : Nat} {r : OrchestratorRequest}
    (hr : r ∈ (run.state i).requests) (hduring : r.during.isSome) :
    ∃ j ≥ i, r.seen < (run.state j).cycles.length := by
  have hs := orchestratorInv_of_reaches (run.reaches i)
  rcases hs.served r hr hduring with hlt | ⟨hqueued, hpending⟩
  · exact ⟨i, le_refl i, hlt⟩
  · have hseen := (hs.promised r hr).seen_le
    have hw : Waiting (run.state i).cycles.length (run.state i) := ⟨hs, rfl, hqueued⟩
    have hserved : ∃ j ≥ i, Served (run.state i).cycles.length (run.state j) := by
      rcases hpending with hflight | harmed
      · obtain ⟨c, hc⟩ := Option.isSome_iff_exists.1 hflight
        have hlt : c < (run.state i).cycles.length := by
          have := hs.last c hc
          omega
        rcases running_or_settled hlt with hrunning | hsettled
        · exact leadsTo_served_of_runs hfair _ c i ⟨hw, hc, hrunning⟩
        · exact leadsTo_served_of_ended hfair _ c i ⟨hw, hc, hsettled⟩
      · exact leadsTo_served_of_timer hfair _ i ⟨hw, harmed⟩
    obtain ⟨j, hij, hj⟩ := hserved
    exact ⟨j, hij, lt_of_le_of_lt hseen hj⟩

/-- The promise that `run` returned settles. -/
theorem settled_of_returned (hfair : FairRun run) {i c : Nat} {r : OrchestratorRequest}
    (hr : r ∈ (run.state i).requests) (hc : r.returned = some c) : ∃ j ≥ i, (run.state j).Settled c := by
  have hs := orchestratorInv_of_reaches (run.reaches i)
  rcases running_or_settled ((hs.promised r hr).returned_lt c hc) with hrunning | hsettled
  · exact leadsTo_settled hfair c i ⟨hs, hrunning⟩
  · exact ⟨i, le_refl i, hsettled⟩

end

end

/-- At most one cycle runs, a request made while one is in flight is followed by the start of a cycle, and
every promise that `run` returns settles with a cycle that started no earlier than the one in flight at
the call, or with the one the call started. -/
theorem orchestrator_serves [Inhabited Result] :
    (∀ s : Orchestrator Arg Result Error, Reaches orchestratorStep (fun _ _ => True) init s →
      (∀ c d, s.Running c → s.Running d → c = d) ∧
      ∀ r ∈ s.requests, (r.during.isSome → r.seen < s.cycles.length ∨ s.Pending) ∧
        ∀ c, r.returned = some c → c < s.cycles.length ∧ (∀ d, r.during = some d → d ≤ c) ∧
          (r.during = none → r.seen ≤ c)) ∧
    ∀ run : InfiniteRun (@orchestratorStep Arg Result Error) (fun _ _ => True) init,
      FairRun run → ∀ i, ∀ r ∈ (run.state i).requests,
        (r.during.isSome → ∃ j ≥ i, r.seen < (run.state j).cycles.length) ∧
        ∀ c, r.returned = some c → ∃ j ≥ i, (run.state j).Settled c := by
  refine ⟨fun s hs => ?_, fun run hfair i r hr => ?_⟩
  · have hinv := orchestratorInv_of_reaches hs
    refine ⟨fun c d hc hd => ?_, fun r hr => ⟨hinv.served r hr, fun c hc => ?_⟩⟩
    · exact Option.some.inj ((hinv.running c hc).symm.trans (hinv.running d hd))
    · have hpromise := hinv.promised r hr
      exact ⟨hpromise.returned_lt c hc, fun d hd => (hpromise.returned_during c d hc hd).ge,
        hpromise.returned_new c hc⟩
  · exact ⟨served_of_request hfair hr, fun c hc => settled_of_returned hfair hr hc⟩

/-- Two calls of `run`, the second while the cycle of the first is in flight. -/
def twoRuns : List (OrchestratorEvent Unit Unit Unit) :=
  [.run (some ()), .run (some ()), .settle 0 (.ok ()), .cycleFinally 0, .settle 1 (.ok ()), .cycleFinally 0]

/-- The run of these calls is fair, and the second call is served. -/
theorem orchestrator_serves_two_runs :
    ∃ run : InfiniteRun (@orchestratorStep Unit Unit Unit) (fun _ _ => True) init,
      FairRun run ∧ ∃ r ∈ (run.state 2).requests, r.during.isSome ∧
        ∃ j ≥ 2, r.seen < (run.state j).cycles.length := by
  have hrun : runEvents orchestratorStep init twoRuns = some ⟨none, false, none, none, 0,
      [⟨some (), some (.ok ())⟩, ⟨some (), some (.ok ())⟩], [⟨1, some 0, some 0⟩, ⟨0, none, some 0⟩]⟩ := by
    decide +kernel
  have htrivial : ∀ (i : Nat) e, twoRuns[i]? = some e → True := fun _ _ _ => trivial
  have hfair : FairRun (replay hrun htrivial) := by
    refine ⟨replay_fairTo hrun htrivial ?_, replay_fairTo hrun htrivial ?_, replay_fairTo hrun htrivial ?_⟩
    · rintro ⟨_, ⟨c, outcome, rfl⟩, h⟩
      obtain ⟨t, ht⟩ := Option.isSome_iff_exists.mp h
      obtain ⟨⟨arg, hc⟩, -⟩ := settle_step ht
      rcases c with _ | _ | c <;> cases hc
    · rintro ⟨_, ⟨hostDelayMs, rfl⟩, h⟩
      cases h
    · rintro ⟨_, rfl, h⟩
      cases h
  have hmem : (⟨1, some 0, some 0⟩ : OrchestratorRequest) ∈
      (replayState orchestratorStep init twoRuns 2).requests := by
    decide +kernel
  exact ⟨_, hfair, _, hmem, rfl, (orchestrator_serves.2 _ hfair 2 _ hmem).1 rfl⟩

end Mindwtr.Sync
