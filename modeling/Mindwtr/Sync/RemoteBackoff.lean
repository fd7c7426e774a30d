import Mindwtr.Lib.System
import Mindwtr.Sync.SyncCycle

/-!
# The backoff of the remote write

A failed remote write is recorded with a time before which no cycle is to call the remote. The record is
read behind the mark `pendingRemoteWriteAt`, which the path that leaves the local document as it is does
not set: a failure there is recorded and never waited for (`unmarked_retry_ignored`). In every run without
such a failure the backoff is honoured (`remote_backoff_honoured`).
-/

namespace Mindwtr.Sync

open Mindwtr.Js Mindwtr.Lib CycleState

variable {D : Type} {host : CycleHost D} {s t : CycleState D}

/-- No remote write fails, local aborts apart, on the path without the mark. The clock does not go back,
and the hook after a local abort clears the fields. -/
def MarkedFailures (s : CycleState D) : CycleEvent D → Prop
  | .start nowMs => s.nowMs ≤ nowMs
  | .writeRemote _ (some error) =>
    ∀ finalData, s.wait = .writeRemoteOnly finalData → isLocalSyncAbortError error = true
  | .clearedAfterAbort (some stored) => stored.pending = .empty
  | _ => True

/-- The recorded number of failures. -/
def CountIs (pending : PendingRemoteWrite) (failures : Nat) : Prop :=
  pending.pendingRemoteWriteAttempts =
    if failures = 0 then none else some (.num (min failures pendingRemoteWriteMaxAttempts : Nat))

def RetryIs (pending : PendingRemoteWrite) (ms : Int) : Prop :=
  pending.pendingRemoteWriteRetryAt = some (.at ms)

def IsMarked (pending : PendingRemoteWrite) : Prop := isValidTimestamp pending.pendingRemoteWriteAt = true

/-- The recorded time is over. -/
def Ready (s : CycleState D) : Prop := ∀ ms, s.recordedRetryAt = some ms → ms ≤ s.nowMs

/-- What holds while the cycle waits for a call. -/
def BackoffWait (s : CycleState D) : Prop :=
  match s.wait with
  | .idle | .readLocal => True
  | .flushPendingLocal pending | .rereadLocal pending =>
    Ready s ∧ pending.attempts = min s.failures pendingRemoteWriteMaxAttempts
  | .readRemote _ none | .prepareRemoteWrite _ none => Ready s ∧ s.failures = 0 ∧ ¬ IsMarked s.stored.pending
  | .readRemote _ (some pending) | .prepareRemoteWrite _ (some pending) =>
    Ready s ∧ pending.attempts = min s.failures pendingRemoteWriteMaxAttempts
  | .writeRemoteOnly _ | .persistSyncStatusOnly _ => Ready s ∧ s.failures = 0 ∧ ¬ IsMarked s.stored.pending
  | .recordRetryOnly _ => False
  | .writeLocalFlagged data | .writeRemote data =>
    Ready s ∧ CountIs data.pending s.failures ∧ data.pending.pendingRemoteWriteRetryAt = none ∧
      IsMarked data.pending
  | .recordRetry data =>
    Ready s ∧ CountIs data.pending (s.failures + 1) ∧ IsMarked data.pending ∧
      RetryIs data.pending (s.nowMs + backoffMs (min (s.failures + 1) pendingRemoteWriteMaxAttempts))
  | .writeLocalFinal data _ => Ready s ∧ data.pending = .empty
  | .clearAfterLocalAbort _ => Ready s

structure BackoffInv (s : CycleState D) : Prop where
  count : CountIs s.stored.pending s.failures
  marked : s.failures ≠ 0 ∨ s.stored.pending.pendingRemoteWriteRetryAt ≠ none → IsMarked s.stored.pending
  recorded : ∀ ms, s.recordedRetryAt = some ms → s.failures ≠ 0
  gate : ∀ ms, s.recordedRetryAt = some ms → ms ≤ s.nowMs ∨ RetryIs s.stored.pending ms
  calls : ∀ call ∈ s.remoteCalls, ∀ ms, call.recordedRetryAt = some ms → ms ≤ call.startedAt
  cleared : ∀ status skippedLocal, s.result = some (.written status skippedLocal) →
    s.stored.pending.pendingRemoteWriteRetryAt = none ∧ s.stored.pending.pendingRemoteWriteAttempts = none
  running : s.wait ≠ .idle → s.result = none
  wait : BackoffWait s

theorem backoffInv_init {stored : SyncDocument D} (remote : D) (nowMs : Int)
    (hretry : stored.pending.pendingRemoteWriteRetryAt = none)
    (hattempts : stored.pending.pendingRemoteWriteAttempts = none) :
    BackoffInv (CycleState.init stored remote nowMs) where
  count := hattempts
  marked h := by
    rcases h with h | h
    · exact absurd rfl h
    · exact absurd hretry h
  recorded ms h := by cases h
  gate ms h := by cases h
  calls call h := by cases h
  cleared status skippedLocal h := by cases h
  running h := absurd rfl h
  wait := trivial

/-! ### The record -/

theorem attemptCount_of_countIs {data : SyncDocument D} {failures : Nat} (h : CountIs data.pending failures) :
    getPendingRemoteWriteAttemptCount data = min failures pendingRemoteWriteMaxAttempts := by
  unfold getPendingRemoteWriteAttemptCount
  rw [h]
  by_cases h0 : failures = 0
  · simp [h0]
  · rw [if_neg h0]
    have hfloor (attempts : Nat) : (attempts : Rat).floor.toNat = attempts := by
      rw [show (attempts : Rat) = ((attempts : Int) : Rat) from rfl, Rat.floor_intCast, Int.toNat_natCast]
    exact hfloor _

theorem countIs_withFlag (data : SyncDocument D) (pendingAt : Int) (failures : Nat) :
    CountIs (withPendingRemoteWriteFlag data pendingAt
      (some (min failures pendingRemoteWriteMaxAttempts))).pending failures := by
  by_cases h0 : failures = 0
  · simp [CountIs, withPendingRemoteWriteFlag, h0]
  · have hpos : 0 < min failures pendingRemoteWriteMaxAttempts := by
      simp only [pendingRemoteWriteMaxAttempts]
      omega
    revert hpos
    rw [CountIs, if_neg h0]
    generalize min failures pendingRemoteWriteMaxAttempts = attempts
    intro hpos
    simp [withPendingRemoteWriteFlag, Option.filter, hpos]

theorem countIs_withRetry {data : SyncDocument D} {failures : Nat} (h : CountIs data.pending failures)
    (nowMs : Int) (error : Thrown) :
    CountIs (withPendingRemoteWriteRetry data nowMs error).pending (failures + 1) ∧
      RetryIs (withPendingRemoteWriteRetry data nowMs error).pending
        (nowMs + backoffMs (min (failures + 1) pendingRemoteWriteMaxAttempts)) := by
  have hnext : min (min failures pendingRemoteWriteMaxAttempts + 1) pendingRemoteWriteMaxAttempts =
      min (failures + 1) pendingRemoteWriteMaxAttempts := by
    omega
  constructor
  · simp [CountIs, withPendingRemoteWriteRetry, attemptCount_of_countIs h, hnext]
  · simp [RetryIs, withPendingRemoteWriteRetry, attemptCount_of_countIs h, hnext]

theorem pending_clear_of_marked {data : SyncDocument D} (h : IsMarked data.pending) :
    (clearPendingRemoteWriteFlag data).pending = .empty := by
  unfold clearPendingRemoteWriteFlag
  rw [if_neg]
  rintro ⟨hmark | hmark, -⟩ <;> simp [IsMarked, hmark, isValidTimestamp] at h

/-- The delay does not shrink as failures are counted. -/
theorem backoffMs_mono {m n : Nat} (h : m ≤ n) : backoffMs m ≤ backoffMs n := by
  have hpow : (2 : Int) ^ (m - 1) ≤ 2 ^ (n - 1) := pow_le_pow_right₀ (by norm_num) (by omega)
  have hbase : pendingRemoteWriteRetryBaseMs * 2 ^ (m - 1) ≤ pendingRemoteWriteRetryBaseMs * 2 ^ (n - 1) :=
    mul_le_mul_of_nonneg_left hpow (by decide)
  exact min_le_min (le_refl _) hbase

/-! ### Steps -/

/-- A step that leaves what is recorded as it is. -/
theorem BackoffInv.move (hs : BackoffInv s) (hpending : t.stored.pending = s.stored.pending)
    (hnow : t.nowMs = s.nowMs) (hfailures : t.failures = s.failures)
    (hrecorded : t.recordedRetryAt = s.recordedRetryAt) (hcalls : t.remoteCalls = s.remoteCalls)
    (hresult : t.result = s.result) (hbusy : s.wait ≠ .idle) (ht : BackoffWait t) : BackoffInv t where
  count := by rw [hpending, hfailures]; exact hs.count
  marked := by rw [hpending, hfailures]; exact hs.marked
  recorded := by rw [hrecorded, hfailures]; exact hs.recorded
  gate := by rw [hrecorded, hnow, hpending]; exact hs.gate
  calls := by rw [hcalls]; exact hs.calls
  cleared := by rw [hresult, hpending]; exact hs.cleared
  running _ := hresult.trans (hs.running hbusy)
  wait := ht

theorem BackoffInv.toIdle (hs : BackoffInv s) : BackoffInv (s.await .idle) :=
  ⟨hs.count, hs.marked, hs.recorded, hs.gate, hs.calls, hs.cleared, fun h => absurd rfl h, trivial⟩

/-- A call of the remote by a cycle that may make it. -/
theorem BackoffInv.call (hs : BackoffInv s) (hready : Ready s) : BackoffInv s.noteRemoteCall where
  count := hs.count
  marked := hs.marked
  recorded := hs.recorded
  gate := hs.gate
  calls call hcall ms hms := by
    rcases List.mem_cons.1 hcall with rfl | hcall
    · exact hready ms hms
    · exact hs.calls call hcall ms hms
  cleared := hs.cleared
  running := hs.running
  wait := hs.wait

theorem BackoffInv.start (hs : BackoffInv s) {nowMs : Int} (hclock : s.nowMs ≤ nowMs) :
    BackoffInv (s.start nowMs) :=
  ⟨hs.count, hs.marked, hs.recorded, fun ms h => (hs.gate ms h).imp_left fun hle => hle.trans hclock,
    hs.calls, nofun, fun _ => rfl, trivial⟩

/-- A cycle goes on after its first read only when the recorded time is over. -/
theorem BackoffInv.afterReadLocal (hs : BackoffInv s) (hwait : s.wait = .readLocal) (content : D) :
    BackoffInv (s.afterReadLocal content) := by
  have hbusy : s.wait ≠ .idle := by rw [hwait]; nofun
  have hcount : getPendingRemoteWriteAttemptCount { s.stored with content } =
      min s.failures pendingRemoteWriteMaxAttempts := attemptCount_of_countIs hs.count
  unfold CycleState.afterReadLocal
  dsimp only
  split
  · split
    · refine ⟨hs.count, hs.marked, hs.recorded, hs.gate, hs.calls, ?_, fun h => absurd rfl h, trivial⟩
      intro status skippedLocal h
      cases h
    · rename_i hblocked
      refine hs.move rfl rfl rfl rfl rfl rfl hbusy ⟨fun ms hms => ?_, hcount⟩
      rcases hs.gate ms hms with hle | hretry
      · exact hle
      · unfold getPendingRemoteWriteBlockedMs at hblocked
        rw [RetryIs] at hretry
        simp only [hretry] at hblocked
        show ms ≤ s.nowMs
        omega
  · rename_i hunmarked
    have hnot : ¬ IsMarked s.stored.pending := by
      intro h
      unfold IsMarked isValidTimestamp at h
      split at h
      · rename_i ms hms
        exact hunmarked ms hms
      · cases h
    have hzero : s.failures = 0 := by
      by_contra hne
      exact hnot (hs.marked (.inl hne))
    refine hs.move rfl rfl rfl rfl rfl rfl hbusy ⟨fun ms hms => ?_, hzero, hnot⟩
    exact absurd hzero (hs.recorded ms hms)

theorem BackoffInv.reread (hs : BackoffInv s) {pending : PendingRemoteWriteMeta}
    (hwait : s.wait = .rereadLocal pending) (localData : SyncDocument D) :
    BackoffInv (s.await (.readRemote localData (some pending))) := by
  have hinv := hs.wait
  rw [BackoffWait, hwait] at hinv
  exact hs.move rfl rfl rfl rfl rfl rfl (by rw [hwait]; nofun) hinv

theorem BackoffInv.afterReadRemote (hs : BackoffInv s) {localData : SyncDocument D}
    {pending : Option PendingRemoteWriteMeta} (hwait : s.wait = .readRemote localData pending) (remote : D) :
    BackoffInv (s.afterReadRemote host localData pending remote) := by
  have hinv := hs.wait
  rw [BackoffWait, hwait] at hinv
  unfold CycleState.afterReadRemote
  split
  · exact hs.toIdle
  · refine hs.move rfl rfl rfl rfl rfl rfl (by rw [hwait]; nofun) ?_
    cases pending with
    | none => exact hinv
    | some pending => exact hinv

theorem BackoffInv.afterPrepare (hs : BackoffInv s) {finalData data : SyncDocument D}
    {pending : Option PendingRemoteWriteMeta} (hwait : s.wait = .prepareRemoteWrite data pending)
    (unchanged : Bool) : BackoffInv (s.afterPrepare finalData pending unchanged) := by
  have hinv := hs.wait
  have hbusy : s.wait ≠ .idle := by rw [hwait]; nofun
  rw [BackoffWait, hwait] at hinv
  unfold CycleState.afterPrepare
  cases pending with
  | none =>
    obtain ⟨hready, hzero, hunmarked⟩ := hinv
    split
    · exact hs.move rfl rfl rfl rfl rfl rfl hbusy ⟨hready, hzero, hunmarked⟩
    · refine hs.move rfl rfl rfl rfl rfl rfl hbusy ⟨hready, ?_, rfl, rfl⟩
      show CountIs _ s.failures
      rw [hzero]
      rfl
  | some pending =>
    obtain ⟨hready, hattempts⟩ := hinv
    rw [if_neg (by simp)]
    refine hs.move rfl rfl rfl rfl rfl rfl hbusy ⟨hready, ?_, rfl, rfl⟩
    simp only [Option.map_some, hattempts]
    exact countIs_withFlag _ _ _

/-- The record after a document with the mark and the count has been stored. -/
theorem BackoffInv.storeFlagged (hs : BackoffInv s) {data : SyncDocument D}
    (hwait : s.wait = .writeLocalFlagged data) {effect : Bool} {wait : CycleWait D}
    (ht : BackoffWait ((s.store host effect data).await wait)) :
    BackoffInv ((s.store host effect data).await wait) := by
  have hinv := hs.wait
  have hbusy : s.wait ≠ .idle := by rw [hwait]; nofun
  rw [BackoffWait, hwait] at hinv
  obtain ⟨hready, hcount, hretry, hmarked⟩ := hinv
  cases effect with
  | false => exact hs.move rfl rfl rfl rfl rfl rfl hbusy ht
  | true =>
    refine ⟨hcount, fun _ => hmarked, hs.recorded, fun ms hms => .inl (hready ms hms), hs.calls, ?_,
      fun _ => hs.running hbusy, ht⟩
    intro status skippedLocal h
    cases (hs.running hbusy).symm.trans h

/-- A failure is recorded: one more, and a later time. -/
theorem BackoffInv.storeRetry (hs : BackoffInv s) {data : SyncDocument D} (hwait : s.wait = .recordRetry data)
    (effect : Bool) : BackoffInv ((s.storeRetry host effect data).await .idle) := by
  have hinv := hs.wait
  have hbusy : s.wait ≠ .idle := by rw [hwait]; nofun
  rw [BackoffWait, hwait] at hinv
  obtain ⟨hready, hcount, hmarked, hretry⟩ := hinv
  cases effect with
  | false => exact hs.toIdle
  | true =>
    have hrecorded : (s.storeRetry host true data).recordedRetryAt =
        some (s.nowMs + backoffMs (min (s.failures + 1) pendingRemoteWriteMaxAttempts)) := by
      rw [RetryIs] at hretry
      simp only [CycleState.storeRetry, if_true, hretry]
    refine ⟨hcount, fun _ => hmarked, fun _ _ => Nat.succ_ne_zero _, ?_, hs.calls, ?_, fun h => absurd rfl h,
      trivial⟩
    · intro ms hms
      obtain rfl := Option.some.inj (hrecorded.symm.trans hms)
      exact .inr hretry
    · intro status skippedLocal h
      cases (hs.running hbusy).symm.trans h

/-- Nothing is recorded and the fields are cleared. -/
theorem backoffInv_cleared (hs : BackoffInv s) (hpending : t.stored.pending = .empty)
    (hfailures : t.failures = 0) (hrecorded : t.recordedRetryAt = none) (hcalls : t.remoteCalls = s.remoteCalls)
    (hrunning : t.wait ≠ .idle → t.result = none) (ht : BackoffWait t) : BackoffInv t where
  count := by rw [hpending, hfailures]; rfl
  marked h := by
    rw [hpending, hfailures] at h
    rcases h with h | h <;> exact absurd rfl h
  recorded ms h := by rw [hrecorded] at h; cases h
  gate ms h := by rw [hrecorded] at h; cases h
  calls := by rw [hcalls]; exact hs.calls
  cleared _ _ _ := by rw [hpending]; exact ⟨rfl, rfl⟩
  running := hrunning
  wait := ht

theorem BackoffInv.writeLocal (hs : BackoffInv s) {effect : Bool} {failure : Option Thrown}
    (h : s.writeLocal host effect failure = some t) : BackoffInv t := by
  have hinv := hs.wait
  unfold CycleState.writeLocal at h
  split at h
  · rename_i data hwait
    rw [BackoffWait, hwait] at hinv
    exact hinv.elim
  · rename_i data hwait
    exact Option.some.inj h ▸ hs.storeRetry hwait effect
  · rename_i data hwait
    rw [BackoffWait, hwait] at hinv
    split at h
    · exact Option.some.inj h ▸ hs.storeFlagged hwait trivial
    · exact Option.some.inj h ▸ hs.storeFlagged hwait hinv
  · rename_i data pendingAt hwait
    have hbusy : s.wait ≠ .idle := by rw [hwait]; nofun
    rw [BackoffWait, hwait] at hinv
    have hnext : ∀ (u : CycleState D) (b : Bool), Ready u →
        BackoffWait (u.await (if b then .clearAfterLocalAbort pendingAt else .idle)) := by
      intro u b hu
      cases b with
      | false => trivial
      | true => exact hu
    split at h
    · exact Option.some.inj h ▸ backoffInv_cleared hs hinv.2 rfl rfl rfl (fun h => absurd rfl h) trivial
    · obtain rfl := Option.some.inj h
      cases effect with
      | false => exact hs.move rfl rfl rfl rfl rfl rfl hbusy (hnext _ _ hinv.1)
      | true =>
        refine backoffInv_cleared hs hinv.2 rfl rfl rfl (fun _ => hs.running hbusy) (hnext _ _ ?_)
        intro ms hms
        cases hms
  · cases h

theorem BackoffInv.writeRemote (hs : BackoffInv s) {effect : Bool} {failure : Option Thrown}
    (hok : MarkedFailures s (.writeRemote effect failure)) (h : s.writeRemote effect failure = some t) :
    BackoffInv t := by
  have hinv := hs.wait
  unfold CycleState.writeRemote at h
  split at h
  · rename_i data hwait
    have hbusy : s.wait ≠ .idle := by rw [hwait]; nofun
    rw [BackoffWait, hwait] at hinv
    have hcalled := hs.call hinv.1
    dsimp only at h
    split at h
    · exact Option.some.inj h ▸ hcalled.move rfl rfl rfl rfl rfl rfl hbusy hinv
    · rename_i error
      obtain rfl := Option.some.inj h
      rw [if_pos (hok data hwait)]
      exact hcalled.move rfl rfl rfl rfl rfl rfl hbusy trivial
  · rename_i data hwait
    have hbusy : s.wait ≠ .idle := by rw [hwait]; nofun
    rw [BackoffWait, hwait] at hinv
    obtain ⟨hready, hcount, hretry, hmarked⟩ := hinv
    have hcalled := hs.call hready
    dsimp only at h
    split at h
    · exact Option.some.inj h ▸ hcalled.move rfl rfl rfl rfl rfl rfl hbusy
        ⟨hready, pending_clear_of_marked hmarked⟩
    · rename_i error
      obtain rfl := Option.some.inj h
      refine hcalled.move rfl rfl rfl rfl rfl rfl hbusy ?_
      split
      · exact hready
      · obtain ⟨hcount', hretry'⟩ := countIs_withRetry hcount s.nowMs error
        exact ⟨hready, hcount', hmarked, hretry'⟩
  · cases h

theorem BackoffInv.step (hs : BackoffInv s) {e : CycleEvent D} (hok : MarkedFailures s e)
    (h : cycleStep host s e = some t) : BackoffInv t := by
  have hinv := hs.wait
  unfold cycleStep at h
  split at h
  · exact Option.some.inj h ▸ hs.start hok
  · exact Option.some.inj h ▸ hs.toIdle
  · exact Option.some.inj h ▸ hs.toIdle
  · rename_i hwait
    exact Option.some.inj h ▸ hs.afterReadLocal hwait _
  · rename_i hwait
    exact Option.some.inj h ▸ hs.reread hwait _
  · exact Option.some.inj h ▸ hs.toIdle
  · rename_i hwait
    rw [BackoffWait, hwait] at hinv
    exact Option.some.inj h ▸ hs.move rfl rfl rfl rfl rfl rfl (by rw [hwait]; nofun) hinv
  · rename_i localData pending hwait
    have hready : Ready s := by
      rw [BackoffWait, hwait] at hinv
      cases pending with
      | none => exact hinv.1
      | some pending => exact hinv.1
    exact Option.some.inj h ▸ (hs.call hready).toIdle
  · rename_i localData pending hwait
    have hready : Ready s := by
      rw [BackoffWait, hwait] at hinv
      cases pending with
      | none => exact hinv.1
      | some pending => exact hinv.1
    exact Option.some.inj h ▸ (hs.call hready).afterReadRemote hwait _
  · exact Option.some.inj h ▸ hs.toIdle
  · rename_i hwait
    exact Option.some.inj h ▸ hs.afterPrepare hwait _
  · exact hs.writeLocal h
  · exact hs.writeRemote hok h
  · rename_i effect finalData hwait
    rw [BackoffWait, hwait] at hinv
    obtain ⟨-, hzero, hunmarked⟩ := hinv
    obtain rfl := Option.some.inj h
    have hretry : s.stored.pending.pendingRemoteWriteRetryAt = none := by
      by_contra hne
      exact hunmarked (hs.marked (.inr hne))
    have hcount : CountIs s.stored.pending 0 := hzero ▸ hs.count
    have hpending : (if effect then { s.stored with
        lastSyncStatus := finalData.lastSyncStatus, lastSyncError := finalData.lastSyncError }
        else s.stored).pending = s.stored.pending := by
      cases effect <;> rfl
    refine ⟨?_, ?_, nofun, nofun, hs.calls, ?_, fun h => absurd rfl h, trivial⟩
    · exact hpending ▸ hcount
    · rintro (h | h)
      · exact absurd rfl h
      · exact absurd (hpending ▸ hretry) h
    · intro _ _ _
      exact ⟨hpending ▸ hretry, hpending ▸ hcount⟩
  · rename_i hwait
    obtain rfl := Option.some.inj h
    split
    · exact hs.toIdle
    · exact backoffInv_cleared hs hok rfl rfl rfl (fun h => absurd rfl h) trivial
  · exact Option.some.inj h ▸ hs.toIdle
  · cases h

/-! ### Runs -/

/-- A cycle that starts before the recorded time returns after its first read. -/
theorem BackoffInv.skips (hs : BackoffInv s) {ms : Int} (hms : s.recordedRetryAt = some ms) (hearly : s.nowMs < ms)
    (content : D) : s.afterReadLocal content = s.done (.skipped (ms - s.nowMs) (pausedMessage (ms - s.nowMs))) := by
  have hretry : RetryIs s.stored.pending ms := by
    rcases hs.gate ms hms with hle | hretry
    · omega
    · exact hretry
  have hmarked : IsMarked s.stored.pending := hs.marked (.inl (hs.recorded ms hms))
  rw [RetryIs] at hretry
  unfold CycleState.afterReadLocal
  dsimp only
  split
  · have hblocked : getPendingRemoteWriteBlockedMs { s.stored with content } s.nowMs = ms - s.nowMs := by
      simp only [getPendingRemoteWriteBlockedMs, hretry]
      omega
    rw [hblocked, if_pos (by omega)]
  · rename_i hunmarked
    unfold IsMarked isValidTimestamp at hmarked
    split at hmarked
    · rename_i at' hat
      exact absurd hat (hunmarked at')
    · cases hmarked

/-- What the backoff promises in a state: the remote has been called only by cycles that started at the
recorded time or later, an earlier one is skipped, the count is that of the failures since the last success
and is one higher in the next record, and a successful write has cleared the record. -/
structure BackoffHonoured (s : CycleState D) : Prop where
  calls : ∀ call ∈ s.remoteCalls, ∀ ms, call.recordedRetryAt = some ms → ms ≤ call.startedAt
  skips : s.wait = .readLocal → ∀ ms, s.recordedRetryAt = some ms → s.nowMs < ms → ∀ content,
    s.afterReadLocal content = s.done (.skipped (ms - s.nowMs) (pausedMessage (ms - s.nowMs)))
  count : getPendingRemoteWriteAttemptCount s.stored = min s.failures pendingRemoteWriteMaxAttempts
  grows : ∀ data, s.wait = .recordRetry data →
    getPendingRemoteWriteAttemptCount data = min (s.failures + 1) pendingRemoteWriteMaxAttempts ∧
      RetryIs data.pending (s.nowMs + backoffMs (getPendingRemoteWriteAttemptCount data))
  cleared : ∀ status skippedLocal, s.result = some (.written status skippedLocal) →
    s.stored.pending.pendingRemoteWriteRetryAt = none ∧ s.stored.pending.pendingRemoteWriteAttempts = none

theorem BackoffInv.honoured (hs : BackoffInv s) : BackoffHonoured s where
  calls := hs.calls
  skips _ _ hms hearly content := hs.skips hms hearly content
  count := attemptCount_of_countIs hs.count
  grows data hwait := by
    have hinv := hs.wait
    rw [BackoffWait, hwait] at hinv
    obtain ⟨-, hcount, -, hretry⟩ := hinv
    rw [attemptCount_of_countIs hcount]
    exact ⟨rfl, hretry⟩
  cleared := hs.cleared

/-- In a run without a failure on the path that sets no mark the backoff is honoured, and its delay does
not shrink as failures are counted. -/
theorem remote_backoff_honoured {stored : SyncDocument D} {remote : D} {nowMs : Int}
    (hretry : stored.pending.pendingRemoteWriteRetryAt = none)
    (hattempts : stored.pending.pendingRemoteWriteAttempts = none)
    (h : Reaches (cycleStep host) MarkedFailures (CycleState.init stored remote nowMs) s) :
    BackoffHonoured s ∧ ∀ m n, m ≤ n → backoffMs m ≤ backoffMs n := by
  have hs : BackoffInv s :=
    h.invariant (backoffInv_init remote nowMs hretry hattempts) fun _ _ _ ha hok hab => ha.step hok hab
  exact ⟨hs.honoured, fun _ _ => backoffMs_mono⟩

/-- Contents as lists of ids; the merge adds what the remote holds. -/
def addingHost : CycleHost (List Nat) := ⟨fun ids => ids, fun ids remoteIds => some (ids ++ remoteIds, "success")⟩

def freshDocument : SyncDocument (List Nat) := ⟨[], none, none, .empty⟩

def offline : Thrown := .error "Error" "offline"

/-- A cycle stores what it has merged and fails to write it back; the next one starts a second later. -/
theorem reaches_backedOff : ∃ s, Reaches (cycleStep addingHost) MarkedFailures
    (CycleState.init freshDocument [1] 0) s ∧ s.wait = .readLocal ∧ s.nowMs = 1000 ∧
      s.recordedRetryAt = some 5000 := by
  have hstart : MarkedFailures (CycleState.init freshDocument [1] 0) (.start 0) := Int.le_refl _
  have h1 : Reaches (cycleStep addingHost) MarkedFailures (CycleState.init freshDocument [1] 0) _ :=
    .step .refl hstart rfl
  have h2 := h1.step (show MarkedFailures _ (.readLocal (.ok [])) from trivial) rfl
  have h3 := h2.step (show MarkedFailures _ (.readRemote (.ok [1])) from trivial) rfl
  have h4 := h3.step (show MarkedFailures _
    (.prepared (.ok ⟨[1], some "success", none, .empty⟩) false) from trivial) rfl
  have h5 := h4.step (show MarkedFailures _ (.writeLocal true none) from trivial) rfl
  have h6 := h5.step (show MarkedFailures _ (.writeRemote false (some offline)) from fun _ h => by cases h) rfl
  have h7 := h6.step (show MarkedFailures _ (.writeLocal true none) from trivial) rfl
  have h8 := h7.step (show MarkedFailures _ (.start 1000) from (by decide : (0 : Int) ≤ 1000)) rfl
  exact ⟨_, h8, rfl, rfl, rfl⟩

theorem remote_backoff_honoured_backed_off : ∃ s : CycleState (List Nat),
    s.afterReadLocal [1] = s.done (.skipped 4000 (pausedMessage 4000)) ∧
      getPendingRemoteWriteAttemptCount s.stored = min s.failures pendingRemoteWriteMaxAttempts := by
  obtain ⟨s, hs, hwait, hnow, hretry⟩ := reaches_backedOff
  have honoured := (remote_backoff_honoured rfl rfl hs).1
  have hskips := honoured.skips hwait 5000 hretry (by omega) [1]
  rw [hnow] at hskips
  exact ⟨s, hskips, honoured.count⟩

/-- The merge leaves the local document as it is and the remote write fails: the time is recorded without
the mark, and the next cycle calls the remote four seconds before it. -/
theorem unmarked_retry_ignored : ∃ s, Reaches (cycleStep addingHost) (fun _ _ => True)
    (CycleState.init freshDocument [] 0) s ∧ ⟨1000, some 5000⟩ ∈ s.remoteCalls ∧
      s.stored.pending.pendingRemoteWriteRetryAt = some (.at 5000) := by
  have hrun : ((runEvents (cycleStep addingHost) (CycleState.init freshDocument [] 0)
      [.start 0, .readLocal (.ok []), .readRemote (.ok []),
        .prepared (.ok ⟨[], some "success", none, .empty⟩) true, .writeRemote false (some offline),
        .writeLocal true none, .start 1000, .readLocal (.ok []), .readRemote (.ok [])]).any fun s =>
      decide (⟨1000, some 5000⟩ ∈ s.remoteCalls) &&
        decide (s.stored.pending.pendingRemoteWriteRetryAt = some (.at 5000))) = true := by
    decide +kernel
  obtain ⟨s, hs, hp⟩ := reaches_of_any hrun
  rw [Bool.and_eq_true, decide_eq_true_eq, decide_eq_true_eq] at hp
  exact ⟨s, hs, hp⟩

end Mindwtr.Sync
