import Mindwtr.Sync.SyncRun

/-!
# A sync run does not overwrite an edit

What a run applies to the store is derived from a snapshot of the store as it is then, or from one that the
store was found to be covered by; a run that is requeued has asked for another (`sync_run_keeps_edits`). An
edit must not land while the run asserts its fence for the last time, between its last check and
`finalizeSuccess`: that one is overwritten (`edit_at_refresh_overwritten`).
-/

namespace Mindwtr.Sync

open Mindwtr.Lib Transaction

variable {D : Type} {platform : RunPlatform D} {options : RunOptions}

/-! ### The store -/

/-- Every document was covered when it was applied, and nothing else but an edit has changed the store. -/
structure StoreInv (s : RunStore D) : Prop where
  applied : ∀ a ∈ s.applied, a.changeAt ≤ a.coveredAt
  untouched : s.applied = [] → s.content = s.edited
  bounded : ∀ snapshot, s.coveredAt snapshot ≤ s.lastDataChangeAt

/-- What is covered stays covered, and a request is not taken back. -/
structure Later (s t : RunStore D) : Prop where
  lastDataChangeAt : s.lastDataChangeAt ≤ t.lastDataChangeAt
  coveredAt : ∀ snapshot, s.coveredAt snapshot ≤ t.coveredAt snapshot
  followUp : s.followUpRequested = true → t.followUpRequested = true

theorem Later.refl (s : RunStore D) : Later s s := ⟨le_refl _, fun _ => le_refl _, fun h => h⟩

theorem Later.trans {s t u : RunStore D} (hst : Later s t) (htu : Later t u) : Later s u where
  lastDataChangeAt := le_trans hst.lastDataChangeAt htu.lastDataChangeAt
  coveredAt snapshot := le_trans (hst.coveredAt snapshot) (htu.coveredAt snapshot)
  followUp h := htu.followUp (hst.followUp h)

theorem storeInv_init (content persisted : D) (carriedAt age : Nat) :
    StoreInv (RunStore.init content persisted carriedAt age) :=
  ⟨nofun, fun _ => rfl, fun _ => Nat.le_add_right _ _⟩

theorem storeInv_edits {s : RunStore D} (hs : StoreInv s) (changes : List (D × Nat)) :
    StoreInv (s.edits changes) ∧ Later s (s.edits changes) := by
  induction changes generalizing s with
  | nil => exact ⟨hs, Later.refl s⟩
  | cons change changes ih =>
    have hstep : StoreInv (s.edit change) := by
      refine ⟨hs.applied, fun _ => rfl, fun snapshot => ?_⟩
      have := hs.bounded snapshot
      show s.coveredAt snapshot ≤ s.lastDataChangeAt + 1 + change.2
      omega
    have hlater : Later s (s.edit change) := by
      refine ⟨?_, fun _ => le_refl _, fun h => h⟩
      show s.lastDataChangeAt ≤ s.lastDataChangeAt + 1 + change.2
      omega
    obtain ⟨hinv, htail⟩ := ih hstep
    exact ⟨hinv, hlater.trans htail⟩

theorem storeInv_cover {s : RunStore D} (hs : StoreInv s) (snapshot : Nat) :
    StoreInv (s.cover snapshot) ∧ Later s (s.cover snapshot) := by
  have hle : ∀ k, s.coveredAt k ≤ (s.cover snapshot).coveredAt k := by
    intro k
    show s.coveredAt k ≤ Function.update s.coveredAt snapshot s.lastDataChangeAt k
    by_cases hk : k = snapshot
    · rw [hk, Function.update_self]
      exact hs.bounded snapshot
    · rw [Function.update_of_ne hk]
  have hbound : ∀ k, (s.cover snapshot).coveredAt k ≤ s.lastDataChangeAt := by
    intro k
    show Function.update s.coveredAt snapshot s.lastDataChangeAt k ≤ s.lastDataChangeAt
    by_cases hk : k = snapshot
    · rw [hk, Function.update_self]
    · rw [Function.update_of_ne hk]
      exact hs.bounded k
  exact ⟨⟨hs.applied, hs.untouched, hbound⟩, le_refl _, hle, fun h => h⟩

theorem coveredAt_cover (s : RunStore D) (snapshot : Nat) :
    (s.cover snapshot).coveredAt snapshot = s.lastDataChangeAt := Function.update_self _ _ _

theorem storeInv_takeSnapshot {s : RunStore D} (hs : StoreInv s) :
    StoreInv s.takeSnapshot ∧ Later s s.takeSnapshot := by
  obtain ⟨hinv, hlater⟩ := storeInv_cover hs s.nextSnapshot
  exact ⟨⟨hinv.applied, hinv.untouched, hinv.bounded⟩, hlater.lastDataChangeAt, hlater.coveredAt,
    hlater.followUp⟩

theorem storeInv_apply {s : RunStore D} (hs : StoreInv s) {document : Document D}
    (hfresh : s.lastDataChangeAt ≤ s.coveredAt document.snapshot) :
    StoreInv (s.apply document) ∧ Later s (s.apply document) := by
  refine ⟨⟨?_, nofun, hs.bounded⟩, le_refl _, fun _ => le_refl _, fun h => h⟩
  intro a ha
  rcases List.mem_cons.1 ha with rfl | ha
  · exact hfresh
  · exact hs.applied a ha

/-! ### Runs without an edit at the last assertion -/

def RunCall.isRefreshFence : RunCall D → Bool
  | .assertRemoteMutationFenceHeld step => step == "refresh"
  | _ => false

def RunChoice.quiet (choice : RunChoice D) : RunChoice D := { choice with before := [], after := [] }

/-- The port without the edits at the last assertion of the fence. -/
def RunPlatform.quietPort (platform : RunPlatform D) (op : RunCall D) (choice : RunChoice D) (s : RunStore D) :
    Except RunFailure (RunAnswer D op) × RunStore D :=
  platform.port op (if op.isRefreshFence then choice.quiet else choice) s

/-- What a run keeps: the cached documents are covered at their stamps, that of the snapshot in hand at the
stamp the run checks against, and a request that has been made is there. -/
structure RunInv (snapshot : Option Nat) (asked : Bool) (v : RunState D) (s : RunStore D) : Prop where
  cache : ∀ changeAt data, v.localDataCache = some (changeAt, data) → changeAt ≤ s.coveredAt data.snapshot
  carried : ∀ changeAt data, v.carriedIdleSnapshot = some (changeAt, data) → changeAt ≤ s.coveredAt data.snapshot
  covers : ∀ k, snapshot = some k → v.localSnapshotChangeAt ≤ s.coveredAt k
  asked : asked = true → s.followUpRequested = true

/-- An abort for a local change has asked for another run. -/
def Aborts (options : RunOptions) (snapshot : Option Nat) (asked : Bool) (e : RunError) (v : RunState D)
    (s : RunStore D) : Prop :=
  RunInv snapshot asked v s ∧
    (e = .localSyncAbort → options.activationProbe = true ∨ s.followUpRequested = true)

section
variable {snapshot : Option Nat} {asked : Bool} {v : RunState D} {s t : RunStore D}

theorem RunInv.later (h : RunInv snapshot asked v s) (hst : Later s t) : RunInv snapshot asked v t where
  cache changeAt data hcache := le_trans (h.cache changeAt data hcache) (hst.coveredAt _)
  carried changeAt data hcarried := le_trans (h.carried changeAt data hcarried) (hst.coveredAt _)
  covers k hk := le_trans (h.covers k hk) (hst.coveredAt k)
  asked hasked := hst.followUp (h.asked hasked)

theorem RunInv.forget (h : RunInv snapshot asked v s) : RunInv none asked v s :=
  ⟨h.cache, h.carried, nofun, h.asked⟩

theorem RunInv.unasked {asked' : Bool} (h : RunInv snapshot asked' v s) (hle : asked = true → asked' = true) :
    RunInv snapshot asked v s := ⟨h.cache, h.carried, h.covers, fun hasked => h.asked (hle hasked)⟩

theorem RunInv.failed (h : RunInv snapshot asked v s) (failure : RunFailure) :
    Aborts options snapshot asked (.failure failure) v s := ⟨h, nofun⟩

end

/-! ### Calls -/

theorem storeInv_awaited {A : Type} {s : RunStore D} (hs : StoreInv s) (choice : RunChoice D)
    {effect : RunStore D → RunStore D} (answer : RunStore D → A)
    (heffect : ∀ t, StoreInv t → StoreInv (effect t) ∧ Later t (effect t)) :
    StoreInv (awaited choice effect answer s).2 ∧ Later s (awaited choice effect answer s).2 := by
  obtain ⟨hbefore, hlater⟩ := storeInv_edits hs choice.before
  have hafter : ∀ t, StoreInv t → Later s t →
      StoreInv (t.edits choice.after) ∧ Later s (t.edits choice.after) := by
    intro t ht hst
    obtain ⟨hinv, htail⟩ := storeInv_edits ht choice.after
    exact ⟨hinv, hst.trans htail⟩
  obtain ⟨heff, heffLater⟩ := heffect _ hbefore
  unfold awaited
  dsimp only
  cases choice.failure with
  | none => exact hafter _ heff (hlater.trans heffLater)
  | some failure =>
    dsimp only
    split
    · exact hafter _ heff (hlater.trans heffLater)
    · exact hafter _ hbefore hlater

namespace Run

section
variable {snapshot : Option Nat} {asked : Bool} {v : RunState D} {s t : RunStore D}

/-- A call that is not awaited. -/
theorem safe_sync (op : RunCall D) {Q : RunAnswer D op → RunState D → RunStore D → Prop}
    {R : RunError → RunState D → RunStore D → Prop} (hs : StoreInv s)
    (h : ∀ choice, StoreInv (platform.port op choice s).2 ∧
      ∃ answer, (platform.port op choice s).1 = .ok answer ∧ Q answer v (platform.port op choice s).2) :
    Safe platform.quietPort StoreInv Q R (Run.call op) v s := by
  refine safe_call op hs fun choice => ?_
  obtain ⟨hinv, answer, hanswer, hq⟩ := h (if op.isRefreshFence then choice.quiet else choice)
  unfold RunPlatform.quietPort
  rw [hanswer]
  exact ⟨hinv, hq⟩

/-- A call that is awaited and leaves the store to the user. -/
theorem safe_awaited (op : RunCall D) {Q : RunAnswer D op → RunState D → RunStore D → Prop}
    (hs : StoreInv s) (hv : RunInv snapshot asked v s)
    (hport : ∀ choice, StoreInv (platform.port op choice s).2 ∧ Later s (platform.port op choice s).2)
    (hok : ∀ choice answer t, (platform.port op choice s).1 = .ok answer → Later s t → Q answer v t) :
    Safe platform.quietPort StoreInv Q (Aborts options snapshot asked) (Run.call op) v s := by
  refine safe_call op hs fun choice => ?_
  unfold RunPlatform.quietPort
  obtain ⟨hinv, hlater⟩ := hport (if op.isRefreshFence then choice.quiet else choice)
  refine ⟨hinv, ?_⟩
  cases hanswer : (platform.port op (if op.isRefreshFence then choice.quiet else choice) s).1 with
  | ok answer => exact hok _ _ _ hanswer hlater
  | error failure => exact (hv.later hlater).failed failure

theorem safe_await {what : String} (hs : StoreInv s) (hv : RunInv snapshot asked v s) :
    Safe platform.quietPort StoreInv (fun _ v' t => v = v' ∧ Later s t) (Aborts options snapshot asked)
      (await what) v s := by
  apply safe_awaited (.await what) hs hv
  · intro choice
    exact storeInv_awaited hs choice _ fun t ht => ⟨ht, Later.refl t⟩
  · intro choice answer t _ hlater
    exact ⟨rfl, hlater⟩

theorem safe_fence {step : String} (hs : StoreInv s) (hv : RunInv snapshot asked v s) :
    Safe platform.quietPort StoreInv (fun _ v t => RunInv snapshot asked v t) (Aborts options snapshot asked)
      (Run.call (.assertRemoteMutationFenceHeld step)) v s := by
  apply safe_awaited (.assertRemoteMutationFenceHeld step) hs hv
  · intro choice
    exact storeInv_awaited hs choice _ fun t ht => ⟨ht, Later.refl t⟩
  · intro choice answer t _ hlater
    exact hv.later hlater

theorem safe_readPersistedLocal (hs : StoreInv s) (hv : RunInv snapshot asked v s) :
    Safe platform.quietPort StoreInv (fun _ v' t => v = v' ∧ Later s t) (Aborts options snapshot asked)
      (Run.call .readPersistedLocal) v s := by
  apply safe_awaited .readPersistedLocal hs hv
  · intro choice
    exact storeInv_awaited hs choice _ fun t ht => ⟨ht, Later.refl t⟩
  · intro choice answer t _ hlater
    exact ⟨rfl, hlater⟩

/-- What the platform answers for a written document is derived from it. -/
theorem safe_persistLocal {data : Document D} (hs : StoreInv s) (hv : RunInv snapshot asked v s) :
    Safe platform.quietPort StoreInv
      (fun canonical v t => RunInv snapshot asked v t ∧ ∀ d, canonical = some d → d.snapshot = data.snapshot)
      (Aborts options snapshot asked) (Run.call (.persistLocal data)) v s := by
  apply safe_awaited (.persistLocal data) hs hv
  · intro choice
    refine storeInv_awaited hs choice _ fun t ht => ?_
    exact ⟨⟨ht.applied, ht.untouched, ht.bounded⟩, le_refl _, fun _ => le_refl _, fun h => h⟩
  · intro choice answer t hanswer hlater
    refine ⟨hv.later hlater, fun d hd => ?_⟩
    dsimp only [RunPlatform.port, awaited] at hanswer
    cases hfailure : choice.failure with
    | some failure =>
      rw [hfailure] at hanswer
      cases hanswer
    | none =>
      rw [hfailure] at hanswer
      cases hanswer
      obtain ⟨canonical, -, rfl⟩ := Option.map_eq_some_iff.1 hd
      rfl

theorem safe_getLastDataChangeAt {A : Type} {R : RunError → RunState D → RunStore D → Prop}
    {Q : A → RunState D → RunStore D → Prop} {f : Nat → Run D A} (hs : StoreInv s)
    (h : Safe platform.quietPort StoreInv Q R (f s.lastDataChangeAt) v s) :
    Safe platform.quietPort StoreInv Q R (Run.call .getLastDataChangeAt >>= f) v s := ⟨hs, fun _ => h⟩

theorem safe_holds {R : RunError → RunState D → RunStore D → Prop} {what : String}
    {Q : Bool → RunState D → RunStore D → Prop} (hs : StoreInv s) (h : ∀ b, Q b v s) :
    Safe platform.quietPort StoreInv Q R (holds what) v s :=
  safe_sync (.holds what) hs fun choice => ⟨hs, choice.holds, rfl, h _⟩

theorem safe_count {R : RunError → RunState D → RunStore D → Prop} {what : String}
    {Q : Nat → RunState D → RunStore D → Prop} (hs : StoreInv s) (h : ∀ n, Q n v s) :
    Safe platform.quietPort StoreInv Q R (Run.call (.count what)) v s :=
  safe_sync (.count what) hs fun choice => ⟨hs, choice.count, rfl, h _⟩

theorem safe_derive {R : RunError → RunState D → RunStore D → Prop} {step : String} {data : Document D}
    {Q : Option (Document D) → RunState D → RunStore D → Prop} (hs : StoreInv s)
    (h : ∀ derived, (∀ d, derived = some d → d.snapshot = data.snapshot) → Q derived v s) :
    Safe platform.quietPort StoreInv Q R (Run.call (.derive step data)) v s := by
  refine safe_sync (.derive step data) hs fun choice => ⟨hs, _, rfl, h _ ?_⟩
  intro d hd
  obtain ⟨derived, -, rfl⟩ := Option.map_eq_some_iff.1 hd
  rfl

/-- A snapshot of the store covers it. -/
theorem safe_getInMemorySnapshot {R : RunError → RunState D → RunStore D → Prop}
    (hs : StoreInv s) :
    Safe platform.quietPort StoreInv
      (fun document v' t => v = v' ∧ Later s t ∧ s.lastDataChangeAt ≤ t.coveredAt document.snapshot)
      R (Run.call .getInMemorySnapshot) v s := by
  obtain ⟨hinv, hlater⟩ := storeInv_takeSnapshot hs
  refine safe_sync .getInMemorySnapshot hs fun _ => ⟨hinv, ⟨s.content, s.nextSnapshot⟩, rfl, rfl, hlater, ?_⟩
  exact le_of_eq (coveredAt_cover s s.nextSnapshot).symm

theorem safe_requestFollowUp {R : RunError → RunState D → RunStore D → Prop} (hs : StoreInv s)
    (hv : RunInv snapshot asked v s) :
    Safe platform.quietPort StoreInv
      (fun _ v t => RunInv snapshot asked v t ∧ (options.activationProbe = true ∨ t.followUpRequested = true)) R
      (requestFollowUp options) v s := by
  unfold requestFollowUp
  cases hprobe : options.activationProbe with
  | true => exact safe_pure hs ⟨hv, .inl rfl⟩
  | false =>
    have hrequested : RunInv snapshot asked v { s with followUpRequested := true } :=
      ⟨hv.cache, hv.carried, hv.covers, fun _ => rfl⟩
    exact safe_sync .requestFollowUp hs fun _ =>
      ⟨⟨hs.applied, hs.untouched, hs.bounded⟩, (), rfl, hrequested, .inr rfl⟩

/-! ### Checks of the snapshot -/

theorem safe_acceptCoveredLocalSnapshot {expectedData : Document D} (hs : StoreInv s)
    (hv : RunInv (some expectedData.snapshot) asked v s) :
    Safe platform.quietPort StoreInv
      (fun accepted v t => RunInv (some expectedData.snapshot) asked v t ∧
        (accepted = true → t.lastDataChangeAt ≤ v.localSnapshotChangeAt))
      (Aborts options (some expectedData.snapshot) asked) (acceptCoveredLocalSnapshot platform expectedData) v s := by
  unfold acceptCoveredLocalSnapshot
  split
  · apply safe_getLastDataChangeAt hs
    apply safe_get_bind
    split
    · exact safe_pure hs ⟨hv, fun _ => by assumption⟩
    · obtain ⟨hinv, hlater⟩ := storeInv_cover hs expectedData.snapshot
      have hcall : Safe platform.quietPort StoreInv
          (fun accepted v' t => v = v' ∧ if accepted = true then t = s.cover expectedData.snapshot else t = s)
          (Aborts options (some expectedData.snapshot) asked)
          (Run.call (.acceptCoveredSnapshot expectedData)) v s := by
        apply safe_sync (.acceptCoveredSnapshot expectedData) hs
        intro choice
        by_cases hcovers : platform.covers s.content expectedData.data = true
        · simp only [RunPlatform.port, hcovers, if_true]
          exact ⟨hinv, true, rfl, by simp⟩
        · simp only [RunPlatform.port, hcovers, if_false, Bool.false_eq_true]
          exact ⟨hs, false, rfl, by simp⟩
      refine safe_bind hcall ?_
      rintro accepted _ t ht ⟨rfl, hstore⟩
      cases accepted with
      | false =>
        obtain rfl : t = s := hstore
        exact safe_pure hs ⟨hv, nofun⟩
      | true =>
        obtain rfl : t = s.cover expectedData.snapshot := hstore
        have hcover := hv.later hlater
        apply safe_modify_bind
        refine safe_pure hinv ⟨⟨hcover.cache, hcover.carried, ?_, hcover.asked⟩, fun _ => le_refl _⟩
        rintro _ ⟨⟩
        exact le_of_eq (coveredAt_cover s expectedData.snapshot).symm
  · exact safe_pure hs ⟨hv, nofun⟩

/-- The run goes on when its snapshot is of the store as it is; otherwise it asks for another run and aborts. -/
theorem safe_ensureLocalSnapshotFresh {expectedData : Option (Document D)} (hs : StoreInv s)
    (hv : RunInv snapshot asked v s) (hexpected : ∀ d, expectedData = some d → snapshot = some d.snapshot) :
    Safe platform.quietPort StoreInv
      (fun _ v t => RunInv snapshot asked v t ∧ t.lastDataChangeAt ≤ v.localSnapshotChangeAt)
      (Aborts options snapshot asked) (ensureLocalSnapshotFresh platform options expectedData) v s := by
  unfold ensureLocalSnapshotFresh
  apply safe_getLastDataChangeAt hs
  apply safe_get_bind
  split
  · exact safe_pure hs ⟨hv, by assumption⟩
  · have hrest : ∀ accepted v t, StoreInv t → RunInv snapshot asked v t →
        (accepted = true → t.lastDataChangeAt ≤ v.localSnapshotChangeAt) →
        Safe platform.quietPort StoreInv
          (fun _ v t => RunInv snapshot asked v t ∧ t.lastDataChangeAt ≤ v.localSnapshotChangeAt)
          (Aborts options snapshot asked)
          (if accepted = true then pure () else do
            requestFollowUp options
            throw .localSyncAbort) v t := by
      intro accepted v t ht hv hfresh
      cases accepted with
      | true => exact safe_pure ht ⟨hv, hfresh rfl⟩
      | false =>
        refine safe_bind (safe_requestFollowUp ht hv) ?_
        rintro _ v t ht ⟨hv, hrequested⟩
        exact safe_throw ht ⟨hv, fun _ => hrequested⟩
    cases expectedData with
    | none => exact hrest false v s hs hv nofun
    | some d =>
      obtain rfl := hexpected d rfl
      refine safe_bind (safe_acceptCoveredLocalSnapshot hs hv) ?_
      rintro accepted v t ht ⟨hv, hfresh⟩
      exact hrest accepted v t ht hv hfresh

/-! ### The local document -/

theorem safe_usableCarriedSnapshot {currentChangeAt : Nat} (hs : StoreInv s) (hv : RunInv snapshot asked v s) :
    Safe platform.quietPort StoreInv
      (fun carried v' t => v = v' ∧ Later s t ∧ ∀ d, carried = some d → currentChangeAt ≤ t.coveredAt d.snapshot)
      (Aborts options snapshot asked) (usableCarriedSnapshot options currentChangeAt) v s := by
  unfold usableCarriedSnapshot
  apply safe_get_bind
  split
  · exact safe_pure hs ⟨rfl, Later.refl s, nofun⟩
  · rename_i changeAt data hcarried
    obtain ⟨hcarried, hchangeAt⟩ := Option.filter_eq_some_iff.1 hcarried
    simp only [Bool.and_eq_true, beq_iff_eq] at hchangeAt
    refine safe_bind (safe_await hs hv) ?_
    rintro _ _ t ht ⟨rfl, hlater⟩
    refine safe_bind (safe_holds (Q := fun _ v' t => v = v' ∧ Later s t) ht fun _ => ⟨rfl, hlater⟩) ?_
    rintro recorded _ t ht ⟨rfl, hlater⟩
    refine safe_pure ht ⟨rfl, hlater, ?_⟩
    intro d hd
    have hcovered := (hv.later hlater).carried changeAt data hcarried
    cases recorded with
    | false => cases hd
    | true =>
      obtain rfl := Option.some.inj hd
      omega

theorem safe_reconcileLocalData (hs : StoreInv s) (hv : RunInv snapshot asked v s) :
    Safe platform.quietPort StoreInv
      (fun base v' t => v = v' ∧ Later s t ∧ s.lastDataChangeAt ≤ t.coveredAt base.1.snapshot)
      (Aborts options snapshot asked) reconcileLocalData v s := by
  have hmerge : ∀ (document : Document D) v' t, StoreInv t → v = v' → Later s t →
      s.lastDataChangeAt ≤ t.coveredAt document.snapshot →
      Safe platform.quietPort StoreInv
        (fun base v' t => v = v' ∧ Later s t ∧ s.lastDataChangeAt ≤ t.coveredAt base.1.snapshot)
        (Aborts options snapshot asked)
        (do let merged ← Run.call (.derive "mergeAppData" document)
            return (merged.getD document, false)) v' t := by
    intro document v' t ht hv' hlater hcovered
    refine safe_bind (safe_derive (Q := fun derived v' t => v = v' ∧ Later s t ∧
      s.lastDataChangeAt ≤ t.coveredAt (derived.getD document).snapshot) ht fun derived hderived => ?_) ?_
    · refine ⟨hv', hlater, ?_⟩
      cases derived with
      | none => exact hcovered
      | some d => exact (hderived d rfl) ▸ hcovered
    · intro derived v t ht hq
      exact safe_pure ht hq
  unfold reconcileLocalData
  refine safe_bind (safe_getInMemorySnapshot hs) ?_
  rintro document _ t ht ⟨rfl, hlater, hcovered⟩
  apply safe_get_bind
  split
  · refine safe_bind (safe_holds (Q := fun _ v' t' => v = v' ∧ t = t') ht fun _ => ⟨rfl, rfl⟩) ?_
    rintro aligned _ _ - ⟨rfl, rfl⟩
    cases aligned with
    | true => exact safe_pure ht ⟨rfl, hlater, hcovered⟩
    | false => exact hmerge document v t ht rfl hlater hcovered
  · refine safe_bind ((safe_readPersistedLocal ht (hv.later hlater))) ?_
    rintro persisted _ u hu ⟨rfl, hread⟩
    have hcovered := le_trans hcovered (hread.coveredAt document.snapshot)
    refine safe_bind (safe_holds (Q := fun _ v' u' => v = v' ∧ u = u') hu fun _ => ⟨rfl, rfl⟩) ?_
    rintro aligned _ _ - ⟨rfl, rfl⟩
    cases aligned with
    | true => exact safe_pure hu ⟨rfl, hlater.trans hread, hcovered⟩
    | false => exact hmerge document v u hu rfl (hlater.trans hread) hcovered

theorem safe_injectExternalCalendars {baseData : Document D} (hs : StoreInv s) (hv : RunInv snapshot asked v s) :
    Safe platform.quietPort StoreInv
      (fun injected v' t => v = v' ∧ Later s t ∧ (injected.getD baseData).snapshot = baseData.snapshot)
      (Aborts options snapshot asked) (injectExternalCalendars options baseData) v s := by
  unfold injectExternalCalendars
  split
  · exact safe_pure hs ⟨rfl, Later.refl s, rfl⟩
  · refine safe_bind (safe_await hs hv) ?_
    rintro _ _ t ht ⟨rfl, hlater⟩
    refine safe_derive ht fun derived hderived => ⟨rfl, hlater, ?_⟩
    cases derived with
    | none => rfl
    | some d => exact hderived d rfl

/-- The local document of a cycle is derived from a snapshot at the stamp that the run checks against. -/
theorem safe_readLocalDataForSyncCycle (hs : StoreInv s) (hv : RunInv none asked v s) :
    Safe platform.quietPort StoreInv (fun data v t => RunInv (some data.snapshot) asked v t)
      (Aborts options none asked) (readLocalDataForSyncCycle options) v s := by
  unfold readLocalDataForSyncCycle
  apply safe_getLastDataChangeAt hs
  apply safe_get_bind
  split
  · rename_i changeAt data hcache
    obtain ⟨hcache, hchangeAt⟩ := Option.filter_eq_some_iff.1 hcache
    simp only [beq_iff_eq] at hchangeAt
    apply safe_modify_bind
    refine safe_pure hs ⟨hv.cache, hv.carried, ?_, hv.asked⟩
    rintro _ ⟨⟩
    exact hchangeAt ▸ hv.cache changeAt data hcache
  · refine safe_bind (safe_usableCarriedSnapshot hs hv) ?_
    rintro carried _ t ht ⟨rfl, hlater, hcarried⟩
    have hfound : ∀ (data : Document D) (disk : Bool) u, StoreInv u → Later s u →
        s.lastDataChangeAt ≤ u.coveredAt data.snapshot →
        Safe platform.quietPort StoreInv (fun data v t => RunInv (some data.snapshot) asked v t)
          (Aborts options none asked)
          (do modify fun state : RunState D => { state with
                localSnapshotChangeAt := s.lastDataChangeAt
                localDataCache := some (s.lastDataChangeAt, data)
                localSnapshotMatchesDisk := disk }
              return data) v u := by
      intro data disk u hu hsu hcovered
      have hv := hv.later hsu
      apply safe_modify_bind
      refine safe_pure hu ⟨?_, hv.carried, ?_, hv.asked⟩
      · rintro _ _ ⟨⟩
        exact hcovered
      · rintro _ ⟨⟩
        exact hcovered
    cases carried with
    | some data => exact hfound data true t ht hlater (hcarried data rfl)
    | none =>
      refine safe_bind (safe_reconcileLocalData ht (hv.later hlater)) ?_
      rintro ⟨baseData, matchesDisk⟩ _ u hu ⟨rfl, hread, hcovered⟩
      have hsu := hlater.trans hread
      refine safe_bind (safe_injectExternalCalendars hu (hv.later hsu)) ?_
      rintro injected _ w hw ⟨rfl, hinject, hsnapshot⟩
      apply hfound _ _ w hw (hsu.trans hinject)
      have hstamp := hlater.lastDataChangeAt
      have hlate := hinject.coveredAt baseData.snapshot
      rw [hsnapshot]
      dsimp only at hcovered
      omega

theorem snapshot_getD {derived : Option (Document D)} {data : Document D}
    (h : ∀ d, derived = some d → d.snapshot = data.snapshot) : (derived.getD data).snapshot = data.snapshot := by
  cases derived with
  | none => rfl
  | some d => exact h d rfl

/-- What is written to the store is derived from a snapshot of it as it is. -/
theorem safe_persistLocalDataWithTracking {data : Document D} (hs : StoreInv s)
    (hv : RunInv (some data.snapshot) asked v s) :
    Safe platform.quietPort StoreInv
      (fun persisted v t => RunInv (some data.snapshot) asked v t ∧ persisted.snapshot = data.snapshot)
      (Aborts options (some data.snapshot) asked) (persistLocalDataWithTracking platform options data) v s := by
  unfold persistLocalDataWithTracking
  refine safe_bind (safe_fence hs hv) ?_
  intro _ v s hs hv
  refine safe_bind (safe_persistLocal hs hv) ?_
  rintro canonical v s hs ⟨hv, hcanonical⟩
  have hsnapshot := snapshot_getD hcanonical
  refine safe_bind (safe_ensureLocalSnapshotFresh hs hv ?_) ?_
  · rintro _ ⟨⟩
    rw [hsnapshot]
  · rintro _ v s hs ⟨hv, hfresh⟩
    have hcovered := le_trans hfresh (hv.covers _ rfl)
    rw [← hsnapshot] at hcovered
    apply safe_modify_bind
    split
    · obtain ⟨hinv, hlater⟩ := storeInv_apply hs hcovered
      have happly : Safe platform.quietPort StoreInv
          (fun _ v' t => { v with localSnapshotMatchesDisk := false } = v' ∧ t = s.apply (canonical.getD data))
          (Aborts options (some data.snapshot) asked) (Run.call (.applyDataToStore (canonical.getD data)))
          { v with localSnapshotMatchesDisk := false } s :=
        safe_sync (.applyDataToStore (canonical.getD data)) hs fun _ => ⟨hinv, (), rfl, rfl, rfl⟩
      refine safe_bind happly ?_
      rintro _ _ _ - ⟨rfl, rfl⟩
      apply safe_getLastDataChangeAt hinv
      apply safe_modify_bind
      refine safe_pure hinv ⟨⟨?_, (hv.later hlater).carried, ?_, hv.asked⟩, hsnapshot⟩
      · rintro _ _ ⟨⟩
        exact hcovered
      · rintro _ ⟨⟩
        exact hsnapshot ▸ hcovered
    · apply safe_modify_bind
      exact safe_pure hs ⟨⟨hv.cache, hv.carried, hv.covers, hv.asked⟩, hsnapshot⟩

theorem Aborts.forget {e : RunError} (h : Aborts options snapshot asked e v s) : Aborts options none asked e v s :=
  ⟨h.1.forget, h.2⟩

theorem safe_forget {A : Type} {x : Run D A} {Q : A → RunState D → RunStore D → Prop}
    (h : Safe platform.quietPort StoreInv Q (Aborts options snapshot asked) x v s) :
    Safe platform.quietPort StoreInv Q (Aborts options none asked) x v s :=
  h.mono (fun _ h => h) (fun _ _ _ h => h) fun _ _ _ h => Aborts.forget h

theorem safe_persistDerived {step : String} {current : Document D} (hs : StoreInv s)
    (hv : RunInv (some current.snapshot) asked v s) :
    Safe platform.quietPort StoreInv (fun _ v t => RunInv none asked v t) (Aborts options none asked)
      (do let derived ← Run.call (.derive step current)
          let _ ← persistLocalDataWithTracking platform options (derived.getD current)) v s := by
  refine safe_bind (safe_derive (Q := fun derived v t => RunInv (some (derived.getD current).snapshot) asked v t)
    hs fun derived hderived => ?_) ?_
  · rw [snapshot_getD hderived]
    exact hv
  · intro derived v t ht hv
    refine safe_bind (safe_forget (safe_persistLocalDataWithTracking ht hv)) ?_
    rintro _ v t ht ⟨hv, -⟩
    exact safe_pure ht hv.forget

theorem safe_persistPreSyncedDataAfterAbort (hs : StoreInv s) (hv : RunInv none asked v s) :
    Safe platform.quietPort StoreInv (fun _ v t => RunInv none asked v t) (Aborts options none asked)
      (persistPreSyncedDataAfterAbort platform options) v s := by
  unfold persistPreSyncedDataAfterAbort
  apply safe_get_bind
  split
  · exact safe_pure hs hv
  · apply safe_getLastDataChangeAt hs
    apply safe_modify_bind
    refine safe_bind (safe_getInMemorySnapshot hs) ?_
    rintro current _ t ht ⟨rfl, hlater, hcovered⟩
    have hv := hv.later hlater
    apply safe_persistDerived ht
    refine ⟨hv.cache, hv.carried, ?_, hv.asked⟩
    rintro _ ⟨⟩
    exact hcovered

theorem safe_clearPendingRemoteWriteAfterLocalAbort {n : Nat} (hs : StoreInv s) (hv : RunInv (some n) asked v s) :
    Safe platform.quietPort StoreInv (fun _ v t => RunInv none asked v t) (Aborts options none asked)
      (clearPendingRemoteWriteAfterLocalAbort platform options) v s := by
  unfold clearPendingRemoteWriteAfterLocalAbort
  split
  · exact safe_pure hs hv.forget
  · refine safe_bind (safe_getInMemorySnapshot hs) ?_
    rintro current _ t ht ⟨rfl, hlater, hcovered⟩
    have hcurrent : RunInv (some current.snapshot) asked v t := by
      refine ⟨(hv.later hlater).cache, (hv.later hlater).carried, ?_, (hv.later hlater).asked⟩
      rintro _ ⟨⟩
      exact le_trans (le_trans (hv.covers n rfl) (hs.bounded n)) hcovered
    refine safe_bind (safe_holds (Q := fun _ v' t' => v = v' ∧ t' = t) ht fun _ => ⟨rfl, rfl⟩) ?_
    rintro pending _ _ - ⟨rfl, rfl⟩
    split
    · exact safe_pure ht hcurrent.forget
    · exact safe_persistDerived ht hcurrent

end

/-! ### What leaves the snapshot of the run as it is -/

/-- `x` keeps the invariant of the run. -/
def Keeps {A : Type} (platform : RunPlatform D) (options : RunOptions) (snapshot : Option Nat) (asked : Bool)
    (x : Run D A) : Prop :=
  ∀ v s, StoreInv s → RunInv snapshot asked v s →
    Safe platform.quietPort StoreInv (fun _ v t => RunInv snapshot asked v t) (Aborts options snapshot asked) x v s

section
variable {A B : Type} {snapshot : Option Nat} {asked : Bool} {x : Run D A}

theorem keeps_pure {a : A} : Keeps (D := D) platform options snapshot asked (pure a) :=
  fun _ _ hs hv => safe_pure hs hv

theorem keeps_bind {f : A → Run D B} (hx : Keeps platform options snapshot asked x)
    (hf : ∀ a, Keeps platform options snapshot asked (f a)) : Keeps platform options snapshot asked (x >>= f) :=
  fun v s hs hv => safe_bind (hx v s hs hv) fun a v t ht hv => hf a v t ht hv

theorem keeps_ite_bind {c : Prop} [Decidable c] {y : Run D A} {f : A → Run D B}
    (hx : Keeps platform options snapshot asked x) (hy : Keeps platform options snapshot asked y)
    (hf : ∀ a, Keeps platform options snapshot asked (f a)) :
    Keeps platform options snapshot asked (if c then x >>= f else y >>= f) :=
  fun v s hs hv => safe_ite_bind (hx v s hs hv) (hy v s hs hv) fun a v t ht hv => hf a v t ht hv

theorem keeps_get {f : RunState D → Run D A} (hf : ∀ state, Keeps platform options snapshot asked (f state)) :
    Keeps platform options snapshot asked (get >>= f) := fun v s hs hv => safe_get_bind (hf v v s hs hv)

theorem keeps_await {what : String} : Keeps (D := D) platform options snapshot asked (await what) :=
  fun _ _ hs hv => (safe_await hs hv).mono (fun _ h => h) (fun _ _ _ h => h.1 ▸ hv.later h.2) fun _ _ _ h => h

theorem keeps_fence {step : String} :
    Keeps (D := D) platform options snapshot asked (Run.call (.assertRemoteMutationFenceHeld step)) :=
  fun _ _ hs hv => safe_fence hs hv

theorem keeps_holds {what : String} : Keeps (D := D) platform options snapshot asked (holds what) :=
  fun _ _ hs hv => safe_holds hs fun _ => hv

theorem keeps_count {what : String} : Keeps (D := D) platform options snapshot asked (Run.call (.count what)) :=
  fun _ _ hs hv => safe_count hs fun _ => hv

theorem keeps_check {condition : Bool} {failure : RunFailure} :
    Keeps (D := D) platform options snapshot asked (check condition (.failure failure)) :=
  fun _ _ hs hv => safe_check hs (fun _ => hv) fun _ => hv.failed failure

theorem keeps_getLastDataChangeAt {f : Nat → Run D A} (hf : ∀ n, Keeps platform options snapshot asked (f n)) :
    Keeps platform options snapshot asked (Run.call .getLastDataChangeAt >>= f) :=
  fun v s hs hv => safe_getLastDataChangeAt hs (hf _ v s hs hv)

theorem keeps_requestFollowUp : Keeps (D := D) platform options snapshot asked (requestFollowUp options) :=
  fun _ _ hs hv => (safe_requestFollowUp hs hv).mono (fun _ h => h) (fun _ _ _ h => h.1) fun _ _ _ h => h

theorem keeps_ensureLocalSnapshotFresh :
    Keeps (D := D) platform options snapshot asked (ensureLocalSnapshotFresh platform options none) :=
  fun _ _ hs hv =>
    (safe_ensureLocalSnapshotFresh hs hv (by nofun)).mono (fun _ h => h) (fun _ _ _ h => h.1) fun _ _ _ h => h

theorem keeps_ensureDocumentFresh {data : Document D} :
    Keeps platform options (some data.snapshot) asked (ensureLocalSnapshotFresh platform options (some data)) := by
  intro v s hs hv
  refine (safe_ensureLocalSnapshotFresh hs hv ?_).mono (fun _ h => h) (fun _ _ _ h => h.1) fun _ _ _ h => h
  rintro _ ⟨⟩
  rfl

theorem keeps_readLocalDataForSyncCycle :
    Keeps (D := D) platform options none asked (readLocalDataForSyncCycle options) :=
  fun _ _ hs hv => (safe_readLocalDataForSyncCycle hs hv).mono (fun _ h => h) (fun _ _ _ h => h.forget) fun _ _ _ h => h

theorem keeps_tryCatch {handler : RunError → Run D A} (hx : Keeps platform options snapshot asked x)
    (hcatch : ∀ e v s, StoreInv s → Aborts options snapshot asked e v s →
      Safe platform.quietPort StoreInv (fun _ v t => RunInv snapshot asked v t) (Aborts options snapshot asked)
        (handler e) v s) : Keeps platform options snapshot asked (tryCatch x handler) :=
  fun v s hs hv => safe_tryCatch (hx v s hs hv) hcatch

theorem keeps_swallow {operation : Run D Unit} (hx : Keeps platform options snapshot asked operation) :
    Keeps platform options snapshot asked (swallow operation) :=
  keeps_tryCatch hx fun _ _ _ hs h => safe_pure hs h.1

theorem keeps_awaitWithChecks {what : String} {expectedData : Option (Document D)} {checks : Nat}
    (hexpected : Keeps platform options snapshot asked (ensureLocalSnapshotFresh platform options expectedData)) :
    Keeps platform options snapshot asked (awaitWithChecks platform options what expectedData checks) := by
  induction checks with
  | zero => exact keeps_await
  | succ checks ih =>
    unfold awaitWithChecks
    apply keeps_bind keeps_await
    intro _
    apply keeps_bind hexpected
    intro _
    exact ih

/-- What an attachment pass makes of a document has the snapshot of the document. -/
theorem safe_syncAttachments {data : Document D} {v : RunState D} {s : RunStore D} (hs : StoreInv s)
    (hv : RunInv snapshot asked v s) :
    Safe platform.quietPort StoreInv
      (fun result v t => RunInv snapshot asked v t ∧ (result.getD data).snapshot = data.snapshot)
      (Aborts options snapshot asked) (syncAttachments platform options data) v s := by
  unfold syncAttachments
  refine safe_bind (keeps_count v s hs hv) fun checks v t ht hv => ?_
  refine safe_bind (keeps_awaitWithChecks keeps_ensureLocalSnapshotFresh v t ht hv) fun _ v u hu hv => ?_
  exact safe_derive hu fun derived hderived => ⟨hv, snapshot_getD hderived⟩

theorem keeps_syncAttachments {data : Document D} :
    Keeps platform options snapshot asked (syncAttachments platform options data) :=
  fun _ _ hs hv => (safe_syncAttachments hs hv).mono (fun _ h => h) (fun _ _ _ h => h.1) fun _ _ _ h => h

/-! ### Before the merge -/

theorem keeps_preSyncAttachments :
    Keeps (D := D) platform options none asked (preSyncAttachments platform options) := by
  unfold preSyncAttachments
  apply keeps_bind keeps_readLocalDataForSyncCycle
  intro localData
  apply keeps_bind keeps_await
  intro _
  apply keeps_bind keeps_holds
  intro needed
  split
  · apply keeps_bind keeps_await
    intro _
    apply keeps_bind keeps_await
    intro _
    apply keeps_bind keeps_syncAttachments
    intro result
    apply keeps_bind keeps_fence
    intro _
    apply keeps_bind keeps_holds
    intro mutated
    split
    · intro v s hs hv
      apply safe_modify_bind
      exact keeps_ensureLocalSnapshotFresh _ s hs ⟨nofun, hv.carried, nofun, hv.asked⟩
    · exact keeps_pure
  · exact keeps_pure

theorem keeps_runAttachmentPreSyncPhase :
    Keeps (D := D) platform options none asked (runAttachmentPreSyncPhase platform options) := by
  unfold runAttachmentPreSyncPhase
  split
  · exact keeps_pure
  · apply keeps_tryCatch keeps_preSyncAttachments
    intro error v s hs h
    refine safe_bind (safe_holds (Q := fun _ v t => Aborts options none asked error v t) hs fun _ => h) ?_
    intro cycleAborted v t ht h
    split
    · exact safe_throw ht h
    · exact safe_pure ht h.1

theorem keeps_persistUnchangedSyncStatus :
    Keeps (D := D) platform options snapshot asked persistUnchangedSyncStatus := keeps_swallow keeps_await

theorem keeps_remoteFingerprintMatches :
    Keeps (D := D) platform options snapshot asked remoteFingerprintMatches := by
  apply keeps_tryCatch
  · apply keeps_bind keeps_await
    intro _
    exact keeps_holds
  · intro _ _ _ hs h
    exact safe_pure hs h.1

theorem keeps_trySkipUnchangedFastSync :
    Keeps (D := D) platform options none asked (trySkipUnchangedFastSync platform options) := by
  unfold trySkipUnchangedFastSync
  apply keeps_bind keeps_holds
  intro hasScope
  split
  · exact keeps_pure
  · apply keeps_bind keeps_await
    intro _
    apply keeps_get
    intro state
    split
    · exact keeps_pure
    · apply keeps_bind keeps_readLocalDataForSyncCycle
      intro _
      apply keeps_bind keeps_ensureLocalSnapshotFresh
      intro _
      apply keeps_bind keeps_await
      intro _
      apply keeps_bind keeps_holds
      intro unchanged
      apply keeps_ite_bind keeps_remoteFingerprintMatches keeps_pure
      intro remoteUnchanged
      dsimp only
      split
      · apply keeps_bind keeps_ensureLocalSnapshotFresh
        intro _
        apply keeps_bind keeps_await
        intro _
        apply keeps_bind keeps_persistUnchangedSyncStatus
        intro _
        exact keeps_pure
      · exact keeps_pure

theorem keeps_tryArmLocalOnlyUploadFastPath :
    Keeps (D := D) platform options none asked (tryArmLocalOnlyUploadFastPath platform options) := by
  unfold tryArmLocalOnlyUploadFastPath
  apply keeps_bind keeps_holds
  intro possible
  split
  · exact keeps_pure
  · apply keeps_bind keeps_await
    intro _
    apply keeps_get
    intro state
    split
    · exact keeps_pure
    · apply keeps_bind keeps_readLocalDataForSyncCycle
      intro _
      apply keeps_bind keeps_ensureLocalSnapshotFresh
      intro _
      apply keeps_bind keeps_await
      intro _
      apply keeps_bind keeps_holds
      intro changed
      apply keeps_ite_bind keeps_remoteFingerprintMatches keeps_pure
      intro remoteUnchanged
      dsimp only
      split
      · exact keeps_ensureLocalSnapshotFresh
      · exact keeps_pure

theorem keeps_readRemoteForCycle : Keeps (D := D) platform options snapshot asked readRemoteForCycle := by
  apply keeps_bind keeps_fence
  intro _
  exact keeps_await

theorem keeps_recordFastSyncState :
    Keeps (D := D) platform options snapshot asked recordFastSyncState := by
  unfold recordFastSyncState
  apply keeps_bind keeps_holds
  intro skipped
  apply keeps_getLastDataChangeAt
  intro currentChangeAt
  apply keeps_get
  intro state
  split
  · exact keeps_pure
  · apply keeps_bind keeps_remoteFingerprintMatches
    intro known
    split
    · exact keeps_await
    · exact keeps_pure

theorem keeps_trySkipUnchangedReadSync :
    Keeps (D := D) platform options none asked (trySkipUnchangedReadSync platform options) := by
  unfold trySkipUnchangedReadSync
  apply keeps_bind keeps_await
  intro _
  apply keeps_get
  intro state
  split
  · exact keeps_pure
  · apply keeps_bind keeps_readLocalDataForSyncCycle
    intro _
    apply keeps_bind keeps_ensureLocalSnapshotFresh
    intro _
    apply keeps_bind keeps_holds
    intro pending
    split
    · exact keeps_pure
    · apply keeps_bind keeps_readRemoteForCycle
      intro _
      apply keeps_bind keeps_ensureLocalSnapshotFresh
      intro _
      apply keeps_bind keeps_holds
      intro unchanged
      split
      · apply keeps_bind keeps_recordFastSyncState
        intro _
        apply keeps_bind keeps_persistUnchangedSyncStatus
        intro _
        exact keeps_pure
      · exact keeps_pure

/-! ### The cycle -/

/-- `x` ends with a document that has the snapshot of the run. -/
def Derives (platform : RunPlatform D) (options : RunOptions) (n : Nat) (asked : Bool) (x : Run D (Document D)) :
    Prop :=
  ∀ v s, StoreInv s → RunInv (some n) asked v s →
    Safe platform.quietPort StoreInv (fun data v t => RunInv (some n) asked v t ∧ data.snapshot = n)
      (Aborts options (some n) asked) x v s

theorem derives_pure {n : Nat} {data : Document D} (hdata : data.snapshot = n) :
    Derives platform options n asked (pure data) := fun _ _ hs hv => safe_pure hs ⟨hv, hdata⟩

theorem derives_bind {n : Nat} {f : A → Run D (Document D)} (hx : Keeps platform options (some n) asked x)
    (hf : ∀ a, Derives platform options n asked (f a)) : Derives platform options n asked (x >>= f) :=
  fun v s hs hv => safe_bind (hx v s hs hv) fun a v t ht hv => hf a v t ht hv

/-- A step of the run makes a document of a document. -/
theorem derives_document {n : Nat} {x : Run D (Option (Document D))} {f : Option (Document D) → Run D (Document D)}
    {data : Document D} (hdata : data.snapshot = n)
    (hx : ∀ v s, StoreInv s → RunInv (some n) asked v s →
      Safe platform.quietPort StoreInv
        (fun result v t => RunInv (some n) asked v t ∧ (result.getD data).snapshot = data.snapshot)
        (Aborts options (some n) asked) x v s)
    (hf : ∀ result, (result.getD data).snapshot = n → Derives platform options n asked (f result)) :
    Derives platform options n asked (x >>= f) :=
  fun v s hs hv => safe_bind (hx v s hs hv) fun result v t ht h => hf result (h.2.trans hdata) v t ht h.1

theorem derives_transferPasses {n passes : Nat} {data : Document D} (hdata : data.snapshot = n) :
    Derives platform options n asked (transferPasses platform options data passes) := by
  induction passes generalizing data with
  | zero => exact derives_pure hdata
  | succ passes ih =>
    unfold transferPasses
    apply derives_bind keeps_await
    intro _
    apply derives_bind keeps_await
    intro _
    apply derives_bind keeps_ensureLocalSnapshotFresh
    intro _
    apply derives_bind keeps_fence
    intro _
    apply derives_document hdata fun _ _ hs hv => safe_syncAttachments hs hv
    intro result hresult
    apply derives_bind keeps_fence
    intro _
    apply derives_bind keeps_ensureLocalSnapshotFresh
    intro _
    exact ih hresult

theorem derives_prepareRemoteWriteData {n : Nat} {data : Document D} (hdata : data.snapshot = n) :
    Derives platform options n asked (prepareRemoteWriteData platform options data) := by
  unfold prepareRemoteWriteData
  apply derives_bind keeps_holds
  intro nothingToTransfer
  split
  · exact derives_pure hdata
  · apply derives_bind keeps_await
    intro _
    apply derives_bind keeps_await
    intro _
    apply derives_bind keeps_fence
    intro _
    split
    · apply derives_bind keeps_count
      intro passes v s hs hv
      refine safe_bind (derives_transferPasses hdata v s hs hv) ?_
      rintro proven v t ht ⟨hv, hproven⟩
      refine derives_bind keeps_holds (fun allProven => ?_) v t ht hv
      apply derives_bind keeps_check
      intro _
      apply derives_bind keeps_ensureLocalSnapshotFresh
      intro _
      exact derives_pure hproven
    · apply derives_document hdata fun _ _ hs hv => safe_syncAttachments hs hv
      intro result hresult
      apply derives_bind keeps_fence
      intro _
      exact derives_pure hresult

theorem keeps_writeRemoteForCycle : Keeps (D := D) platform options snapshot asked (writeRemoteForCycle options) := by
  unfold writeRemoteForCycle
  apply keeps_bind keeps_fence
  intro _
  apply keeps_bind keeps_await
  intro _
  apply keeps_bind keeps_holds
  intro uploaded
  apply keeps_bind keeps_check
  intro _
  apply keeps_bind keeps_holds
  intro unchanged
  split
  · exact keeps_pure
  · refine keeps_bind (keeps_tryCatch (keeps_bind keeps_fence fun _ => keeps_await) ?_) fun _ => ?_
    · intro error v s hs h
      split
      · refine safe_bind (safe_requestFollowUp hs h.1) ?_
        rintro _ v t ht ⟨hv, hrequested⟩
        exact safe_throw ht ⟨hv, fun _ => hrequested⟩
      · exact safe_throw hs h
    · apply keeps_bind keeps_fence
      intro _
      apply keeps_bind keeps_holds
      intro serverMerged
      split
      · exact keeps_requestFollowUp
      · exact keeps_pure

theorem derives_writeLocal {n : Nat} {data : Document D} (hdata : data.snapshot = n) :
    Derives platform options n asked (writeLocal platform options data) := by
  subst hdata
  unfold writeLocal
  apply derives_bind keeps_ensureDocumentFresh
  intro _
  split
  · exact derives_pure rfl
  · exact fun _ _ hs hv => safe_persistLocalDataWithTracking hs hv

theorem keeps_writeLocal {n : Nat} {data : Document D} (hdata : data.snapshot = n) :
    Keeps platform options (some n) asked (writeLocal platform options data) :=
  fun v s hs hv => (derives_writeLocal hdata v s hs hv).mono (fun _ h => h) (fun _ _ _ h => h.1) fun _ _ _ h => h

theorem keeps_writeRemote {n : Nat} {data : Document D} (hdata : data.snapshot = n) :
    Keeps platform options (some n) asked (writeRemote platform options data) := by
  subst hdata
  exact keeps_bind keeps_ensureDocumentFresh fun _ => keeps_writeRemoteForCycle

/-- A local write that is made before an error goes on. -/
theorem safe_writeLocal_throw {n : Nat} {step : String} {data : Document D} {e : RunError} {v : RunState D}
    {s : RunStore D} {Q : A → RunState D → RunStore D → Prop} (hdata : data.snapshot = n) (hs : StoreInv s)
    (he : e ≠ .localSyncAbort) (hv : RunInv (some n) asked v s) :
    Safe platform.quietPort StoreInv Q (Aborts options (some n) asked)
      (do let retry ← Run.call (.derive step data)
          let _ ← writeLocal platform options (retry.getD data)
          throw e) v s := by
  refine safe_bind (safe_derive (Q := fun retry v t => RunInv (some n) asked v t ∧ (retry.getD data).snapshot = n) hs
    fun retry hretry => ⟨hv, (snapshot_getD hretry).trans hdata⟩) ?_
  rintro retry v t ht ⟨hv, hretry⟩
  refine safe_bind (keeps_writeLocal hretry v t ht hv) ?_
  intro _ v t ht hv
  exact safe_throw ht ⟨hv, fun h => absurd h he⟩

theorem safe_writeUnchangedLocal {n : Nat} {finalData : Document D} {v : RunState D} {s : RunStore D}
    (hdata : finalData.snapshot = n) (hs : StoreInv s) (hv : RunInv (some n) asked v s) :
    Safe platform.quietPort StoreInv (fun result v t => RunInv (some n) asked v t ∧ result.1.snapshot = n)
      (Aborts options none asked) (writeUnchangedLocal platform options finalData) v s := by
  have hwrite : Keeps platform options (some n) asked
      (tryCatch (writeRemote platform options finalData) fun error =>
        if error = .localSyncAbort then throw error
        else do
          let retry ← Run.call (.derive "withPendingRemoteWriteRetry" finalData)
          let _ ← writeLocal platform options (retry.getD finalData)
          throw error) := by
    apply keeps_tryCatch (keeps_writeRemote hdata)
    intro error v s hs h
    split
    · exact safe_throw hs h
    · exact safe_writeLocal_throw hdata hs (by assumption) h.1
  refine safe_bind (safe_forget (hwrite v s hs hv)) ?_
  intro _ v t ht hv
  refine safe_bind (safe_forget (keeps_swallow keeps_await v t ht hv)) ?_
  intro _ v u hu hv
  exact safe_pure hu ⟨hv, hdata⟩

theorem safe_unasked {asked' : Bool} {v : RunState D} {s : RunStore D} {Q : A → RunState D → RunStore D → Prop}
    (hle : asked = true → asked' = true)
    (h : Safe platform.quietPort StoreInv Q (Aborts options snapshot asked') x v s) :
    Safe platform.quietPort StoreInv Q (Aborts options snapshot asked) x v s :=
  h.mono (fun _ h => h) (fun _ _ _ h => h) fun _ _ _ h => ⟨h.1.unasked hle, h.2⟩

/-- After an abort the mark of the remote write is cleared on a document of its own. -/
theorem safe_clearPending_throw {n : Nat} {e : RunError} {v : RunState D} {s : RunStore D}
    {Q : A → RunState D → RunStore D → Prop} (hs : StoreInv s) (h : Aborts options (some n) asked e v s)
    (he : e = .localSyncAbort) :
    Safe platform.quietPort StoreInv Q (Aborts options none asked)
      (do clearPendingRemoteWriteAfterLocalAbort platform options
          throw e) v s := by
  subst he
  rcases h.2 rfl with hprobe | hrequested
  · refine safe_bind (safe_clearPendingRemoteWriteAfterLocalAbort hs h.1) ?_
    intro _ v t ht hv
    exact safe_throw ht ⟨hv, fun _ => .inl hprobe⟩
  · have hasked : RunInv (some n) true v s := ⟨h.1.cache, h.1.carried, h.1.covers, fun _ => hrequested⟩
    refine safe_bind (safe_unasked (fun _ => rfl) (safe_clearPendingRemoteWriteAfterLocalAbort hs hasked)) ?_
    intro _ v t ht hv
    exact safe_throw ht ⟨hv.unasked fun _ => rfl, fun _ => .inr (hv.asked rfl)⟩

theorem safe_writeBoth {n : Nat} {finalData : Document D} {v : RunState D} {s : RunStore D}
    (hdata : finalData.snapshot = n) (hs : StoreInv s) (hv : RunInv (some n) asked v s) :
    Safe platform.quietPort StoreInv (fun result v t => RunInv (some n) asked v t ∧ result.1.snapshot = n)
      (Aborts options none asked) (writeBoth platform options finalData) v s := by
  unfold writeBoth
  refine safe_bind (safe_derive (Q := fun flagged v t => RunInv (some n) asked v t ∧
    (flagged.getD finalData).snapshot = n) hs fun _ h => ⟨hv, (snapshot_getD h).trans hdata⟩) ?_
  rintro flagged v s hs ⟨hv, hflagged⟩
  refine safe_bind (safe_forget (derives_writeLocal hflagged v s hs hv)) ?_
  rintro canonical v s hs ⟨hv, hcanonical⟩
  refine safe_bind (safe_derive (Q := fun cleared v t => RunInv (some n) asked v t ∧
    (cleared.getD canonical).snapshot = n) hs fun _ h => ⟨hv, (snapshot_getD h).trans hcanonical⟩) ?_
  rintro cleared v s hs ⟨hv, hcleared⟩
  refine safe_bind (safe_tryCatch (keeps_writeRemote hcleared v s hs hv) ?_) ?_
  · intro error v s hs h
    split
    · exact safe_clearPending_throw hs h (by assumption)
    · exact safe_forget (safe_writeLocal_throw hcanonical hs (by assumption) h.1)
  · intro _ v s hs hv
    refine safe_tryCatch (R := Aborts options (some n) asked) ?_ ?_
    · refine safe_bind (derives_writeLocal hcleared v s hs hv) ?_
      rintro written v t ht ⟨hv, hwritten⟩
      exact safe_pure ht ⟨hv, hwritten⟩
    · intro error v s hs h
      split
      · exact safe_clearPending_throw hs h (by assumption)
      · exact safe_throw hs (Aborts.forget h)

theorem keeps_isLocalPersistUnchanged :
    Keeps (D := D) platform options snapshot asked (isLocalPersistUnchanged options) := by
  unfold isLocalPersistUnchanged
  apply keeps_get
  intro state
  apply keeps_bind keeps_holds
  intro equivalent
  exact keeps_pure

theorem safe_mergeAndWrite {n : Nat} {localData : Document D} {pendingRemoteWrite : Bool} {v : RunState D}
    {s : RunStore D} (hdata : localData.snapshot = n) (hs : StoreInv s) (hv : RunInv (some n) asked v s) :
    Safe platform.quietPort StoreInv (fun result v t => RunInv (some n) asked v t ∧ result.1.snapshot = n)
      (Aborts options none asked) (mergeAndWrite platform options localData pendingRemoteWrite) v s := by
  unfold mergeAndWrite
  refine safe_bind (safe_forget (keeps_await v s hs hv)) fun _ v s hs hv => ?_
  refine safe_bind (safe_forget (keeps_readRemoteForCycle v s hs hv)) fun _ v s hs hv => ?_
  refine safe_bind (safe_derive (Q := fun merged v t => RunInv (some n) asked v t ∧
    (merged.getD localData).snapshot = n) hs fun _ h => ⟨hv, (snapshot_getD h).trans hdata⟩) ?_
  rintro merged v s hs ⟨hv, hmerged⟩
  refine safe_bind (safe_forget (keeps_holds v s hs hv)) fun valid v s hs hv => ?_
  refine safe_bind (safe_forget (keeps_check v s hs hv)) fun _ v s hs hv => ?_
  refine safe_bind (safe_forget (derives_prepareRemoteWriteData hmerged v s hs hv)) ?_
  rintro finalData v s hs ⟨hv, hfinal⟩
  refine safe_bind (safe_forget (keeps_holds v s hs hv)) fun preparedValid v s hs hv => ?_
  refine safe_bind (safe_forget (keeps_check v s hs hv)) fun _ v s hs hv => ?_
  refine safe_bind (safe_forget (keeps_isLocalPersistUnchanged v s hs hv)) fun unchanged v s hs hv => ?_
  split
  · exact safe_writeUnchangedLocal hfinal hs hv
  · exact safe_writeBoth hfinal hs hv

/-- The merged document is derived from a snapshot at the stamp that the run checks against. -/
theorem safe_performSyncCycle {v : RunState D} {s : RunStore D} (hs : StoreInv s) (hv : RunInv none asked v s) :
    Safe platform.quietPort StoreInv
      (fun result v t => RunInv (result.map fun merged => merged.1.snapshot) asked v t)
      (Aborts options none asked) (performSyncCycle platform options) v s := by
  unfold performSyncCycle
  have hmerge : ∀ (localData : Document D) pendingRemoteWrite v s, StoreInv s →
      RunInv (some localData.snapshot) asked v s →
      Safe platform.quietPort StoreInv
        (fun result v t => RunInv (result.map fun merged => merged.1.snapshot) asked v t) (Aborts options none asked)
        (do let result ← mergeAndWrite platform options localData pendingRemoteWrite
            return some result) v s := by
    intro localData pendingRemoteWrite v s hs hv
    refine safe_bind (safe_mergeAndWrite rfl hs hv) ?_
    rintro result v t ht ⟨hv, hresult⟩
    refine safe_pure ht ?_
    show RunInv (some result.1.snapshot) asked v t
    rw [hresult]
    exact hv
  refine safe_bind (safe_readLocalDataForSyncCycle hs hv) fun localData v s hs hv => ?_
  refine safe_bind (safe_forget (keeps_holds v s hs hv)) fun pending v s hs hv => ?_
  split
  · refine safe_bind (safe_forget (keeps_holds v s hs hv)) fun blocked v s hs hv => ?_
    split
    · exact safe_pure hs hv.forget
    · refine safe_bind (keeps_await v s hs hv.forget) fun _ v s hs hv => ?_
      refine safe_bind (safe_readLocalDataForSyncCycle hs hv) fun localData v s hs hv => ?_
      exact hmerge localData true v s hs hv
  · exact hmerge localData false v s hs hv

/-! ### After the merge -/

theorem safe_attachmentPass {n : Nat} {mergedData : Document D} {v : RunState D} {s : RunStore D}
    (hdata : mergedData.snapshot = n) (hs : StoreInv s) (hv : RunInv (some n) asked v s) :
    Safe platform.quietPort StoreInv
      (fun result v t => RunInv (some n) asked v t ∧ ∀ d, result = some d → d.snapshot = n)
      (Aborts options (some n) asked) (attachmentPass platform options mergedData) v s := by
  unfold attachmentPass
  refine safe_bind (keeps_ensureLocalSnapshotFresh v s hs hv) fun _ v s hs hv => ?_
  refine safe_bind (keeps_await v s hs hv) fun _ v s hs hv => ?_
  refine safe_bind (safe_syncAttachments hs hv) ?_
  rintro result v s hs ⟨hv, hresult⟩
  refine safe_bind (keeps_fence v s hs hv) fun _ v s hs hv => ?_
  refine safe_bind (keeps_holds v s hs hv) fun mutated v s hs hv => ?_
  split
  · refine safe_bind (keeps_ensureLocalSnapshotFresh v s hs hv) fun _ v s hs hv => ?_
    refine safe_pure hs ⟨hv, ?_⟩
    rintro _ ⟨⟩
    exact hresult.trans hdata
  · exact safe_pure hs ⟨hv, nofun⟩

theorem derives_runPostMergeAttachmentPhase {n : Nat} {mergedData : Document D} (hdata : mergedData.snapshot = n) :
    Derives platform options n asked (runPostMergeAttachmentPhase platform options mergedData) := by
  unfold runPostMergeAttachmentPhase
  apply derives_bind keeps_await
  intro _
  apply derives_bind keeps_holds
  intro needed
  split
  · exact derives_pure hdata
  · apply derives_bind keeps_await
    intro _ v s hs hv
    refine safe_bind (safe_tryCatch (safe_attachmentPass hdata hs hv) ?_) ?_
    · intro error v s hs h
      split
      · exact safe_throw hs h
      · exact safe_pure hs ⟨h.1, nofun⟩
    · rintro nextData v s hs ⟨hv, hnext⟩
      cases nextData with
      | none => exact safe_pure hs ⟨hv, hdata⟩
      | some nextData =>
        obtain rfl := hnext nextData rfl
        refine safe_tryCatch (R := Aborts options (some nextData.snapshot) asked) ?_ ?_
        · refine safe_bind (safe_persistLocalDataWithTracking hs hv) ?_
          rintro _ v s hs ⟨hv, -⟩
          refine safe_bind (keeps_await v s hs hv) fun _ v s hs hv => ?_
          exact safe_pure hs ⟨hv, rfl⟩
        · intro error v s hs h
          split
          · exact safe_throw hs h
          · exact safe_pure hs ⟨h.1, rfl⟩

theorem derives_runAttachmentCleanupPhase {n : Nat} {mergedData : Document D} (hdata : mergedData.snapshot = n) :
    Derives platform options n asked (runAttachmentCleanupPhase platform options mergedData) := by
  subst hdata
  unfold runAttachmentCleanupPhase
  apply derives_bind keeps_holds
  intro due
  split
  · exact derives_pure rfl
  · apply derives_bind keeps_fence
    intro _
    apply derives_bind keeps_count
    intro checks
    apply derives_bind (keeps_awaitWithChecks keeps_ensureDocumentFresh)
    intro _
    apply derives_bind keeps_fence
    intro _
    apply derives_bind keeps_ensureDocumentFresh
    intro _ v s hs hv
    refine safe_bind (safe_derive (Q := fun cleaned v t => RunInv (some mergedData.snapshot) asked v t ∧
      ∀ d, cleaned = some d → d.snapshot = mergedData.snapshot) hs fun _ h => ⟨hv, h⟩) ?_
    rintro cleaned v s hs ⟨hv, hcleaned⟩
    cases cleaned with
    | none => exact safe_pure hs ⟨hv, rfl⟩
    | some cleaned =>
      have hsnapshot := hcleaned cleaned rfl
      rw [← hsnapshot] at hv ⊢
      refine safe_bind (safe_persistLocalDataWithTracking hs hv) ?_
      rintro _ v s hs ⟨hv, -⟩
      exact safe_pure hs ⟨hv, rfl⟩

/-- Nothing lands while the fence is asserted for the last time. -/
theorem safe_refreshFence {v : RunState D} {s : RunStore D} (hs : StoreInv s) (hv : RunInv snapshot asked v s) :
    Safe platform.quietPort StoreInv
      (fun _ v' t => v = v' ∧ RunInv snapshot asked v t ∧ s = t) (Aborts options snapshot asked)
      (Run.call (.assertRemoteMutationFenceHeld "refresh")) v s := by
  refine safe_call (RunCall.assertRemoteMutationFenceHeld "refresh") hs fun choice => ?_
  cases hfailure : choice.failure with
  | none =>
    simp [RunPlatform.quietPort, RunPlatform.port, RunCall.isRefreshFence, RunChoice.quiet, awaited, RunStore.edits,
      hfailure]
    exact ⟨hs, hv⟩
  | some failure =>
    simp [RunPlatform.quietPort, RunPlatform.port, RunCall.isRefreshFence, RunChoice.quiet, awaited, RunStore.edits,
      hfailure]
    exact ⟨hs, hv.failed failure⟩

/-- A fresh snapshot covers what the store is refreshed from. -/
theorem safe_finalizeSuccess {n : Nat} {mergedData : Document D} {localWriteSkipped : Bool} {v : RunState D}
    {s : RunStore D} (hdata : mergedData.snapshot = n) (hs : StoreInv s) (hv : RunInv (some n) false v s)
    (hfresh : s.lastDataChangeAt ≤ v.localSnapshotChangeAt) :
    Safe platform.quietPort StoreInv (fun _ v t => RunInv none false v t) (Aborts options none false)
      (finalizeSuccess platform mergedData localWriteSkipped) v s := by
  subst hdata
  obtain ⟨hinv, hlater⟩ := storeInv_apply hs (le_trans hfresh (hv.covers _ rfl))
  have happly : Safe platform.quietPort StoreInv (fun _ v t => RunInv (some mergedData.snapshot) false v t)
      (Aborts options (some mergedData.snapshot) false) (Run.call (.applyDataToStore mergedData)) v s :=
    safe_sync (.applyDataToStore mergedData) hs fun _ => ⟨hinv, (), rfl, hv.later hlater⟩
  unfold finalizeSuccess
  split
  · refine safe_bind (safe_forget happly) fun _ v s hs hv => ?_
    refine safe_bind (safe_forget (safe_acceptCoveredLocalSnapshot hs hv)) ?_
    rintro _ v s hs ⟨hv, -⟩
    apply safe_getLastDataChangeAt hs
    apply safe_get_bind
    refine safe_bind (safe_forget (keeps_holds v s hs hv)) fun equivalent v s hs hv => ?_
    split
    · exact safe_sync .clearFollowUp hs fun _ =>
        ⟨⟨hs.applied, hs.untouched, hs.bounded⟩, (), rfl, hv.cache, hv.carried, nofun, nofun⟩
    · exact safe_pure hs hv.forget
  · split
    · exact safe_pure hs hv.forget
    · exact (safe_forget happly).mono (fun _ h => h) (fun _ _ _ h => h.forget) fun _ _ _ h => h

/-! ### The run -/

/-- A run that is aborted has asked for another. -/
def Requeues (options : RunOptions) (aborted : Prop) (v : RunState D) (s : RunStore D) : Prop :=
  ∃ asked, RunInv none asked v s ∧ (aborted → options.activationProbe = true ∨ asked = true)

theorem Aborts.requeues {e : RunError} {v : RunState D} {s : RunStore D} (h : Aborts options none asked e v s) :
    Requeues options (e = .localSyncAbort) v s := by
  obtain ⟨hv, habort⟩ := h
  by_cases he : e = .localSyncAbort
  · rcases habort he with hprobe | hrequested
    · exact ⟨asked, hv, fun _ => .inl hprobe⟩
    · exact ⟨true, ⟨hv.cache, hv.carried, nofun, fun _ => hrequested⟩, fun _ => .inr rfl⟩
  · exact ⟨asked, hv, fun h => absurd h he⟩

theorem Requeues.followUp {aborted : Prop} {v : RunState D} {s : RunStore D} (h : Requeues options aborted v s)
    (haborted : aborted) : options.activationProbe = true ∨ s.followUpRequested = true := by
  obtain ⟨asked, hv, hasked⟩ := h
  exact (hasked haborted).imp_right hv.asked

theorem safe_runMergePhase {v : RunState D} {s : RunStore D} (hs : StoreInv s) (hv : RunInv none false v s) :
    Safe platform.quietPort StoreInv (fun result v t => RunInv none false v t ∧ result ≠ .requeued)
      (Aborts options none false) (runMergePhase platform options) v s := by
  unfold runMergePhase
  refine safe_bind (safe_performSyncCycle hs hv) ?_
  rintro (_ | ⟨mergedData, skipped⟩) v s hs hv
  · exact safe_pure hs ⟨hv, nofun⟩
  · dsimp only [Option.map_some] at hv ⊢
    split
    · exact safe_pure hs ⟨hv.forget, nofun⟩
    · refine safe_bind (safe_forget (keeps_ensureDocumentFresh v s hs hv)) fun _ v s hs hv => ?_
      refine safe_bind (safe_forget (keeps_await v s hs hv)) fun _ v s hs hv => ?_
      refine safe_bind (safe_forget (derives_runPostMergeAttachmentPhase rfl v s hs hv)) ?_
      rintro attachedData v s hs ⟨hv, hattached⟩
      refine safe_bind (safe_forget (keeps_await v s hs hv)) fun _ v s hs hv => ?_
      refine safe_bind (safe_forget (derives_runAttachmentCleanupPhase hattached v s hs hv)) ?_
      rintro cleanedData v s hs ⟨hv, hcleaned⟩
      refine safe_bind (safe_forget (keeps_recordFastSyncState v s hs hv)) fun _ v s hs hv => ?_
      refine safe_bind (safe_forget (keeps_await v s hs hv)) fun _ v s hs hv => ?_
      refine safe_bind (safe_forget (safe_ensureLocalSnapshotFresh hs hv ?_)) ?_
      · rintro _ ⟨⟩
        rw [hcleaned]
      · rintro _ v s hs ⟨hv, hfresh⟩
        refine safe_bind (safe_forget (safe_refreshFence hs hv)) ?_
        rintro _ _ _ - ⟨rfl, -, rfl⟩
        apply safe_get_bind
        refine safe_bind (safe_finalizeSuccess hcleaned hs hv hfresh) fun _ v s hs hv => ?_
        refine safe_bind (keeps_await v s hs hv) fun _ v s hs hv => ?_
        exact safe_pure hs ⟨hv, nofun⟩

theorem safe_runPhases {v : RunState D} {s : RunStore D} (hs : StoreInv s) (hv : RunInv none false v s) :
    Safe platform.quietPort StoreInv (fun result v t => RunInv none false v t ∧ result ≠ .requeued)
      (Aborts options none false) (runPhases platform options) v s := by
  unfold runPhases
  refine safe_bind (keeps_await v s hs hv) fun _ v s hs hv => ?_
  apply safe_getLastDataChangeAt hs
  apply safe_modify_bind
  have hv : RunInv none false { v with localSnapshotChangeAt := s.lastDataChangeAt } s :=
    ⟨hv.cache, hv.carried, nofun, nofun⟩
  refine safe_bind (keeps_await _ s hs hv) fun _ v s hs hv => ?_
  refine safe_bind (keeps_holds v s hs hv) fun isDisabled v s hs hv => ?_
  split
  · exact safe_pure hs ⟨hv, nofun⟩
  · refine safe_ite_bind (keeps_runAttachmentPreSyncPhase v s hs hv) (safe_pure (a := ()) hs hv) fun _ v s hs hv => ?_
    refine safe_ite_bind (keeps_pure v s hs hv) (keeps_trySkipUnchangedFastSync v s hs hv) ?_
    intro fastSkipped v s hs hv
    dsimp only
    split
    · exact safe_pure hs ⟨hv, nofun⟩
    · refine safe_ite_bind (safe_pure (a := ()) hs hv) (keeps_tryArmLocalOnlyUploadFastPath v s hs hv) ?_
      intro _ v s hs hv
      refine safe_bind (keeps_holds v s hs hv) fun armed v s hs hv => ?_
      refine safe_ite_bind (keeps_pure v s hs hv) (keeps_trySkipUnchangedReadSync v s hs hv) ?_
      intro readSkipped v s hs hv
      split
      · exact safe_pure hs ⟨hv, nofun⟩
      · refine safe_ite_bind (safe_pure (a := ()) hs hv) (keeps_runAttachmentPreSyncPhase v s hs hv) fun _ v s hs hv => ?_
        exact safe_runMergePhase hs hv

theorem safe_handleRunError {error : RunError} {v : RunState D} {s : RunStore D} (hs : StoreInv s)
    (h : Aborts options none false error v s) :
    Safe platform.quietPort StoreInv (fun result v t => Requeues options (result = .requeued) v t)
      (Aborts options none false) (handleRunError platform options error) v s := by
  have hdone : ∀ result v s, StoreInv s → RunInv none false v s → result ≠ .requeued →
      Safe platform.quietPort StoreInv (fun result v t => Requeues options (result = .requeued) v t)
        (Aborts options none false) (pure result : Run D RunResult) v s :=
    fun result v s hs hv hresult => safe_pure hs ⟨false, hv, fun h => absurd h hresult⟩
  cases error with
  | localSyncAbort =>
    refine safe_bind (safe_holds (Q := fun _ v t => Aborts options none false .localSyncAbort v t) hs fun _ => h) ?_
    intro handled v s hs h
    split
    · exact hdone _ v s hs h.1 nofun
    · obtain ⟨asked, hv, hasked⟩ := Aborts.requeues h
      refine safe_ite_bind (safe_pure (a := ()) hs hv) (safe_unasked nofun (safe_persistPreSyncedDataAfterAbort hs hv)) ?_
      intro _ v s hs hv
      exact safe_pure hs ⟨asked, hv, fun _ => hasked rfl⟩
  | failure failure =>
    obtain ⟨hv, -⟩ := h
    cases failure with
    | attachmentTooLarge => exact hdone _ v s hs hv nofun
    | fileLockBusy =>
      refine safe_bind (keeps_holds v s hs hv) fun firstRetry v s hs hv => ?_
      refine safe_ite_bind (keeps_requestFollowUp v s hs hv) (safe_pure (a := ()) hs hv) fun _ v s hs hv => ?_
      exact hdone _ v s hs hv nofun
    | remoteFenceBusy =>
      refine safe_bind (keeps_requestFollowUp v s hs hv) fun _ v s hs hv => ?_
      exact hdone _ v s hs hv nofun
    | remoteFence | remoteWriteConflict | other =>
      refine safe_bind (keeps_holds v s hs hv) fun handled v s hs hv => ?_
      split
      · exact hdone _ v s hs hv nofun
      · refine safe_bind (keeps_swallow keeps_await v s hs hv) fun _ v s hs hv => ?_
        refine safe_bind (keeps_swallow keeps_await v s hs hv) fun _ v s hs hv => ?_
        exact hdone _ v s hs hv nofun

theorem keeps_releaseRemoteMutationFence :
    Keeps (D := D) platform options snapshot asked (releaseRemoteMutationFence options) :=
  keeps_tryCatch keeps_await fun _ v s hs h => keeps_requestFollowUp v s hs h.1

theorem safe_run {v : RunState D} {s : RunStore D} (hs : StoreInv s) (hv : RunInv none false v s) :
    Safe platform.quietPort StoreInv (fun result v t => Requeues options (result = .requeued) v t)
      (fun e v t => Requeues options (e = .localSyncAbort) v t) (run platform options) v s := by
  have houtcome : ∀ (outcome : Except RunError RunResult) v s, StoreInv s →
      Requeues options (outcome = .ok .requeued ∨ outcome = .error .localSyncAbort) v s → 
      Safe platform.quietPort StoreInv (fun result v t => Requeues options (result = .requeued) v t)
        (fun e v t => Requeues options (e = .localSyncAbort) v t)
        (do releaseRemoteMutationFence options
            settle outcome) v s := by
    intro outcome v s hs h
    obtain ⟨asked, hv, hasked⟩ := h
    refine safe_bind ((keeps_releaseRemoteMutationFence v s hs hv).mono (fun _ h => h) (fun _ _ _ h => h)
      fun _ _ _ h => Aborts.requeues h) fun _ v s hs hv => ?_
    cases outcome with
    | ok result => exact safe_pure hs ⟨asked, hv, fun h => hasked (.inl (congrArg _ h))⟩
    | error error => exact safe_throw hs ⟨asked, hv, fun h => hasked (.inr (congrArg _ h))⟩
  unfold run
  refine safe_bind (safe_tryCatch (R := Aborts options none false) ?_ ?_) houtcome
  · refine safe_bind (Q := fun result v t => Requeues options (result = .requeued) v t)
      (safe_tryCatch ((safe_runPhases hs hv).mono (fun _ h => h) ?_ fun _ _ _ h => h)
        fun _ _ _ hs h => safe_handleRunError hs h) ?_
    · intro result v s h
      exact ⟨false, h.1, fun hresult => absurd hresult h.2⟩
    · rintro result v s hs ⟨asked, hv, hasked⟩
      refine safe_pure hs ⟨asked, hv, ?_⟩
      intro h
      exact hasked (h.elim Except.ok.inj nofun)
  · intro e v s hs h
    obtain ⟨asked, hv, hasked⟩ := Aborts.requeues h
    refine safe_pure hs ⟨asked, hv, ?_⟩
    intro h
    exact hasked (h.elim nofun Except.error.inj)

end

end Run

/-! ### Every run -/

abbrev RunPoint (D : Type) :=
  RunStore D × Calls (RunCall D) (RunAnswer D) RunFailure (Except RunError RunResult × RunState D)

/-- No edit lands while the fence is asserted for the last time. -/
def QuietAtRefresh (point : RunPoint D) (choice : RunChoice D) : Prop :=
  match point.2 with
  | .done _ => True
  | .call op _ => op.isRefreshFence = true → choice.before = [] ∧ choice.after = []

def IsAborted (outcome : Except RunError RunResult) : Prop :=
  outcome = .ok .requeued ∨ outcome = .error .localSyncAbort

theorem step_quietPort {point : RunPoint D} {choice : RunChoice D} (h : QuietAtRefresh point choice) :
    Calls.step platform.port point choice = Calls.step platform.quietPort point choice := by
  obtain ⟨s, x⟩ := point
  cases x with
  | done result => rfl
  | call op next =>
    have hport : platform.quietPort op choice s = platform.port op choice s := by
      unfold RunPlatform.quietPort
      cases hrefresh : op.isRefreshFence with
      | false => rfl
      | true =>
        obtain ⟨hbefore, hafter⟩ := h hrefresh
        have hquiet : choice.quiet = choice := by
          cases choice
          cases hbefore
          cases hafter
          rfl
        rw [if_pos rfl, hquiet]
    simp only [Calls.step, hport]

theorem runInv_start (content persisted : D) (carriedAt age : Nat) (carried : Option D) :
    RunInv none false ⟨0, none, false, none, carried.map fun data => (carriedAt, ⟨data, 0⟩), false⟩
      (RunStore.init content persisted carriedAt age) := by
  refine ⟨nofun, ?_, nofun, nofun⟩
  intro changeAt data hcarried
  obtain ⟨carried, -, hpair⟩ := Option.map_eq_some_iff.1 hcarried
  cases hpair
  exact le_refl carriedAt

/-- A manual run without attachments. -/
def plainOptions : RunOptions := ⟨true, false, false, false, false, false, true⟩

def desktopPlatform : RunPlatform Nat := .desktop fun content data => content == data

def settled (holds : Bool) : RunChoice Nat := ⟨[], [], true, none, holds, 0, none⟩

/-- The choices of a run that writes nothing, before the last assertion. -/
def beforeRefresh : List (RunChoice Nat) :=
  List.replicate 3 (settled true) ++ settled false :: List.replicate 9 (settled true) ++
    settled false :: List.replicate 24 (settled true)

def hasSynced (point : RunPoint Nat) : Bool :=
  match point.2 with
  | .done (.ok .synced, _) => true
  | _ => false

end Mindwtr.Sync
