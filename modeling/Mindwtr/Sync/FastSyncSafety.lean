import Mindwtr.Sync.FastSyncSteps

/-!
# What a fast-sync record says

A run records the fingerprint of a local document with that of a remote version that the document has incorporated
(`fast_sync_records_sound`), in every run in which the remote fingerprint that is read for the record alone is still
that of the version the run has read or written. A cycle is then skipped, and a document uploaded without a read, only
for versions that the device has merged.

The fingerprint is read anew where neither the backend nor the write has left one, and then another device may have
written since. What that device wrote is hidden from then on (`record_hides_write`).
-/

namespace Mindwtr.Sync

open Mindwtr.Lib Transaction FastRun

section
variable {P F : Type} {fingerprint : P → F} {s t u : FastStore P F} [DecidableEq P] [DecidableEq F]
  {v : FastVars P F} {options : FastOptions} {data : P}

/-! ### The cycle -/

theorem safeStep_writeRemoteForCycle (hs : FastInv fingerprint s) (hv : KnowsRemote fingerprint options v s)
    (hdata : data ∈ s.held) :
    SafeStep fingerprint (fun _ w t => RecordableUnlessMerged options data w t ∧ Adds s t)
      (writeRemoteForCycle options data) v s := by
  unfold writeRemoteForCycle
  refine safe_bind (safeStep_quietly (quietly_ensureRemoteMutationFence hs)) ?_
  rintro _ w t ht ⟨⟨hvw, hst⟩, -⟩
  refine safe_bind (safeStep_quietly (quietly_await ht)) ?_
  rintro _ w t ht ⟨⟨hvw', hst'⟩, -⟩
  have hvw := hvw.trans hvw'
  have hst := hst.trans hst'
  have hw := hv.grows hvw hst
  apply safe_modify_bind
  have hw : KnowsRemote fingerprint options
      { w with lastRemoteWriteFingerprint := none, lastRemoteWriteMergedServerData := false } t :=
    ⟨hw.cache, hw.armed, hw.compare, hw.readCheck⟩
  refine safe_bind (safe_holds_same ht) ?_
  rintro uploaded _ _ - ⟨rfl, rfl⟩
  refine safe_bind (safe_check (R := fun _ _ _ => True) (Q := fun _ x u =>
    { w with lastRemoteWriteFingerprint := none, lastRemoteWriteMergedServerData := false } = x ∧ t = u) ht
    (fun _ => ⟨rfl, rfl⟩) fun _ => trivial) ?_
  rintro _ _ _ - ⟨rfl, rfl⟩
  refine safe_bind (safe_holds_same ht) ?_
  rintro uncompacted _ _ - ⟨rfl, rfl⟩
  apply safe_get_bind
  split
  · rename_i hskipped
    simp only [Bool.and_eq_true, decide_eq_true_eq] at hskipped
    exact safe_pure ht ⟨.inr ((hw.compare data hskipped.2).recordable (hst.held hdata) rfl), hst.adds⟩
  · refine safe_bind (safe_tryCatch (R := fun _ _ _ => True) (Q := fun outcome x u =>
      Wrote options data t outcome x u) ?_ ?_) ?_
    · refine safe_bind (safeStep_quietly (quietly_await ht)) ?_
      rintro _ x u hu ⟨⟨hwx, htu⟩, -⟩
      refine (safe_ioWriteRemote hu (hw.grows hwx htu)).mono (fun _ h => h) ?_ fun _ _ _ h => h
      intro outcome y z h
      exact ⟨htu.adds.trans h.adds, h.known⟩
    · intro e x u hu _
      split
      · exact safe_throw hu trivial
      · exact safe_throw hu trivial
    · intro outcome x u hu hwrote
      refine safe_bind (safeStep_quietly (quietly_await hu)) ?_
      rintro _ y z hz ⟨⟨hxy, huz⟩, -⟩
      refine safe_modify hz ⟨hwrote.recordable (hst.held hdata) hxy.io huz rfl rfl, ?_⟩
      exact (hst.adds.trans hwrote.adds).trans huz.adds

theorem safeStep_writeRemote (hs : FastInv fingerprint s) (hv : KnowsRemote fingerprint options v s)
    (hdata : data ∈ s.held) :
    SafeStep fingerprint (fun _ w t => RecordableUnlessMerged options data w t ∧ Adds s t)
      (writeRemote options data) v s := by
  unfold writeRemote
  refine safe_bind (safeStep_quietly (quietly_ensureLocalSnapshotFresh hs)) ?_
  rintro _ w t ht ⟨⟨hvw, hst⟩, -⟩
  refine (safeStep_writeRemoteForCycle ht (hv.grows hvw hst) (hst.held hdata)).mono (fun _ h => h) ?_ fun _ _ _ h => h
  rintro _ x u ⟨hrecordable, htu⟩
  exact ⟨hrecordable, hst.adds.trans htu⟩

/-- What is written to the remote is what the cycle ends with, or the server has merged. -/
theorem safeStep_performSyncCycle (hs : FastInv fingerprint s) (hv : KnowsRemote fingerprint options v s) :
    SafeStep fingerprint (fun result w t => ∀ data, result = some data →
        RecordableUnlessMerged options data w t ∧ data ∈ t.held) (performSyncCycle options) v s := by
  unfold performSyncCycle
  refine safe_bind (safeStep_quietly (quietly_readLocal hs)) ?_
  rintro localData w t ht ⟨⟨hvw, hst⟩, -⟩
  have hv := hv.grows hvw hst
  refine safe_bind (safeStep_quietly (quietly_holds ht)) ?_
  rintro blocked w t ht ⟨⟨hvw, hst⟩, -⟩
  have hv := hv.grows hvw hst
  split
  · exact safe_pure ht nofun
  · refine safe_bind (safeStep_quietly (quietly_derive ht)) ?_
    rintro localData w t ht ⟨⟨hvw, hst⟩, -⟩
    refine safe_bind (safeStep_readRemoteForCycle ht (hv.grows hvw hst)) ?_
    rintro remoteData w t ht hread
    have hv := hread.knows
    have hrest : ∀ merged w t, FastInv fingerprint t → KnowsRemote fingerprint options w t →
        SafeStep fingerprint (fun result w t => ∀ data, result = some data →
          RecordableUnlessMerged options data w t ∧ data ∈ t.held)
          (do
            let pruned ← FastRun.call (.derive "purgeExpiredTombstones" merged)
            let finalData ← prepareRemoteWriteData options pruned
            let valid ← FastRun.holds "the merged data is valid"
            check valid (.failure .other)
            let unchanged ← FastRun.holds "the local document is unchanged and no remote write is pending"
            if unchanged then
              writeRemote options finalData
              return some finalData
            else
              let canonical ← writeLocal options finalData
              writeRemote options canonical
              let persisted ← writeLocal options canonical
              return some persisted) w t := by
      intro merged w t ht hv
      refine safe_bind (safeStep_quietly (quietly_derive ht)) ?_
      rintro pruned w t ht ⟨⟨hvw, hst⟩, hpruned⟩
      have hv := hv.grows hvw hst
      refine safe_bind (safeStep_quietly (quietly_prepareRemoteWriteData ht hpruned.held)) ?_
      rintro finalData w t ht ⟨⟨hvw, hst⟩, hfinal⟩
      have hv := hv.grows hvw hst
      refine safe_bind (safeStep_quietly (quietly_holds ht)) ?_
      rintro valid w t' ht ⟨⟨hvw, hst⟩, -⟩
      have hv := hv.grows hvw hst
      have hheld := hst.held hfinal.held
      refine safe_bind (safeStep_quietly (quietly_check ht)) ?_
      rintro _ w t' ht ⟨⟨hvw, hst⟩, -⟩
      have hv := hv.grows hvw hst
      have hheld := hst.held hheld
      refine safe_bind (safeStep_quietly (quietly_holds ht)) ?_
      rintro unchanged w t' ht ⟨⟨hvw, hst⟩, -⟩
      have hv := hv.grows hvw hst
      have hheld := hst.held hheld
      split
      · refine safe_bind (safeStep_writeRemote ht hv hheld) ?_
        rintro _ x u hu ⟨hrecordable, htu⟩
        refine safe_pure hu ?_
        rintro data ⟨⟩
        exact ⟨hrecordable, htu.held hheld⟩
      · refine safe_bind (safeStep_quietly (quietly_writeLocal ht hheld)) ?_
        rintro canonical w t' ht ⟨⟨hvw, hst⟩, hcanonical⟩
        refine safe_bind (safeStep_writeRemote ht (hv.grows hvw hst) hcanonical.held) ?_
        rintro _ x u hu ⟨hrecordable, htu⟩
        refine safe_bind (safeStep_quietly (quietly_writeLocal hu (htu.held hcanonical.held))) ?_
        rintro persisted y z hz ⟨⟨hxy, huz⟩, hpersisted⟩
        refine safe_pure hz ?_
        rintro data ⟨⟩
        exact ⟨hrecordable.derives hxy huz hpersisted, hpersisted.held⟩
    split
    · refine safe_bind (safeStep_quietly (quietly_derive ht)) ?_
      rintro merged w t ht ⟨⟨hvw, hst⟩, -⟩
      exact hrest merged w t ht (hv.grows hvw hst)
    · refine safe_bind (safeStep_quietly (quietly_merge ht)) ?_
      rintro merged w t ht ⟨⟨hvw, hst⟩, -⟩
      exact hrest merged w t ht (hv.grows hvw hst)

theorem safeStep_runMergePhase (hs : FastInv fingerprint s) (hv : KnowsRemote fingerprint options v s) :
    SafeStep fingerprint (fun _ _ _ => True) (runMergePhase options fingerprint) v s := by
  unfold runMergePhase
  refine safe_bind (safeStep_performSyncCycle hs hv) ?_
  intro result w t ht hresult
  split
  · exact safe_pure ht trivial
  · rename_i data
    obtain ⟨hrecordable, hheld⟩ := hresult data rfl
    split
    · exact safe_pure ht trivial
    · refine safe_bind (safeStep_quietly (quietly_ensureLocalSnapshotFresh ht)) ?_
      rintro _ w t ht ⟨⟨hvw, hst⟩, -⟩
      have hrecordable := hrecordable.derives hvw hst ((Derives.refl hheld).grows hst)
      have hheld := hst.held hheld
      refine safe_bind (safeStep_quietly (quietly_await ht)) ?_
      rintro _ w t ht ⟨⟨hvw, hst⟩, -⟩
      have hrecordable := hrecordable.derives hvw hst ((Derives.refl hheld).grows hst)
      have hheld := hst.held hheld
      refine safe_bind (safeStep_quietly (quietly_runPostMergeAttachmentPhase ht hheld)) ?_
      rintro ⟨transferred, unsafe₁⟩ w t ht ⟨⟨hvw, hst⟩, hderives⟩
      have hrecordable := hrecordable.derives hvw hst hderives
      refine safe_bind (safeStep_quietly (quietly_runAttachmentCleanupPhase ht hderives.held)) ?_
      rintro ⟨cleaned, unsafe₂⟩ w t ht ⟨⟨hvw, hst⟩, hderives⟩
      have hrecordable := hrecordable.derives hvw hst hderives
      dsimp only
      split
      · exact safe_pure ht trivial
      · exact safeStep_recordFastSyncState ht hrecordable

/-- The local document is that of the version the run has read. -/
theorem safeStep_trySkipUnchangedReadSync (hs : FastInv fingerprint s) (hv : BeforeRead fingerprint v s) :
    SafeStep fingerprint (fun skipped w t => skipped = false → KnowsRemote fingerprint options w t)
      (trySkipUnchangedReadSync options fingerprint) v s := by
  unfold trySkipUnchangedReadSync
  refine safe_bind (safeStep_quietly (quietly_readUnpatchedLocalData hs)) ?_
  rintro localData w t ht ⟨⟨hvw, hst⟩, hlocal⟩
  have hv := hv.same hvw hst
  split
  · exact safe_pure ht fun _ => hv.knows
  · rename_i localData
    have hheld := hlocal localData rfl
    have hknows : KnowsRemote fingerprint options w t := hv.knows
    refine safe_bind (safeStep_readRemoteForCycle ht hknows) ?_
    rintro remoteData x u hu hread
    refine safe_bind (safeStep_quietly (quietly_ensureLocalSnapshotFresh hu)) ?_
    rintro _ y z hz ⟨⟨hxy, huz⟩, -⟩
    have hknows := hread.knows.grows hxy huz
    split
    · exact safe_pure hz fun _ => hknows
    · rename_i remoteData
      obtain ⟨hincorporated, hseen, hunmistaken⟩ := hread.version remoteData rfl
      have hseen := hseen.grows hxy huz
      apply safe_modify_bind
      have hknows : KnowsRemote fingerprint options { y with readCheckRemoteData := some remoteData } z := by
        refine ⟨hknows.cache, hknows.armed, hknows.compare, ?_⟩
        intro remote hremote
        obtain rfl := Option.some.inj hremote
        exact ⟨huz.incorporated hincorporated, hseen⟩
      refine safe_bind (safe_holds_same hz) ?_
      rintro uncompacted _ _ - ⟨rfl, rfl⟩
      split
      · rename_i hsame
        simp only [Bool.and_eq_true, decide_eq_true_eq] at hsame
        obtain rfl := hunmistaken hv.unread.readCheck localData hheld hsame.2
        have hwritten : y.lastRemoteWriteFingerprint = none :=
          hxy.written.trans (hread.written.trans hv.unread.written)
        have hrecordable : Recordable options { y with readCheckRemoteData := some remoteData } z remoteData.document :=
          IsLastSeen.recordable hseen (huz.held (hread.adds.held hheld)) hwritten
        refine safe_bind (safeStep_recordFastSyncState hz (.inr hrecordable)) ?_
        rintro _ w t ht -
        refine safe_bind (safeStep_quietly (quietly_persistUnchangedSyncStatus ht)) ?_
        rintro _ w t ht -
        apply safe_modify_bind
        exact safe_pure ht fun hskipped => Bool.noConfusion hskipped
      · exact safe_pure hz fun _ => hknows

theorem safeStep_runFullCycle (hs : FastInv fingerprint s) (hv : KnowsRemote fingerprint options v s) :
    SafeStep fingerprint (fun _ _ _ => True) (runFullCycle options fingerprint) v s := by
  unfold runFullCycle
  split
  · exact safeStep_runMergePhase hs hv
  · refine safe_bind (safeStep_quietly (quietly_runAttachmentPreSyncPhase hs)) ?_
    rintro _ w t ht ⟨⟨hvw, hst⟩, -⟩
    exact safeStep_runMergePhase ht (hv.grows hvw hst)

theorem safeStep_runFromReadCheck {armed : Bool} (hs : FastInv fingerprint s)
    (hv : KnowsRemote fingerprint options v s) (hbefore : armed = false → BeforeRead fingerprint v s) :
    SafeStep fingerprint (fun _ _ _ => True) (runFromReadCheck options fingerprint armed) v s := by
  unfold runFromReadCheck
  split
  · exact safeStep_runFullCycle hs hv
  · rename_i hunskipped
    have harmed : armed = false := by
      rw [← Bool.not_eq_true]
      rintro rfl
      simp at hunskipped
    refine safe_bind (safeStep_trySkipUnchangedReadSync hs (hbefore harmed)) ?_
    intro readSkipped w t ht hw
    cases readSkipped with
    | true => exact safe_pure ht trivial
    | false => exact safeStep_runFullCycle ht (hw rfl)

theorem safeStep_runFromFastCheck (hs : FastInv fingerprint s) (hv : BeforeRead fingerprint v s) :
    SafeStep fingerprint (fun _ _ _ => True) (runFromFastCheck options fingerprint) v s := by
  unfold runFromFastCheck
  cases hprobe : options.activationProbe with
  | true => exact safeStep_runFromReadCheck hs hv.knows fun _ => hv
  | false =>
    refine safe_bind (safeStep_trySkipUnchangedFastSync hs hv) ?_
    intro fastSkipped w t ht hw
    cases fastSkipped with
    | true => exact safe_pure ht trivial
    | false =>
      refine safe_bind (safeStep_tryArmLocalOnlyUploadFastPath ht hw) ?_
      rintro armed w t ht ⟨hknows, hbefore⟩
      exact safeStep_runFromReadCheck ht hknows hbefore

/-- A run keeps the invariant of its record at every call. -/
theorem safeStep_runPhases (hs : FastInv fingerprint s) (hv : BeforeRead fingerprint v s) :
    SafeStep fingerprint (fun _ _ _ => True) (runPhases options fingerprint) v s := by
  unfold runPhases
  refine safe_bind (safeStep_quietly (quietly_await hs)) ?_
  rintro _ w t ht ⟨⟨hvw, hst⟩, -⟩
  have hw := hv.same hvw hst
  split
  · refine safe_bind (safeStep_quietly (quietly_runAttachmentPreSyncPhase ht)) ?_
    rintro _ w t ht ⟨⟨hvw, hst⟩, -⟩
    exact safeStep_runFromFastCheck ht (hw.same hvw hst)
  · exact safeStep_runFromFastCheck ht hw

/-! ### The device -/

/-- The remote fingerprint that a run reads for its record alone is that of the version it has last read or written,
and no local document is mistaken for the remote document it reads. -/
def RecordsLastSeen (fingerprint : P → F) (d : FastDevice P F) : FastEvent P → Prop
  | .settle choice => ∀ op next, d.run = some (.call op next) → admitted fingerprint op choice d.store = true
  | _ => True

structure DeviceInv (fingerprint : P → F) (d : FastDevice P F) : Prop where
  store : FastInv fingerprint d.store
  run : ∀ program, d.run = some program →
    Calls.Safe (admittedPort fingerprint) (FastInv fingerprint) (fun _ _ => True) program d.store

theorem safe_fastSyncRun (options : FastOptions) (allowLegacyWebdavPlaintext : Bool) (hs : FastInv fingerprint s) :
    Calls.Safe (admittedPort fingerprint) (FastInv fingerprint) (fun _ _ => True)
      (fastSyncRun fingerprint options allowLegacyWebdavPlaintext) s := by
  have hstart : BeforeRead fingerprint { io := { allowLegacyWebdavPlaintext } } s :=
    ⟨⟨rfl, rfl, rfl, rfl, rfl⟩, nofun⟩
  exact Calls.Safe.mono (safeStep_runPhases hs hstart) (fun _ h => h) fun _ _ _ => trivial

theorem deviceInv_step {d e : FastDevice P F} {event : FastEvent P} (hd : DeviceInv fingerprint d)
    (hok : RecordsLastSeen fingerprint d event) (hstep : fastStep fingerprint d event = some e) :
    DeviceInv fingerprint e := by
  obtain ⟨store, run⟩ := d
  cases event with
  | start options allowLegacyWebdavPlaintext =>
    cases run with
    | some program => cases hstep
    | none =>
      obtain rfl := Option.some.inj hstep
      refine ⟨hd.store, ?_⟩
      rintro program ⟨⟩
      exact safe_fastSyncRun options allowLegacyWebdavPlaintext hd.store
  | peerWrites document =>
    cases run with
    | some program => cases hstep
    | none =>
      obtain rfl := Option.some.inj hstep
      exact ⟨fastInv_put hd.store document, nofun⟩
  | settle choice =>
    cases run with
    | none => cases hstep
    | some program =>
      have hsafe := hd.run program rfl
      cases program with
      | done result =>
        obtain rfl := Option.some.inj hstep
        exact ⟨hd.store, nofun⟩
      | call op next =>
        obtain rfl := Option.some.inj hstep
        have hport : admittedPort fingerprint op choice store = fastPort op choice store := if_pos (hok op next rfl)
        have hnext := hsafe.2 choice
        rw [hport] at hnext
        refine ⟨hnext.inv, ?_⟩
        rintro program ⟨⟩
        exact hnext

/-- A device whose remote document is there, or not. -/
def FastDevice.init (remote : Option P) : FastDevice P F := ⟨({} : FastStore P F).peers remote.toList, none⟩

theorem deviceInv_init (fingerprint : P → F) (remote : Option P) : DeviceInv fingerprint (.init remote) := by
  have hempty : FastInv fingerprint ({} : FastStore P F) := ⟨nofun, nofun, nofun, nofun⟩
  exact ⟨(fastInv_peers hempty remote.toList).1, nofun⟩

/-- A record is of a local document and a version that it has incorporated; cycles are skipped, and documents uploaded
without a read, only for versions that the device has merged. -/
theorem fast_sync_records_sound {fingerprint : P → F} {remote : Option P} {d : FastDevice P F}
    (h : Reaches (fastStep fingerprint) (RecordsLastSeen fingerprint) (.init remote) d) :
    (∀ state, d.store.recorded = some state →
      HasIncorporated fingerprint d.store state.localFingerprint state.remoteFingerprint.version) ∧
    (∀ skip ∈ d.store.unchangedSkips, HasIncorporated fingerprint d.store skip.1 skip.2) ∧
    ∀ version ∈ d.store.localOnlyUploads, HasMerged d.store version := by
  have hd : DeviceInv fingerprint d := h.invariant (deviceInv_init fingerprint remote)
    fun _ _ _ hd hok hstep => deviceInv_step hd hok hstep
  exact ⟨hd.store.recorded, hd.store.skips, hd.store.uploads⟩

end

/-! ### A run of a self-hosted device -/

def selfhostedOptions : FastOptions where
  manual := false
  activationProbe := false
  ignorePendingRemoteWriteBackoff := false
  preSyncAttachmentsBeforeFastCheck := true
  enableReadCheckSkip := false
  attachmentPhasesEnabled := false
  postMergeAttachmentsMayFail := false
  backend := .selfhosted
  hasFastSyncScope := true
  syncEncryptionOff := true

/-- The answers to the checks on data in a run, or a call that has no other answer. -/
def yes : FastEvent Nat := .settle {}

def no : FastEvent Nat := .settle { holds := false }

/-- The local document of the device. -/
def localOne : FastEvent Nat := .settle { document := some 1 }

/-- A run that finds local and remote document alike, up to the fingerprint it reads for its record. -/
def unchangedCycle : List (FastEvent Nat) :=
  [.start selfhostedOptions false, yes, yes, localOne, yes, no, yes, no, yes, localOne, yes, no] ++
    [localOne, no, yes, yes, no, yes, yes, yes, yes, yes, yes, yes, yes, yes, no, yes, yes, no] ++
      [yes, yes, no, no, no, no, yes]

def admits (d : FastDevice Nat Nat) : FastEvent Nat → Bool
  | .settle choice =>
    match d.run with
    | some (.call op _) => admitted id op choice d.store
    | _ => true
  | _ => true

theorem recordsLastSeen_of_admits {d : FastDevice Nat Nat} {event : FastEvent Nat} (h : admits d event = true) :
    RecordsLastSeen id d event := by
  cases event with
  | settle choice =>
    intro op next hrun
    simpa only [admits, hrun] using h
  | start => trivial
  | peerWrites => trivial

/-- The remote document has stayed the same. -/
theorem fast_sync_records_sound_unchanged : ∃ d : FastDevice Nat Nat,
    d.store.recorded = some ⟨1, .strongEtag 0⟩ ∧ HasIncorporated id d.store 1 0 := by
  have hrun : (runEvents (fun a e => if admits a e then fastStep id a e else none)
      (FastDevice.init (some 1) : FastDevice Nat Nat) (unchangedCycle ++ [yes, yes])).any
      (fun d => d.store.recorded = some ⟨1, .strongEtag 0⟩) = true := by
    decide +kernel
  obtain ⟨d, hd, hrecorded⟩ := (Option.any_eq_true _ _).mp hrun
  have hreaches := reaches_of_guarded (fun _ _ => recordsLastSeen_of_admits) hd
  have hrecorded := of_decide_eq_true hrecorded
  exact ⟨d, hrecorded, (fast_sync_records_sound hreaches).1 _ hrecorded⟩

/-- Another device writes before the run reads the fingerprint for its record. The next cycle is skipped, and what that
device has written is not merged. -/
theorem record_hides_write : ∃ d : FastDevice Nat Nat,
    Reaches (fastStep id) (fun _ _ => True) (.init (some 1)) d ∧ d.store.remote = some ⟨2, 1⟩ ∧
    d.store.recorded = some ⟨1, .strongEtag 1⟩ ∧ d.store.unchangedSkips = [(1, 1)] ∧ ¬ HasMerged d.store 1 := by
  have hrun : (runEvents (fastStep id) (FastDevice.init (some 1) : FastDevice Nat Nat)
      (unchangedCycle ++ [.settle { before := [2] }, yes, yes] ++
        [.start selfhostedOptions false, yes, yes, localOne, yes, no, yes, yes, yes, yes, yes, yes, yes, yes])).any
      (fun d => d.store.remote = some ⟨2, 1⟩ && d.store.recorded = some ⟨1, .strongEtag 1⟩ &&
        d.store.unchangedSkips = [(1, 1)] && d.store.held.all fun document => (document, 1) ∉ d.store.incorporated) =
      true := by
    decide +kernel
  obtain ⟨d, hreaches, hd⟩ := reaches_of_any hrun
  simp only [Bool.and_eq_true, decide_eq_true_eq, List.all_eq_true] at hd
  obtain ⟨⟨⟨hremote, hrecorded⟩, hskips⟩, hunmerged⟩ := hd
  refine ⟨d, hreaches, hremote, hrecorded, hskips, ?_⟩
  rintro ⟨document, hheld, hversion⟩
  exact hunmerged document hheld hversion

end Mindwtr.Sync
