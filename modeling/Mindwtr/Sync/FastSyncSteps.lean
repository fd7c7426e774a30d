import Mindwtr.Sync.FastSyncHistory

/-!
# The steps of a run that look at the remote document, and those that do not

Most steps leave what the run knows alone (`Quietly`). Its reads, its writes and its records keep `FastInv` in any
interleaving with other devices, where the fingerprints that are read for a record alone are admitted (`admitted`).
-/

namespace Mindwtr.Sync

open Mindwtr.Lib Transaction FastRun

section
variable {P F : Type} {fingerprint : P → F} {s t u : FastStore P F}

/-! ### Calls -/

variable [DecidableEq P] [DecidableEq F]

/-- The remote fingerprint that is read for a record is that of the version last seen, and no local document has the
fingerprint of another document that is read. -/
def admitted (fingerprint : P → F) (op : FastCall P F) (choice : FastChoice P) (s : FastStore P F) : Bool :=
  match op with
  | .readRemoteFingerprint true => (s.peers choice.before).remote.map (·.version) = s.lastSeen
  | .readRemote => (s.peers choice.before).remote.all fun remote =>
      s.held.all fun document => fingerprint document ≠ fingerprint remote.document || document = remote.document
  | _ => true

/-- The calls that are not admitted fail. -/
def admittedPort (fingerprint : P → F) (op : FastCall P F) (choice : FastChoice P) (s : FastStore P F) :
    Except FastFailure (FastAnswer P F op) × FastStore P F :=
  if admitted fingerprint op choice s then fastPort op choice s else (.error .other, s)

/-- A step that neither looks at the remote document nor moves what the run knows of it, and ends with `Q`. -/
def Quietly {A : Type} (fingerprint : P → F) (Q : A → FastStore P F → Prop) (x : FastRun P F A) (v : FastVars P F)
    (s : FastStore P F) : Prop :=
  Safe (admittedPort fingerprint) (FastInv fingerprint) (fun a w t => (SameVars v w ∧ Grows s t) ∧ Q a t)
    (fun _ w t => SameVars v w ∧ Grows s t) x v s

section
variable {A B : Type} {v w : FastVars P F} {Q : A → FastStore P F → Prop} {R : B → FastStore P F → Prop}

theorem quietly_pure {a : A} (hs : FastInv fingerprint s) (h : Q a s) : Quietly fingerprint Q (pure a) v s :=
  safe_pure hs ⟨⟨SameVars.refl v, Grows.refl s⟩, h⟩

theorem quietly_throw {e : FastError} (hs : FastInv fingerprint s) : Quietly fingerprint Q (throw e) v s :=
  safe_throw hs ⟨SameVars.refl v, Grows.refl s⟩

theorem quietly_bind {x : FastRun P F A} {f : A → FastRun P F B} (h : Quietly fingerprint Q x v s)
    (hf : ∀ a w t, FastInv fingerprint t → SameVars v w → Grows s t → Q a t → Quietly fingerprint R (f a) w t) :
    Quietly fingerprint R (x >>= f) v s := by
  refine safe_bind (h.mono (fun _ h => h) (fun _ _ _ h => h) fun _ _ _ h => h) ?_
  rintro a w t ht ⟨⟨hvw, hst⟩, hQ⟩
  refine (hf a w t ht hvw hst hQ).mono (fun _ h => h) ?_ ?_
  · rintro b x u ⟨⟨hwx, htu⟩, hR⟩
    exact ⟨⟨hvw.trans hwx, hst.trans htu⟩, hR⟩
  · rintro e x u ⟨hwx, htu⟩
    exact ⟨hvw.trans hwx, hst.trans htu⟩

theorem quietly_tryCatch {x : FastRun P F A} {handler : FastError → FastRun P F A} (h : Quietly fingerprint Q x v s)
    (hcatch : ∀ e w t, FastInv fingerprint t → SameVars v w → Grows s t → Quietly fingerprint Q (handler e) w t) :
    Quietly fingerprint Q (tryCatch x handler) v s := by
  refine safe_tryCatch h ?_
  rintro e w t ht ⟨hvw, hst⟩
  refine (hcatch e w t ht hvw hst).mono (fun _ h => h) ?_ ?_
  · rintro b x u ⟨⟨hwx, htu⟩, hR⟩
    exact ⟨⟨hvw.trans hwx, hst.trans htu⟩, hR⟩
  · rintro e x u ⟨hwx, htu⟩
    exact ⟨hvw.trans hwx, hst.trans htu⟩

theorem quietly_mono {Q' : A → FastStore P F → Prop} {x : FastRun P F A} (h : Quietly fingerprint Q x v s)
    (hQ : ∀ a t, Grows s t → Q a t → Q' a t) : Quietly fingerprint Q' x v s := by
  refine Safe.mono h (fun _ h => h) ?_ fun _ _ _ h => h
  rintro a w t ⟨⟨hvw, hst⟩, h⟩
  exact ⟨⟨hvw, hst⟩, hQ a t hst h⟩

theorem quietly_call (op : FastCall P F) {Q : FastAnswer P F op → FastStore P F → Prop} (hs : FastInv fingerprint s)
    (h : ∀ choice, admitted fingerprint op choice s = true →
      FastInv fingerprint (fastPort op choice s).2 ∧ Grows s (fastPort op choice s).2 ∧
        ∀ a, (fastPort op choice s).1 = .ok a → Q a (fastPort op choice s).2) :
    Quietly fingerprint Q (FastRun.call op) v s := by
  refine safe_call op hs fun choice => ?_
  unfold admittedPort
  split_ifs with hadmitted
  · obtain ⟨hinv, hgrows, hanswer⟩ := h choice hadmitted
    refine ⟨hinv, ?_⟩
    split
    · rename_i a ha
      exact ⟨⟨SameVars.refl v, hgrows⟩, hanswer a ha⟩
    · exact ⟨SameVars.refl v, hgrows⟩
  · exact ⟨hs, SameVars.refl v, Grows.refl s⟩

theorem quietly_awaited (op : FastCall P F) {effect : FastStore P F → FastStore P F}
    {answer : FastChoice P → FastStore P F → FastAnswer P F op} {Q : FastAnswer P F op → FastStore P F → Prop}
    (hs : FastInv fingerprint s)
    (hport : ∀ choice, fastPort op choice s = awaitedRemote choice effect (answer choice) s)
    (heffect : ∀ t, FastInv fingerprint t → Grows s t → FastInv fingerprint (effect t) ∧ Grows t (effect t))
    (hanswer : ∀ choice u, admitted fingerprint op choice s = true → FastInv fingerprint (s.peers choice.before) →
      Grows s u → Grows (effect (s.peers choice.before)) u → Q (answer choice (s.peers choice.before)) u) :
    Quietly fingerprint Q (FastRun.call op) v s := by
  apply quietly_call op hs
  intro choice hadmitted
  rw [hport choice]
  exact awaitedRemote_keeps hs heffect fun u => hanswer choice u hadmitted

theorem quietly_await {what : String} (hs : FastInv fingerprint s) :
    Quietly fingerprint (fun _ _ => True) (FastRun.await what) v s := by
  have hport : ∀ choice, fastPort (.await what) choice s = awaitedRemote choice (fun s => s) (fun _ => ()) s :=
    fun _ => rfl
  exact quietly_awaited (.await what) hs hport (fun t ht _ => ⟨ht, Grows.refl t⟩) fun _ _ _ _ _ _ => trivial

theorem quietly_holds {check : String} (hs : FastInv fingerprint s) :
    Quietly fingerprint (fun _ _ => True) (FastRun.holds check) v s :=
  quietly_call (.holds check) hs fun _ _ => ⟨hs, Grows.refl s, fun _ _ => trivial⟩

theorem safe_holds_same {check : String} {R : FastError → FastVars P F → FastStore P F → Prop}
    (hs : FastInv fingerprint s) :
    Safe (admittedPort fingerprint) (FastInv fingerprint) (fun _ w t => v = w ∧ s = t) R (FastRun.holds check) v s :=
  ⟨hs, fun _ => ⟨hs, rfl, rfl⟩⟩

theorem quietly_derive {step : String} {document : P} (hs : FastInv fingerprint s) :
    Quietly fingerprint (fun derived t => Derives s document t derived) (FastRun.call (.derive step document)) v s := by
  refine quietly_call (.derive step document) hs fun choice _ => ?_
  obtain ⟨hinv, hgrows, hderives⟩ := fastInv_derive hs document (choice.document.getD document)
  refine ⟨hinv, hgrows, ?_⟩
  rintro a ⟨⟩
  exact hderives

theorem quietly_merge {localData : P} {remoteData : RemoteVersion P} (hs : FastInv fingerprint s) :
    Quietly fingerprint (fun merged t => merged ∈ t.held ∧ (merged, remoteData.version) ∈ t.incorporated)
      (FastRun.call (.mergeAppDataWithStats localData remoteData)) v s := by
  refine quietly_call (.mergeAppDataWithStats localData remoteData) hs fun choice _ => ?_
  obtain ⟨hinv, hgrows, hmerged⟩ := fastInv_merge hs localData remoteData (choice.document.getD localData)
  refine ⟨hinv, hgrows, ?_⟩
  rintro a ⟨⟩
  exact hmerged

theorem quietly_readLocal (hs : FastInv fingerprint s) :
    Quietly fingerprint (fun document t => document ∈ t.held) (FastRun.call .readLocalDataForSyncCycle) v s := by
  refine quietly_call .readLocalDataForSyncCycle hs fun choice _ => ?_
  cases hdocument : choice.document with
  | none =>
    have hport : fastPort .readLocalDataForSyncCycle choice s = (.error .other, s.peers choice.before) := by
      simp only [fastPort, hdocument]
    obtain ⟨hinv, hgrows⟩ := fastInv_peers hs choice.before
    rw [hport]
    exact ⟨hinv, hgrows, nofun⟩
  | some document =>
    have hport : fastPort .readLocalDataForSyncCycle choice s =
        awaitedRemote choice (·.hold document) (fun _ => document) s := by
      simp only [fastPort, hdocument]
    rw [hport]
    refine awaitedRemote_keeps (Q := fun a t => a ∈ t.held) hs (fun t ht _ => fastInv_hold ht document) ?_
    intro u _ _ hgrows
    exact hgrows.held List.mem_cons_self

theorem quietly_check {condition : Bool} {e : FastError} (hs : FastInv fingerprint s) :
    Quietly fingerprint (fun _ _ => condition = true) (check condition e) v s := by
  cases condition with
  | true => exact quietly_pure hs rfl
  | false => exact quietly_throw hs

theorem quietly_modify {f : FastVars P F → FastVars P F} (hs : FastInv fingerprint s) (hf : SameVars v (f v)) :
    Quietly fingerprint (fun _ _ => True) (modify f : FastRun P F PUnit) v s :=
  safe_modify hs ⟨⟨hf, Grows.refl s⟩, trivial⟩

end

/-! ### Steps that leave the remote document alone -/

variable {v : FastVars P F} {options : FastOptions} {data : P}

theorem quietly_ensureLocalSnapshotFresh (hs : FastInv fingerprint s) :
    Quietly fingerprint (fun _ _ => True) ensureLocalSnapshotFresh v s := by
  unfold ensureLocalSnapshotFresh
  apply quietly_bind (quietly_holds hs)
  intro fresh w t ht _ _ _
  exact quietly_mono (quietly_check ht) fun _ _ _ _ => trivial

theorem quietly_ensureRemoteMutationFence (hs : FastInv fingerprint s) :
    Quietly fingerprint (fun _ _ => True) ensureRemoteMutationFence v s := by
  unfold ensureRemoteMutationFence
  apply safe_get_bind
  split
  · exact quietly_await hs
  · apply quietly_bind (quietly_await hs)
    intro _ w t ht _ _ _
    apply quietly_bind (quietly_holds ht)
    intro leased w t ht _ _ _
    split
    · exact quietly_modify ht ⟨rfl, rfl, rfl, rfl, rfl, nofun, nofun⟩
    · exact quietly_pure ht trivial

theorem quietly_readUnpatchedLocalData (hs : FastInv fingerprint s) :
    Quietly fingerprint (fun localData t => ∀ document, localData = some document → document ∈ t.held)
      readUnpatchedLocalData v s := by
  unfold readUnpatchedLocalData
  apply quietly_bind (quietly_await hs)
  intro _ w t ht _ _ _
  apply safe_get_bind
  split
  · exact quietly_pure ht nofun
  · apply quietly_bind (quietly_readLocal ht)
    intro localData w t ht _ _ hlocal
    apply quietly_bind (quietly_ensureLocalSnapshotFresh ht)
    intro _ w u hu _ htu _
    apply quietly_bind (quietly_holds hu)
    intro pending w x hx _ hux _
    refine quietly_pure hx ?_
    intro document hdocument
    split_ifs at hdocument
    obtain rfl := Option.some.inj hdocument
    exact hux.held (htu.held hlocal)

theorem quietly_persistUnchangedSyncStatus (hs : FastInv fingerprint s) :
    Quietly fingerprint (fun _ _ => True) persistUnchangedSyncStatus v s := by
  unfold persistUnchangedSyncStatus
  apply quietly_tryCatch (quietly_await hs)
  intro e w t ht _ _
  exact quietly_pure ht trivial

theorem quietly_runAttachmentPreSyncPhase (hs : FastInv fingerprint s) :
    Quietly fingerprint (fun _ _ => True) (runAttachmentPreSyncPhase options) v s := by
  unfold runAttachmentPreSyncPhase
  split
  · exact quietly_pure hs trivial
  · apply quietly_tryCatch
    · apply quietly_bind (quietly_readLocal hs)
      intro _ w t ht _ _ _
      apply quietly_bind (quietly_holds ht)
      intro needed w t ht _ _ _
      split
      · apply quietly_bind (quietly_await ht)
        intro _ w t ht _ _ _
        apply quietly_bind (quietly_holds ht)
        intro fenced w t ht _ _ _
        have hrest : ∀ w t, FastInv fingerprint t → Quietly fingerprint (fun _ _ => True)
            (do let mutated ← FastRun.holds "attachment pre-sync has mutated the data"
                if mutated then
                  modify fun vars : FastVars P F => { vars with preSyncedLocalData := true }
                  ensureLocalSnapshotFresh
                else return) w t := by
          intro w t ht
          apply quietly_bind (quietly_holds ht)
          intro mutated w t ht _ _ _
          split
          · apply quietly_bind (quietly_modify ht ⟨rfl, rfl, rfl, rfl, rfl, fun _ h => h, fun _ h => h⟩)
            intro _ w t ht _ _ _
            exact quietly_ensureLocalSnapshotFresh ht
          · exact quietly_pure ht trivial
        split
        · apply quietly_bind (quietly_ensureRemoteMutationFence ht)
          intro _ w t ht _ _ _
          exact hrest w t ht
        · exact hrest w t ht
      · exact quietly_pure ht trivial
    · intro e w t ht _ _
      apply quietly_bind (quietly_holds ht)
      intro thrown w t ht _ _ _
      split
      · exact quietly_throw ht
      · exact quietly_pure ht trivial

theorem quietly_prepareRemoteWriteData (hs : FastInv fingerprint s) (hdata : data ∈ s.held) :
    Quietly fingerprint (fun prepared t => Derives s data t prepared) (prepareRemoteWriteData options data) v s := by
  unfold prepareRemoteWriteData
  apply quietly_bind (quietly_holds hs)
  intro nothing w t ht _ hst _
  split
  · exact quietly_pure ht ((Derives.refl hdata).grows hst)
  · apply quietly_bind (quietly_await ht)
    intro _ w t₁ ht _ h₁ _
    apply quietly_bind (quietly_await ht)
    intro _ w t₂ ht _ h₂ _
    apply quietly_bind (quietly_ensureRemoteMutationFence ht)
    intro _ w t₃ ht _ h₃ _
    apply quietly_bind (quietly_await ht)
    intro _ w t₄ ht _ h₄ _
    apply quietly_bind (quietly_holds ht)
    intro proven w t₅ ht _ h₅ _
    apply quietly_bind (quietly_check ht)
    intro _ w t₆ ht _ h₆ _
    have hgrows := ((((hst.trans h₁).trans h₂).trans h₃).trans h₄).trans (h₅.trans h₆)
    exact quietly_mono (quietly_derive ht) fun _ _ _ hderives => hderives.of_grows hgrows

theorem quietly_writeLocal (hs : FastInv fingerprint s) (hdata : data ∈ s.held) :
    Quietly fingerprint (fun written t => Derives s data t written) (writeLocal options data) v s := by
  unfold writeLocal
  apply quietly_bind (quietly_ensureLocalSnapshotFresh hs)
  intro _ w t ht _ hst _
  split
  · exact quietly_pure ht ((Derives.refl hdata).grows hst)
  · apply quietly_bind (quietly_await ht)
    intro _ w t₁ ht _ h₁ _
    apply quietly_bind (quietly_derive ht)
    intro persisted w t₂ ht _ _ hderives
    apply quietly_bind (quietly_ensureLocalSnapshotFresh ht)
    intro _ w t₃ ht _ h₃ _
    exact quietly_pure ht ((hderives.of_grows (hst.trans h₁)).grows h₃)

theorem quietly_runPostMergeAttachmentPhase (hs : FastInv fingerprint s) (hdata : data ∈ s.held) :
    Quietly fingerprint (fun result t => Derives s data t result.1) (runPostMergeAttachmentPhase options data) v s := by
  unfold runPostMergeAttachmentPhase
  apply quietly_bind (quietly_holds hs)
  intro needed w t ht _ hst _
  split
  · exact quietly_pure ht ((Derives.refl hdata).grows hst)
  · apply quietly_bind (quietly_await ht)
    intro _ w t₁ ht _ h₁ _
    have hst := hst.trans h₁
    apply quietly_tryCatch
    · apply quietly_bind (quietly_ensureLocalSnapshotFresh ht)
      intro _ w t₂ ht _ h₂ _
      apply quietly_bind (quietly_await ht)
      intro _ w t₃ ht _ h₃ _
      apply quietly_bind (quietly_ensureRemoteMutationFence ht)
      intro _ w t₄ ht _ h₄ _
      apply quietly_bind (quietly_await ht)
      intro _ w t₅ ht _ h₅ _
      apply quietly_bind (quietly_holds ht)
      intro mutated w t₆ ht _ h₆ _
      have hgrows := (((hst.trans h₂).trans h₃).trans h₄).trans (h₅.trans h₆)
      split
      · apply quietly_bind (quietly_derive ht)
        intro nextData w t₇ ht _ _ hderives
        apply quietly_bind (quietly_writeLocal ht hderives.held)
        intro _ w t₈ ht _ h₈ _
        exact quietly_pure ht ((hderives.of_grows hgrows).grows h₈)
      · exact quietly_pure ht ((Derives.refl hdata).grows hgrows)
    · intro e w t₂ ht _ h₂
      apply quietly_bind (quietly_holds ht)
      intro thrown w t₃ ht _ h₃ _
      split
      · exact quietly_throw ht
      · exact quietly_pure ht ((Derives.refl hdata).grows ((hst.trans h₂).trans h₃))

theorem quietly_runAttachmentCleanupPhase (hs : FastInv fingerprint s) (hdata : data ∈ s.held) :
    Quietly fingerprint (fun result t => Derives s data t result.1) (runAttachmentCleanupPhase options data) v s := by
  unfold runAttachmentCleanupPhase
  apply quietly_bind (quietly_holds hs)
  intro due w t ht _ hst _
  split
  · exact quietly_pure ht ((Derives.refl hdata).grows hst)
  · apply quietly_bind (quietly_ensureRemoteMutationFence ht)
    intro _ w t₁ ht _ h₁ _
    apply quietly_bind (quietly_await ht)
    intro _ w t₂ ht _ h₂ _
    apply quietly_bind (quietly_ensureLocalSnapshotFresh ht)
    intro _ w t₃ ht _ h₃ _
    apply quietly_bind (quietly_holds ht)
    intro cleaned w t₄ ht _ h₄ _
    have hgrows := (((hst.trans h₁).trans h₂).trans h₃).trans h₄
    split
    · apply quietly_bind (quietly_derive ht)
      intro nextData w t₅ ht _ _ hderives
      apply quietly_bind (quietly_holds ht)
      intro invalidated w t₆ ht _ h₆ _
      have hdata := h₆.held hderives.held
      apply quietly_bind (quietly_writeLocal ht hdata)
      intro _ w t₇ ht _ h₇ _
      exact quietly_pure ht ((hderives.of_grows hgrows).grows (h₆.trans h₇))
    · exact quietly_pure ht ((Derives.refl hdata).grows hgrows)

/-! ### Fingerprints and records -/

theorem safe_readFastSyncState (hs : FastInv fingerprint s) (hv : KnowsRemote fingerprint options v s)
    (hunread : Unread v) :
    Safe (admittedPort fingerprint) (FastInv fingerprint)
      (fun state w t => (KnowsRemote fingerprint options w t ∧ Unread w) ∧ Grows s t ∧ ∀ cached, state = some cached →
        HasIncorporated fingerprint t cached.localFingerprint cached.remoteFingerprint.version)
      (fun _ _ _ => True) readFastSyncState v s := by
  unfold readFastSyncState
  apply safe_get_bind
  split
  · rename_i value hcache
    refine safe_pure hs ⟨⟨hv, hunread⟩, Grows.refl s, ?_⟩
    rintro cached rfl
    exact hv.cache cached hcache
  · have hport : ∀ choice, fastPort .readFastSyncState choice s = awaitedRemote choice (fun s => s) (·.recorded) s :=
      fun _ => rfl
    have hread : Quietly fingerprint (fun state t => ∀ cached, state = some cached →
        HasIncorporated fingerprint t cached.localFingerprint cached.remoteFingerprint.version)
        (FastRun.call .readFastSyncState) v s := by
      refine quietly_awaited .readFastSyncState hs hport (fun t ht _ => ⟨ht, Grows.refl t⟩) ?_
      intro choice u _ hbefore _ hgrows cached hcached
      exact (hbefore.recorded cached hcached).mono hgrows.held hgrows.incorporated
    refine safe_bind (hread.mono (fun _ h => h) (fun _ _ _ h => h) fun _ _ _ _ => trivial) ?_
    rintro value w t ht ⟨⟨hvw, hst⟩, hvalue⟩
    have hknows := hv.grows hvw hst
    have hunread := hunread.same hvw
    apply safe_modify_bind
    refine safe_pure ht ⟨⟨⟨?_, hknows.armed, hknows.compare, hknows.readCheck⟩,
      ⟨hunread.compare, hunread.readCheck, hunread.armed, hunread.written, hunread.merged⟩⟩, hst, hvalue⟩
    intro state hstate
    exact hvalue state (Option.some.inj hstate)

/-- What is recorded is right. -/
theorem safe_writeFastSyncState {state : FastSyncState F} (hs : FastInv fingerprint s)
    (hstate : HasIncorporated fingerprint s state.localFingerprint state.remoteFingerprint.version) :
    Safe (admittedPort fingerprint) (FastInv fingerprint)
      (fun _ w t => SameVars { v with fastSyncStateCache := some (some state) } w ∧ Grows s t)
      (fun _ _ _ => True) (writeFastSyncState state) v s := by
  unfold writeFastSyncState
  apply safe_modify_bind
  have hport : ∀ choice, fastPort (.writeFastSyncState state) choice s =
      awaitedRemote choice (fun s => { s with recorded := some state }) (fun _ => ()) s := fun _ => rfl
  have hwrite : Quietly fingerprint (fun _ _ => True) (FastRun.call (.writeFastSyncState state))
      { v with fastSyncStateCache := some (some state) } s := by
    refine quietly_awaited (.writeFastSyncState state) hs hport ?_ fun _ _ _ _ _ _ => trivial
    intro t ht hst
    refine ⟨⟨ht.remote, ?_, ht.skips, ht.uploads⟩, List.Subset.refl _, List.Subset.refl _, rfl⟩
    intro recorded hrecorded
    obtain rfl := Option.some.inj hrecorded
    exact hstate.mono hst.held hst.incorporated
  exact hwrite.mono (fun _ h => h) (fun _ _ _ h => h.1) fun _ _ _ _ => trivial

/-- A fingerprint that is read for a record is that of the version last seen. -/
theorem quietly_callFingerprint {forRecord : Bool} (hs : FastInv fingerprint s) :
    Quietly fingerprint (fun answer _ => ∀ remoteFingerprint, forRecord = true → answer = some remoteFingerprint →
      s.lastSeen = some remoteFingerprint.version) (FastRun.call (.readRemoteFingerprint forRecord)) v s := by
  have hport : ∀ choice, fastPort (.readRemoteFingerprint forRecord) choice s = awaitedRemote choice (fun s => s)
      (fun s => s.remote.map fun remote => choice.validator remote.version) s := fun _ => rfl
  refine quietly_awaited (.readRemoteFingerprint forRecord) hs hport (fun t ht _ => ⟨ht, Grows.refl t⟩) ?_
  intro choice u hadmitted _ _ _ remoteFingerprint hforRecord hanswer
  subst hforRecord
  have hsame : (s.peers choice.before).remote.map (·.version) = s.lastSeen := of_decide_eq_true hadmitted
  obtain ⟨remote, hremote, rfl⟩ := Option.map_eq_some_iff.1 hanswer
  rw [← hsame, hremote]
  simp

theorem safe_readRemoteFingerprint {forRecord : Bool} (hs : FastInv fingerprint s) :
    Safe (admittedPort fingerprint) (FastInv fingerprint)
      (fun answer w t => (SameButRev v w ∧ Grows s t) ∧ ∀ remoteFingerprint, forRecord = true →
        answer = some remoteFingerprint → s.lastSeen = some remoteFingerprint.version)
      (fun _ w t => SameButRev v w ∧ Grows s t) (readRemoteFingerprint options forRecord) v s := by
  unfold readRemoteFingerprint
  apply safe_tryCatch (R := fun _ w t => SameButRev v w ∧ Grows s t)
  · refine safe_bind ((quietly_await hs).mono (fun _ h => h) (fun _ _ _ h => h.1) fun _ _ _ h => ?_) ?_
    · exact ⟨SameButRev.of_same h.1, h.2⟩
    · rintro _ w t ht ⟨hvw, hst⟩
      have hcall : Safe (admittedPort fingerprint) (FastInv fingerprint)
          (fun answer x u => (SameVars v x ∧ Grows s u) ∧ ∀ remoteFingerprint, forRecord = true →
            answer = some remoteFingerprint → s.lastSeen = some remoteFingerprint.version)
          (fun _ x u => SameButRev v x ∧ Grows s u) (FastRun.call (.readRemoteFingerprint forRecord)) w t := by
        refine (quietly_callFingerprint ht).mono (fun _ h => h) ?_ ?_
        · rintro answer x u ⟨⟨hwx, htu⟩, hanswer⟩
          exact ⟨⟨hvw.trans hwx, hst.trans htu⟩, fun fp hf ha => hst.lastSeen.symm.trans (hanswer fp hf ha)⟩
        · rintro e x u ⟨hwx, htu⟩
          exact ⟨SameButRev.of_same (hvw.trans hwx), hst.trans htu⟩
      unfold ioReadRemoteFingerprint
      split
      · exact hcall.mono (fun _ h => h) (fun _ _ _ h => ⟨⟨SameButRev.of_same h.1.1, h.1.2⟩, h.2⟩) fun _ _ _ h => h
      · exact hcall.mono (fun _ h => h) (fun _ _ _ h => ⟨⟨SameButRev.of_same h.1.1, h.1.2⟩, h.2⟩) fun _ _ _ h => h
      · refine safe_bind hcall ?_
        rintro metadata x u hu ⟨⟨hvx, hsu⟩, hanswer⟩
        apply safe_modify_bind
        refine safe_pure hu ⟨⟨⟨metadata.map (·.version), ?_⟩, hsu⟩, ?_⟩
        · exact ⟨by simp [hvx.io], hvx.cache, hvx.armed, hvx.written, hvx.merged, hvx.compare, hvx.readCheck⟩
        · intro fp hforRecord hmap
          obtain ⟨remoteFingerprint, hmetadata, rfl⟩ := Option.map_eq_some_iff.1 hmap
          exact hanswer remoteFingerprint hforRecord hmetadata
      · exact safe_pure ht ⟨⟨SameButRev.of_same hvw, hst⟩, nofun⟩
      · exact safe_pure ht ⟨⟨SameButRev.of_same hvw, hst⟩, nofun⟩
  · rintro e w t ht ⟨hvw, hst⟩
    exact safe_pure ht ⟨⟨hvw, hst⟩, nofun⟩

/-- A step before the remote document is read; an error ends the run. -/
def SafeStep {A : Type} (fingerprint : P → F) (Q : A → FastVars P F → FastStore P F → Prop) (x : FastRun P F A)
    (v : FastVars P F) (s : FastStore P F) : Prop :=
  Safe (admittedPort fingerprint) (FastInv fingerprint) Q (fun _ _ _ => True) x v s

theorem safeStep_quietly {A : Type} {Q : A → FastStore P F → Prop} {x : FastRun P F A}
    (h : Quietly fingerprint Q x v s) :
    SafeStep fingerprint (fun a w t => (SameVars v w ∧ Grows s t) ∧ Q a t) x v s :=
  h.mono (fun _ h => h) (fun _ _ _ h => h) fun _ _ _ _ => trivial

theorem safeStep_unmovedRecord {isCandidate : F → Bool} (hs : FastInv fingerprint s)
    (hv : BeforeRead fingerprint v s) :
    SafeStep fingerprint (fun state w t => (BeforeRead fingerprint w t ∧ Grows s t) ∧ ∀ cached, state = some cached →
        HasIncorporated fingerprint t cached.localFingerprint cached.remoteFingerprint.version ∧
          isCandidate cached.localFingerprint = true) (unmovedRecord options isCandidate) v s := by
  unfold unmovedRecord
  have hknows : KnowsRemote fingerprint options v s := hv.knows
  refine safe_bind (safe_readFastSyncState hs hknows hv.unread) ?_
  rintro cached w t ht ⟨⟨hknows, hunread⟩, hst, hcached⟩
  have hw : BeforeRead fingerprint w t := ⟨hunread, hknows.cache⟩
  split
  · exact safe_pure ht ⟨⟨hw, hst⟩, nofun⟩
  · rename_i state hstate
    obtain ⟨rfl, hcandidate⟩ := Option.filter_eq_some_iff.1 hstate
    refine safe_bind ((safe_readRemoteFingerprint ht).mono (fun _ h => h) (fun _ _ _ h => h) fun _ _ _ _ => trivial) ?_
    rintro answer x u hu ⟨⟨hwx, htu⟩, -⟩
    refine safe_pure hu ⟨⟨hw.moves hwx htu, hst.trans htu⟩, ?_⟩
    intro found hfound
    split_ifs at hfound
    obtain rfl := Option.some.inj hfound
    exact ⟨(hcached state rfl).mono htu.held htu.incorporated, hcandidate⟩

theorem quietly_skipUnchanged {localFingerprint : F} {remoteFingerprint : RemoteFingerprint}
    (hs : FastInv fingerprint s) (h : HasIncorporated fingerprint s localFingerprint remoteFingerprint.version) :
    Quietly fingerprint (fun _ _ => True) (FastRun.call (.skipUnchanged localFingerprint remoteFingerprint)) v s := by
  refine quietly_call (.skipUnchanged localFingerprint remoteFingerprint) hs fun choice _ => ?_
  refine ⟨⟨hs.remote, hs.recorded, ?_, hs.uploads⟩, ⟨List.Subset.refl _, List.Subset.refl _, rfl⟩, fun _ _ => trivial⟩
  intro skip hskip
  rcases List.mem_cons.1 hskip with rfl | hskip
  · exact h
  · exact hs.skips skip hskip

/-- A cycle that is skipped for its record is skipped for a version that the local document has incorporated. -/
theorem safeStep_trySkipUnchangedFastSync (hs : FastInv fingerprint s) (hv : BeforeRead fingerprint v s) :
    SafeStep fingerprint (fun _ w t => BeforeRead fingerprint w t) (trySkipUnchangedFastSync options fingerprint) v
      s := by
  unfold trySkipUnchangedFastSync
  split
  · exact safe_pure hs hv
  · refine safe_bind (safeStep_quietly (quietly_readUnpatchedLocalData hs)) ?_
    rintro localData w t ht ⟨⟨hvw, hst⟩, -⟩
    have hv := hv.same hvw hst
    split
    · exact safe_pure ht hv
    · rename_i localData
      refine safe_bind (safeStep_unmovedRecord ht hv) ?_
      rintro cached w t ht ⟨⟨hv, -⟩, hcached⟩
      split
      · exact safe_pure ht hv
      · rename_i cached
        obtain ⟨hincorporated, hcandidate⟩ := hcached cached rfl
        rw [of_decide_eq_true hcandidate] at hincorporated
        refine safe_bind (safeStep_quietly (quietly_ensureLocalSnapshotFresh ht)) ?_
        rintro _ w t ht ⟨⟨hvw, hst⟩, -⟩
        have hincorporated := hincorporated.mono hst.held hst.incorporated
        refine safe_bind (safe_writeFastSyncState ht hincorporated) ?_
        rintro _ x u hu ⟨hwx, htu⟩
        have hincorporated := hincorporated.mono htu.held htu.incorporated
        have hv := (hv.same hvw hst).wrote hwx hincorporated
        refine safe_bind (safeStep_quietly (quietly_persistUnchangedSyncStatus hu)) ?_
        rintro _ w t ht ⟨⟨hvw, hst⟩, -⟩
        have hv := hv.same hvw hst
        have hincorporated := hincorporated.mono hst.held hst.incorporated
        refine safe_bind (safeStep_quietly (quietly_skipUnchanged ht hincorporated)) ?_
        rintro _ w t ht ⟨⟨hvw, hst⟩, -⟩
        exact safe_pure ht (hv.same hvw hst)

theorem safe_adoptRemoteFingerprintForWrite {remoteFingerprint : RemoteFingerprint} (hs : FastInv fingerprint s) :
    SafeStep fingerprint (fun adopted w t => s = t ∧ ∃ io, w = { v with io } ∧
      if adopted then WritesUnder options io remoteFingerprint.version else io = v.io)
      (adoptRemoteFingerprintForWrite options remoteFingerprint) v s := by
  unfold adoptRemoteFingerprintForWrite
  apply safe_get_bind
  split
  · rename_i version hbackend
    split
    · exact safe_pure hs ⟨rfl, v.io, rfl, rfl⟩
    · apply safe_modify_bind
      exact safe_pure hs ⟨rfl, _, rfl, .inl ⟨hbackend, rfl⟩⟩
  · rename_i version hbackend
    apply safe_modify_bind
    exact safe_pure hs ⟨rfl, _, rfl, .inr ⟨hbackend, rfl⟩⟩
  · exact safe_pure hs ⟨rfl, v.io, rfl, rfl⟩

/-- Arming leaves the backend to write under a version that the device has merged. -/
theorem safeStep_tryArmLocalOnlyUploadFastPath (hs : FastInv fingerprint s) (hv : BeforeRead fingerprint v s) :
    SafeStep fingerprint (fun armed w t => KnowsRemote fingerprint options w t ∧
      (armed = false → BeforeRead fingerprint w t)) (tryArmLocalOnlyUploadFastPath options fingerprint) v s := by
  unfold tryArmLocalOnlyUploadFastPath
  refine safe_bind (safeStep_quietly (quietly_holds hs)) ?_
  rintro repair w t ht ⟨⟨hvw, hst⟩, -⟩
  have hv := hv.same hvw hst
  split
  · exact safe_pure ht ⟨hv.knows, fun _ => hv⟩
  · refine safe_bind (safeStep_quietly (quietly_readUnpatchedLocalData ht)) ?_
    rintro localData w t ht ⟨⟨hvw, hst⟩, -⟩
    have hv := hv.same hvw hst
    split
    · exact safe_pure ht ⟨hv.knows, fun _ => hv⟩
    · rename_i localData
      refine safe_bind (safeStep_unmovedRecord ht hv) ?_
      rintro cached w t ht ⟨⟨hv, -⟩, hcached⟩
      split
      · exact safe_pure ht ⟨hv.knows, fun _ => hv⟩
      · rename_i cached
        obtain ⟨hincorporated, -⟩ := hcached cached rfl
        refine safe_bind (safe_adoptRemoteFingerprintForWrite ht) ?_
        rintro adopted _ _ - ⟨rfl, io, rfl, hadopted⟩
        split_ifs at hadopted with htrue
        · subst htrue
          refine safe_bind (safeStep_quietly (quietly_ensureLocalSnapshotFresh ht)) ?_
          rintro _ x u hu ⟨⟨hwx, htu⟩, -⟩
          have hadoptedUnread : Unread { w with io } :=
            ⟨hv.unread.compare, hv.unread.readCheck, hv.unread.armed, hv.unread.written, hv.unread.merged⟩
          have hunread := hadoptedUnread.same hwx
          apply safe_modify_bind
          refine safe_pure hu ⟨⟨?_, ?_, ?_, ?_⟩, fun harmed => Bool.noConfusion harmed⟩
          · intro state hstate
            exact (hv.cache state (hwx.cache ▸ hstate)).mono htu.held htu.incorporated
          · intro remoteFingerprint harmed
            obtain rfl := Option.some.inj harmed
            obtain ⟨document, hheld, -, hversion⟩ := hincorporated
            exact ⟨⟨document, htu.held hheld, htu.incorporated hversion⟩, hwx.io.symm ▸ hadopted⟩
          · intro document hdocument
            rw [hunread.compare] at hdocument
            cases hdocument
          · intro remote hremote
            rw [hunread.readCheck] at hremote
            cases hremote
        · subst hadopted
          rw [Bool.not_eq_true] at htrue
          subst htrue
          exact safe_pure ht ⟨hv.knows, fun _ => hv⟩

/-- A record is made of a document and a version it has incorporated. -/
theorem safeStep_recordFastSyncState {allowRemoteFingerprintRead : Bool} (hs : FastInv fingerprint s)
    (hv : v.lastRemoteWriteMergedServerData = true ∨ Recordable options v s data) :
    SafeStep fingerprint (fun _ _ _ => True)
      (recordFastSyncState options fingerprint data allowRemoteFingerprintRead) v s := by
  unfold recordFastSyncState
  refine safe_bind (safeStep_quietly (quietly_holds hs)) ?_
  rintro pending w t ht ⟨⟨hvw, hst⟩, -⟩
  refine safe_bind (safeStep_quietly (quietly_holds ht)) ?_
  rintro edited w u hu ⟨⟨hvw', htu⟩, -⟩
  have hvw := hvw.trans hvw'
  have hsu := hst.trans htu
  apply safe_get_bind
  split
  · exact safe_pure hu trivial
  · rename_i hgoes
    have hunmerged : v.lastRemoteWriteMergedServerData ≠ true := by
      intro hmerged
      simp [hvw.merged, hmerged] at hgoes
    have hrecordable := (hv.resolve_left hunmerged).derives hvw hsu
      ((Derives.refl (hv.resolve_left hunmerged).held).grows hsu)
    split
    · rename_i remoteFingerprint hknown
      refine (safe_writeFastSyncState hu ?_).mono (fun _ h => h) (fun _ _ _ _ => trivial) fun _ _ _ h => h
      exact ⟨data, hrecordable.held, rfl, hrecordable.known remoteFingerprint hknown⟩
    · split
      · refine safe_bind ((safe_readRemoteFingerprint hu).mono (fun _ h => h) (fun _ _ _ h => h)
          fun _ _ _ _ => trivial) ?_
        rintro answer x y hy ⟨⟨-, huy⟩, hanswer⟩
        split
        · rename_i remoteFingerprint
          refine (safe_writeFastSyncState hy ?_).mono (fun _ h => h) (fun _ _ _ _ => trivial) fun _ _ _ h => h
          have hseen := hanswer remoteFingerprint rfl rfl
          exact ⟨data, huy.held hrecordable.held, rfl,
            huy.incorporated (hrecordable.seen remoteFingerprint.version hseen)⟩
        · exact safe_pure hy trivial
      · exact safe_pure hu trivial

/-! ### Reading the remote document -/

/-- A read of the remote document; the version of a body that is not JSON has been seen all the same. -/
theorem safe_readRemote (hs : FastInv fingerprint s) :
    Safe (admittedPort fingerprint) (FastInv fingerprint)
      (fun read w t => v = w ∧ Adds s t ∧ ∀ answer, read = some answer → ReadsVersion fingerprint s t answer.1)
      (fun _ w t => v = w ∧ Adds s t) (FastRun.call .readRemote) v s := by
  refine safe_call FastCall.readRemote hs fun choice => ?_
  unfold admittedPort
  split_ifs with hadmitted
  · obtain ⟨hbefore, hsbefore⟩ := fastInv_peers hs choice.before
    obtain ⟨hafter, hsafter⟩ := fastInv_peers hbefore choice.after
    obtain ⟨hread, hsread⟩ := fastInv_peers (fastInv_see hbefore) choice.after
    have hadds : Adds s _ := hsbefore.adds.trans ⟨hsread.held, hsread.incorporated⟩
    cases hfailure : choice.failure with
    | some failure =>
      have hport : fastPort FastCall.readRemote choice s =
          (.error failure, (s.peers choice.before).peers choice.after) := by
        simp only [fastPort, hfailure]
      rw [hport]
      exact ⟨hafter, rfl, (hsbefore.trans hsafter).adds⟩
    | none =>
      have hport : fastPort FastCall.readRemote choice s =
          (choice.readBody (s.peers choice.before), (s.peers choice.before).see.peers choice.after) := by
        simp only [fastPort, hfailure]
      rw [hport]
      refine ⟨hread, ?_⟩
      cases hbody : choice.readBody (s.peers choice.before) with
      | error failure => exact ⟨rfl, hadds⟩
      | ok read =>
        refine ⟨rfl, hadds, ?_⟩
        rintro answer rfl
        obtain ⟨hremote, -⟩ := readBody_eq_some hbody
        refine ⟨?_, hsread.incorporated (hbefore.remote _ hremote), ?_⟩
        · rw [hsread.lastSeen, FastStore.see, hremote]
          rfl
        · intro document hdocument hfingerprint
          simp only [admitted, hremote, Option.all_some, List.all_eq_true] at hadmitted
          simpa [hfingerprint] using hadmitted document hdocument
  · exact ⟨hs, rfl, fun _ h => h, fun _ h => h⟩

theorem safe_webdavRead (hs : FastInv fingerprint s) :
    Safe (admittedPort fingerprint) (FastInv fingerprint)
      (fun read w t => (∃ io, w = { v with io }) ∧ Adds s t ∧
        ∀ remote, read = some remote → ReadsVersion fingerprint s t remote)
      (fun _ w t => (∃ io, w = { v with io }) ∧ Adds s t) (webdavRead options) v s := by
  unfold webdavRead
  refine safe_bind (safe_tryCatch (safe_readRemote hs) ?_) ?_
  · rintro e _ t ht ⟨rfl, hst⟩
    apply safe_modify_bind
    exact safe_throw ht ⟨⟨_, rfl⟩, hst⟩
  · rintro read _ t ht ⟨rfl, hst, hread⟩
    apply safe_modify_bind
    refine safe_pure ht ⟨⟨_, rfl⟩, hst, ?_⟩
    intro remote hremote
    obtain ⟨answer, hanswer, rfl⟩ := Option.map_eq_some_iff.1 hremote
    exact hread answer hanswer

theorem safe_ioReadRemote (hs : FastInv fingerprint s) :
    Safe (admittedPort fingerprint) (FastInv fingerprint) (ReadsInto fingerprint options v s)
      (fun _ w t => (∃ io, w = { v with io }) ∧ Adds s t) (ioReadRemote options) v s := by
  have hread : Safe (admittedPort fingerprint) (FastInv fingerprint)
      (fun read w t => v = w ∧ Adds s t ∧ ∀ answer, read = some answer → ReadsVersion fingerprint s t answer.1)
      (fun _ w t => (∃ io, w = { v with io }) ∧ Adds s t) (FastRun.call .readRemote) v s := by
    refine (safe_readRemote hs).mono (fun _ h => h) (fun _ _ _ h => h) ?_
    rintro e _ t ⟨rfl, hst⟩
    exact ⟨⟨v.io, rfl⟩, hst⟩
  unfold ioReadRemote
  split
  · rename_i hbackend
    refine (safe_webdavRead hs).mono (fun _ h => h) ?_ fun _ _ _ h => h
    rintro read w t ⟨hio, hst, hread⟩
    exact ⟨hio, hst, fun remote hremote => ⟨hread remote hremote, cached_of_ne_dropbox (by simp [hbackend]) w⟩⟩
  · refine safe_bind hread ?_
    rintro read _ t ht ⟨rfl, hst, hread⟩
    apply safe_modify_bind
    refine safe_pure ht ⟨⟨_, rfl⟩, hst, ?_⟩
    intro remote hremote
    obtain ⟨answer, rfl, rfl⟩ := Option.map_eq_some_iff.1 hremote
    refine ⟨hread answer rfl, ?_⟩
    intro cached hcached
    unfold getCachedRemoteFingerprint at hcached
    split_ifs at hcached
    obtain rfl := Option.some.inj hcached
    rfl
  · rename_i hbackend
    refine safe_bind hread ?_
    rintro read _ t ht ⟨rfl, hst, hread⟩
    refine safe_bind (safe_holds_same ht) ?_
    rintro versioned _ _ - ⟨rfl, rfl⟩
    apply safe_modify_bind
    exact safe_pure ht (readsInto_of_read (by simp [hbackend]) hst hread)
  all_goals
    rename_i hbackend
    refine safe_bind hread ?_
    rintro read _ t ht ⟨rfl, hst, hread⟩
    exact safe_pure ht (readsInto_of_read (by simp [hbackend]) hst hread)

theorem safeStep_readOrReuse (hs : FastInv fingerprint s) (hv : KnowsRemote fingerprint options v s) :
    SafeStep fingerprint (CycleRead fingerprint options v s) (readRemoteForCycle options false) v s := by
  unfold readRemoteForCycle
  apply safe_get_bind
  split
  · rename_i remote hremote
    obtain ⟨hincorporated, hseen⟩ := hv.readCheck remote hremote
    apply safe_modify_bind
    refine safe_pure hs ⟨⟨hv.cache, hv.armed, ?_, nofun⟩, (Grows.refl s).adds, rfl, rfl, ?_⟩
    · intro document hdocument
      obtain rfl := Option.some.inj hdocument
      exact hseen
    · intro other hother
      obtain rfl := Option.some.inj hother
      refine ⟨hincorporated, hseen, fun hreadCheck => ?_⟩
      rw [hremote] at hreadCheck
      cases hreadCheck
  · rename_i hunread
    split
    · apply safe_modify_bind
      exact safe_pure hs ⟨⟨hv.cache, hv.armed, nofun, hv.readCheck⟩, (Grows.refl s).adds, rfl, rfl, nofun⟩
    · rename_i harmed
      rw [Bool.not_eq_true, Option.isSome_eq_false_iff, Option.isNone_iff_eq_none] at harmed
      refine safe_bind (safeStep_quietly (quietly_await hs)) ?_
      rintro _ w t ht ⟨⟨hvw, hst⟩, -⟩
      have hw := hv.grows hvw hst
      have hreadCheck : w.readCheckRemoteData = none := by
        rw [Option.eq_none_iff_forall_ne_some]
        intro other hother
        have hsome := hvw.readCheck other hother
        rw [hunread] at hsome
        cases hsome
      have harmed := hvw.armed.trans harmed
      refine safe_tryCatch (R := fun _ x u => (∃ io, x = { w with io }) ∧ Adds t u) ?_ ?_
      · refine safe_bind (safe_ioReadRemote ht) ?_
        rintro read x u hu hread
        apply safe_modify_bind
        exact safe_pure hu ((hw.read hreadCheck harmed hread).same hvw hst)
      · rintro e x u hu ⟨⟨io, rfl⟩, htu⟩
        split
        · apply safe_modify_bind
          exact safe_pure hu ((hw.unreadable io hreadCheck harmed htu).same hvw hst)
        · exact safe_throw hu trivial

theorem safeStep_readRemoteForCycle {requireMutationFence : Bool} (hs : FastInv fingerprint s)
    (hv : KnowsRemote fingerprint options v s) :
    SafeStep fingerprint (CycleRead fingerprint options v s) (readRemoteForCycle options requireMutationFence) v s := by
  cases requireMutationFence with
  | false => exact safeStep_readOrReuse hs hv
  | true =>
    have hfenced : readRemoteForCycle options true =
        (ensureRemoteMutationFence >>= fun _ => readRemoteForCycle options false : FastRun P F _) := rfl
    rw [hfenced]
    refine safe_bind (safeStep_quietly (quietly_ensureRemoteMutationFence hs)) ?_
    rintro _ w t ht ⟨⟨hvw, hst⟩, -⟩
    refine (safeStep_readOrReuse ht (hv.grows hvw hst)).mono (fun _ h => h) ?_ fun _ _ _ h => h
    intro read x u hread
    exact hread.same hvw hst

/-! ### Writing the remote document -/

/-- A write; where it goes out without a read, its condition names a version that the device has merged. -/
theorem safe_callWrite {condition : WriteCondition} {serverMerges localOnly : Bool} (hs : FastInv fingerprint s)
    (hlocalOnly : localOnly = true → ∃ version, condition = .ifMatch version ∧ HasMerged s version) :
    SafeStep fingerprint (fun written w t => v = w ∧ Writes data s t written ∧
        (serverMerges = false → written.serverMergedRemoteData = false))
      (FastRun.call (.writeRemote data condition serverMerges localOnly)) v s := by
  refine safe_call (FastCall.writeRemote data condition serverMerges localOnly) hs fun choice => ?_
  have hadmitted : admittedPort fingerprint (.writeRemote data condition serverMerges localOnly) choice s =
      fastPort (.writeRemote data condition serverMerges localOnly) choice s := if_pos rfl
  obtain ⟨hbefore, hsbefore⟩ := fastInv_peers hs choice.before
  rw [hadmitted]
  by_cases hpermits : condition.permits (s.peers choice.before) = true
  · have hlocalOnly : localOnly = true → ∀ version,
        (s.peers choice.before).remote.map (·.version) = some version → HasMerged (s.peers choice.before) version := by
      intro hlocal version hversion
      obtain ⟨expected, rfl, hmerged⟩ := hlocalOnly hlocal
      have hexpected := of_decide_eq_true hpermits
      rw [hversion] at hexpected
      obtain rfl := Option.some.inj hexpected
      exact hmerged.mono hsbefore.held hsbefore.incorporated
    have hover : FastInv fingerprint (writeOver choice data serverMerges localOnly (s.peers choice.before)) ∧
        Adds (s.peers choice.before) (writeOver choice data serverMerges localOnly (s.peers choice.before)) :=
      fastInv_writeOver hbefore choice data hlocalOnly
    obtain ⟨hwritten, hadds⟩ := hover
    obtain ⟨hafter, hsafter⟩ := fastInv_peers hwritten choice.after
    have hport : fastPort (.writeRemote data condition serverMerges localOnly) choice s =
        awaitedRemote { choice with before := [] } (writeOver choice data serverMerges localOnly) _
          (s.peers choice.before) := if_pos hpermits
    rw [hport]
    unfold awaitedRemote
    cases choice.failure with
    | some failure =>
      refine ⟨?_, trivial⟩
      dsimp only
      split_ifs
      · exact hafter
      · exact (fastInv_peers hbefore choice.after).1
    | none =>
      refine ⟨hafter, rfl, ⟨(hsbefore.adds.trans hadds).trans hsafter.adds, ?_, ?_⟩, ?_⟩
      · intro hmerged
        refine ⟨hsafter.lastSeen, hsafter.incorporated ?_⟩
        have hstored : (if serverMerges then choice.document.getD data else data) = data := by
          cases serverMerges with
          | false => rfl
          | true =>
            rw [Bool.true_and, Option.isSome_eq_false_iff, Option.isNone_iff_eq_none] at hmerged
            simp [hmerged]
        unfold writeOver
        rw [hstored]
        exact List.mem_cons_self
      · intro remoteFingerprint hvalidator
        dsimp only at hvalidator
        split_ifs at hvalidator
        obtain rfl := Option.some.inj hvalidator
        exact version_validator choice _
      · rintro rfl
        rfl
  · have hport : fastPort (.writeRemote data condition serverMerges localOnly) choice s =
        (.error .remoteWriteConflict, (s.peers choice.before).peers choice.after) := if_neg hpermits
    rw [hport]
    exact ⟨(fastInv_peers hbefore choice.after).1, trivial⟩

theorem safe_writeUnder {condition : WriteCondition} (hs : FastInv fingerprint s)
    (harmed : ∀ remoteFingerprint, v.localOnlyUploadFingerprint = some remoteFingerprint →
      condition = .ifMatch remoteFingerprint.version ∧ HasMerged s remoteFingerprint.version) :
    SafeStep fingerprint (fun written w t => v = w ∧ Writes data s t written ∧
        written.serverMergedRemoteData = false) (writeUnder data condition) v s := by
  unfold writeUnder
  apply safe_get_bind
  have hlocalOnly : v.localOnlyUploadFingerprint.isSome = true →
      ∃ version, condition = .ifMatch version ∧ HasMerged s version := by
    intro hsome
    obtain ⟨remoteFingerprint, hremoteFingerprint⟩ := Option.isSome_iff_exists.1 hsome
    exact ⟨remoteFingerprint.version, harmed remoteFingerprint hremoteFingerprint⟩
  refine (safe_callWrite hs hlocalOnly).mono (fun _ h => h) ?_ fun _ _ _ h => h
  rintro written w t ⟨hvw, hwrites, hunmerged⟩
  exact ⟨hvw, hwrites, hunmerged rfl⟩

theorem safe_webdavPut {expectedEtag : Option Nat} (hs : FastInv fingerprint s) (hbackend : options.backend = .webdav)
    (harmed : ∀ remoteFingerprint, v.localOnlyUploadFingerprint = some remoteFingerprint →
      expectedEtag = some remoteFingerprint.version ∧ HasMerged s remoteFingerprint.version) :
    SafeStep fingerprint (Wrote options data s) (webdavPut data expectedEtag) v s := by
  unfold webdavPut
  refine safe_bind (safe_writeUnder hs ?_) ?_
  · intro remoteFingerprint hremoteFingerprint
    obtain ⟨rfl, hmerged⟩ := harmed remoteFingerprint hremoteFingerprint
    exact ⟨rfl, hmerged⟩
  · rintro written _ t ht ⟨rfl, hwrites, -⟩
    exact safe_pure ht (hwrites.wrote (by simp [hbackend]))

theorem quietly_confirmRemote (hs : FastInv fingerprint s) :
    Quietly fingerprint (fun _ _ => True) (FastRun.call .confirmRemote) v s := by
  have hport : ∀ choice, fastPort FastCall.confirmRemote choice s = awaitedRemote choice (fun s => s)
      (fun s => s.remote.map fun remote => (remote, choice.validator remote.version)) s := fun _ => rfl
  exact quietly_awaited FastCall.confirmRemote hs hport (fun t ht _ => ⟨ht, Grows.refl t⟩) fun _ _ _ _ _ _ => trivial

theorem safe_webdavWriteLegacy (hs : FastInv fingerprint s) (hbackend : options.backend = .webdav)
    (harmed : v.localOnlyUploadFingerprint = none) :
    SafeStep fingerprint (Wrote options data s) (webdavWriteLegacy data) v s := by
  unfold webdavWriteLegacy
  apply safe_get_bind
  split
  · exact safe_throw hs trivial
  · refine safe_bind (safeStep_quietly (quietly_await hs)) ?_
    rintro _ w t ht ⟨⟨hvw, hst⟩, -⟩
    refine safe_bind (safeStep_quietly (quietly_confirmRemote ht)) ?_
    rintro confirmed w t ht ⟨⟨hvw', htu⟩, -⟩
    refine safe_bind (safeStep_quietly (quietly_check ht)) ?_
    rintro _ w u hu ⟨⟨hvw'', hu'⟩, -⟩
    have harmed := ((hvw.trans hvw').trans hvw'').armed.trans harmed
    have hsu := (hst.trans htu).trans hu'
    apply safe_modify_bind
    have hwrote : ∀ {A : RemoteWriteOutcome} {x y}, Wrote options data u A x y → Wrote options data s A x y :=
      fun h => ⟨hsu.adds.trans h.adds, h.known⟩
    split
    · refine (safe_webdavPut hu hbackend ?_).mono (fun _ h => h) (fun _ _ _ h => hwrote h) fun _ _ _ h => h
      intro remoteFingerprint hsome
      simp [harmed] at hsome
    · refine safe_bind (safe_writeUnder hu ?_) ?_
      · intro remoteFingerprint hsome
        simp [harmed] at hsome
      · rintro written _ y hy ⟨rfl, hwrites, -⟩
        exact safe_pure hy (hwrote (hwrites.wrote (by simp [hbackend])))

theorem safe_webdavWrite (hs : FastInv fingerprint s) (hbackend : options.backend = .webdav)
    (hv : KnowsRemote fingerprint options v s) :
    SafeStep fingerprint (Wrote options data s) (webdavWrite data) v s := by
  have hadopted : ∀ remoteFingerprint, v.localOnlyUploadFingerprint = some remoteFingerprint →
      v.io.webdavDocumentVersion = some ⟨true, some remoteFingerprint.version⟩ ∧
        HasMerged s remoteFingerprint.version := by
    intro remoteFingerprint hremoteFingerprint
    obtain ⟨hmerged, hunder⟩ := hv.armed remoteFingerprint hremoteFingerprint
    refine ⟨?_, hmerged⟩
    simpa [WritesUnder, hbackend] using hunder
  unfold webdavWrite
  apply safe_get_bind
  split
  · exact safe_throw hs trivial
  · rename_i version hversion
    refine safe_bind (safe_check (R := fun _ _ _ => True) (Q := fun _ w t => v = w ∧ s = t) hs
      (fun _ => ⟨rfl, rfl⟩) fun _ => trivial) ?_
    rintro _ _ _ - ⟨rfl, rfl⟩
    have hrest : ∀ expectedEtag : Option Nat, (∀ remoteFingerprint,
        v.localOnlyUploadFingerprint = some remoteFingerprint →
          expectedEtag = some remoteFingerprint.version ∧ HasMerged s remoteFingerprint.version) →
        SafeStep fingerprint (Wrote options data s)
          (if v.io.allowLegacyWebdavPlaintext && expectedEtag.isNone then webdavWriteLegacy data
            else webdavPut data expectedEtag) v s := by
      intro expectedEtag harmed
      split
      · rename_i hlegacy
        apply safe_webdavWriteLegacy hs hbackend
        rw [Option.eq_none_iff_forall_ne_some]
        intro remoteFingerprint hremoteFingerprint
        rw [(harmed remoteFingerprint hremoteFingerprint).1] at hlegacy
        simp at hlegacy
      · exact safe_webdavPut hs hbackend harmed
    split
    · apply hrest
      intro remoteFingerprint hremoteFingerprint
      obtain ⟨hexpected, hmerged⟩ := hadopted remoteFingerprint hremoteFingerprint
      rw [hversion] at hexpected
      obtain rfl := Option.some.inj hexpected
      exact ⟨rfl, hmerged⟩
    · rename_i hmissing
      apply hrest
      intro remoteFingerprint hremoteFingerprint
      obtain ⟨hexpected, -⟩ := hadopted remoteFingerprint hremoteFingerprint
      rw [hversion] at hexpected
      obtain rfl := Option.some.inj hexpected
      exact absurd rfl hmissing

/-- A backend without a validator for the record. -/
theorem safe_writeSilently {condition : WriteCondition} (hs : FastInv fingerprint s)
    (hbackend : options.backend ≠ .dropbox)
    (harmed : v.localOnlyUploadFingerprint = none) :
    SafeStep fingerprint (Wrote options data s)
      (do let _ ← writeUnder data condition
          return ⟨none, false⟩) v s := by
  refine safe_bind (safe_writeUnder hs ?_) ?_
  · intro remoteFingerprint hsome
    rw [harmed] at hsome
    cases hsome
  · rintro written _ t ht ⟨rfl, hwrites, hunmerged⟩
    obtain ⟨hseen, -, hcached⟩ := (hwrites.wrote (w := v) hbackend).known hunmerged
    exact safe_pure ht ⟨hwrites.adds, fun _ => ⟨hseen, nofun, hcached⟩⟩

theorem safe_ioWriteRemote (hs : FastInv fingerprint s) (hv : KnowsRemote fingerprint options v s) :
    SafeStep fingerprint (Wrote options data s) (ioWriteRemote options data) v s := by
  unfold ioWriteRemote
  apply safe_get_bind
  split
  · rename_i hbackend
    exact safe_webdavWrite hs hbackend hv
  · rename_i hbackend
    have harmed := hv.unarmed (by simp [hbackend]) (by simp [hbackend])
    refine safe_bind (safe_callWrite hs (by simp [harmed])) ?_
    rintro written _ t ht ⟨rfl, hwrites, -⟩
    exact safe_pure ht (hwrites.wrote (by simp [hbackend]))
  · rename_i hbackend
    refine safe_bind (safe_writeUnder hs ?_) ?_
    · intro remoteFingerprint hremoteFingerprint
      obtain ⟨hmerged, hunder⟩ := hv.armed remoteFingerprint hremoteFingerprint
      have hrev : v.io.dropboxRev = some remoteFingerprint.version := by
        simpa [WritesUnder, hbackend] using hunder
      exact ⟨by rw [hrev]; rfl, hmerged⟩
    · rintro written _ t ht ⟨rfl, hwrites, hunmerged⟩
      obtain ⟨hseen, hincorporated⟩ := hwrites.seen hunmerged
      apply safe_modify_bind
      refine safe_pure ht ⟨hwrites.adds, fun _ => ⟨?_, nofun, ?_⟩⟩
      · intro version hversion
        rw [hseen] at hversion
        obtain rfl := Option.some.inj hversion
        exact hincorporated
      · intro cached hcached
        simp only [getCachedRemoteFingerprint, hbackend, if_true] at hcached
        obtain ⟨rev, hrev, rfl⟩ := Option.map_eq_some_iff.1 hcached
        obtain ⟨remoteFingerprint, hvalidator, rfl⟩ := Option.map_eq_some_iff.1 hrev
        rw [← hwrites.validator remoteFingerprint hvalidator] at hincorporated
        exact hincorporated
  · rename_i hbackend
    exact safe_writeSilently hs (by simp [hbackend]) (hv.unarmed (by simp [hbackend]) (by simp [hbackend]))
  · rename_i hbackend
    exact safe_writeSilently hs (by simp [hbackend]) (hv.unarmed (by simp [hbackend]) (by simp [hbackend]))

end

end Mindwtr.Sync
