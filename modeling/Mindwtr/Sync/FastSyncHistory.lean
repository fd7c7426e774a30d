import Mindwtr.Sync.FastSync

/-!
# What a run knows of the remote document

A record is right when it names a local document and a version that the document has incorporated (`FastInv`). A run
that has read or written the remote document knows of what it holds in its variables (`KnowsRemote`), and of the
document it ends its cycle with, which version it is (`Recordable`). Writes of other devices, which come at any time,
change none of this (`Grows`).
-/

namespace Mindwtr.Sync

open Mindwtr.Lib Transaction FastRun

section
variable {P F : Type}

/-! ### Records -/

/-- The local document of the fingerprint has incorporated the version. -/
def HasIncorporated (fingerprint : P → F) (s : FastStore P F) (localFingerprint : F) (version : Nat) : Prop :=
  ∃ document ∈ s.held, fingerprint document = localFingerprint ∧ (document, version) ∈ s.incorporated

/-- Some local document has incorporated the version. -/
def HasMerged (s : FastStore P F) (version : Nat) : Prop := ∃ document ∈ s.held, (document, version) ∈ s.incorporated

structure FastInv (fingerprint : P → F) (s : FastStore P F) : Prop where
  remote : ∀ remote, s.remote = some remote → (remote.document, remote.version) ∈ s.incorporated
  recorded : ∀ state, s.recorded = some state →
    HasIncorporated fingerprint s state.localFingerprint state.remoteFingerprint.version
  skips : ∀ skip ∈ s.unchangedSkips, HasIncorporated fingerprint s skip.1 skip.2
  uploads : ∀ version ∈ s.localOnlyUploads, HasMerged s version

/-- The store gains history, and the run has not looked at the remote document again. -/
structure Grows (s t : FastStore P F) : Prop where
  held : s.held ⊆ t.held
  incorporated : s.incorporated ⊆ t.incorporated
  lastSeen : t.lastSeen = s.lastSeen

variable {fingerprint : P → F} {s t u : FastStore P F}

theorem Grows.refl (s : FastStore P F) : Grows s s := ⟨List.Subset.refl _, List.Subset.refl _, rfl⟩

theorem Grows.trans (h : Grows s t) (h' : Grows t u) : Grows s u :=
  ⟨List.Subset.trans h.held h'.held, List.Subset.trans h.incorporated h'.incorporated, h'.lastSeen.trans h.lastSeen⟩

/-- The store gains history. -/
structure Adds (s t : FastStore P F) : Prop where
  held : s.held ⊆ t.held
  incorporated : s.incorporated ⊆ t.incorporated

theorem Grows.adds (h : Grows s t) : Adds s t := ⟨h.held, h.incorporated⟩

theorem Adds.trans (h : Adds s t) (h' : Adds t u) : Adds s u :=
  ⟨List.Subset.trans h.held h'.held, List.Subset.trans h.incorporated h'.incorporated⟩

theorem HasIncorporated.mono {localFingerprint : F} {version : Nat} (hheld : s.held ⊆ t.held)
    (hincorporated : s.incorporated ⊆ t.incorporated) (h : HasIncorporated fingerprint s localFingerprint version) :
    HasIncorporated fingerprint t localFingerprint version := by
  obtain ⟨document, hdocument, hfingerprint, hversion⟩ := h
  exact ⟨document, hheld hdocument, hfingerprint, hincorporated hversion⟩

theorem HasMerged.mono {version : Nat} (hheld : s.held ⊆ t.held) (hincorporated : s.incorporated ⊆ t.incorporated)
    (h : HasMerged s version) : HasMerged t version := by
  obtain ⟨document, hdocument, hversion⟩ := h
  exact ⟨document, hheld hdocument, hincorporated hversion⟩

/-- More history keeps the invariant. -/
theorem FastInv.mono (h : FastInv fingerprint s) (hheld : s.held ⊆ t.held)
    (hincorporated : s.incorporated ⊆ t.incorporated)
    (hremote : ∀ remote, t.remote = some remote → (remote.document, remote.version) ∈ t.incorporated)
    (hrecorded : t.recorded = s.recorded) (hskips : t.unchangedSkips = s.unchangedSkips)
    (huploads : t.localOnlyUploads = s.localOnlyUploads) : FastInv fingerprint t where
  remote := hremote
  recorded state hstate := (h.recorded state (hrecorded ▸ hstate)).mono hheld hincorporated
  skips skip hskip := (h.skips skip (hskips ▸ hskip)).mono hheld hincorporated
  uploads version hversion := (h.uploads version (huploads ▸ hversion)).mono hheld hincorporated

theorem grows_put (s : FastStore P F) (document : P) : Grows s (s.put document) :=
  ⟨List.Subset.refl _, List.subset_cons_self _ _, rfl⟩

theorem fastInv_put (h : FastInv fingerprint s) (document : P) : FastInv fingerprint (s.put document) := by
  refine h.mono (List.Subset.refl _) (List.subset_cons_self _ _) ?_ rfl rfl rfl
  intro remote hremote
  obtain rfl := Option.some.inj hremote
  exact List.mem_cons_self

theorem fastInv_peers (h : FastInv fingerprint s) (documents : List P) :
    FastInv fingerprint (s.peers documents) ∧ Grows s (s.peers documents) := by
  induction documents generalizing s with
  | nil => exact ⟨h, Grows.refl s⟩
  | cons document documents ih =>
    obtain ⟨hinv, hgrows⟩ := ih (fastInv_put h document)
    exact ⟨hinv, (grows_put s document).trans hgrows⟩

theorem fastInv_see (h : FastInv fingerprint s) : FastInv fingerprint s.see :=
  ⟨h.remote, h.recorded, h.skips, h.uploads⟩

theorem fastInv_hold (h : FastInv fingerprint s) (document : P) :
    FastInv fingerprint (s.hold document) ∧ Grows s (s.hold document) :=
  ⟨h.mono (List.subset_cons_self _ _) (List.Subset.refl _) h.remote rfl rfl rfl,
    List.subset_cons_self _ _, List.Subset.refl _, rfl⟩

/-- `derived` holds what `document` has incorporated. -/
structure Derives (s : FastStore P F) (document : P) (t : FastStore P F) (derived : P) : Prop where
  held : derived ∈ t.held
  incorporated : ∀ version, (document, version) ∈ s.incorporated → (derived, version) ∈ t.incorporated

theorem Derives.refl {document : P} (h : document ∈ s.held) : Derives s document s document := ⟨h, fun _ h => h⟩

theorem Derives.grows {document derived : P} (h : Derives s document t derived) (hgrows : Grows t u) :
    Derives s document u derived :=
  ⟨hgrows.held h.held, fun version hversion => hgrows.incorporated (h.incorporated version hversion)⟩

theorem Derives.of_grows {document derived : P} (hgrows : Grows s t) (h : Derives t document u derived) :
    Derives s document u derived :=
  ⟨h.held, fun version hversion => h.incorporated version (hgrows.incorporated hversion)⟩

/-- An awaited call that keeps the invariant whether it fails or not. -/
theorem awaitedRemote_keeps {A : Type} {choice : FastChoice P} {effect : FastStore P F → FastStore P F}
    {answer : FastStore P F → A} {Q : A → FastStore P F → Prop} (hs : FastInv fingerprint s)
    (heffect : ∀ t, FastInv fingerprint t → Grows s t → FastInv fingerprint (effect t) ∧ Grows t (effect t))
    (hanswer : ∀ u, FastInv fingerprint (s.peers choice.before) → Grows s u → Grows (effect (s.peers choice.before)) u →
      Q (answer (s.peers choice.before)) u) :
    FastInv fingerprint (awaitedRemote choice effect answer s).2 ∧ Grows s (awaitedRemote choice effect answer s).2 ∧
      ∀ a, (awaitedRemote choice effect answer s).1 = .ok a → Q a (awaitedRemote choice effect answer s).2 := by
  obtain ⟨hbefore, hsbefore⟩ := fastInv_peers hs choice.before
  obtain ⟨heffected, hgrows⟩ := heffect _ hbefore hsbefore
  obtain ⟨hafter, hsafter⟩ := fastInv_peers heffected choice.after
  obtain ⟨hfailed, hsfailed⟩ := fastInv_peers hbefore choice.after
  have hseffected := (hsbefore.trans hgrows).trans hsafter
  unfold awaitedRemote
  cases choice.failure with
  | none =>
    refine ⟨hafter, hseffected, ?_⟩
    rintro a ⟨⟩
    exact hanswer _ hbefore hseffected hsafter
  | some failure =>
    refine ⟨?_, ?_, nofun⟩
    · dsimp only
      split_ifs
      · exact hafter
      · exact hfailed
    · dsimp only
      split_ifs
      · exact hseffected
      · exact hsbefore.trans hsfailed

section
variable [DecidableEq P]

theorem fastInv_derive (h : FastInv fingerprint s) (document derived : P) :
    FastInv fingerprint (s.derive document derived) ∧ Grows s (s.derive document derived) ∧
      Derives s document (s.derive document derived) derived := by
  have hheld : s.held ⊆ derived :: s.held := List.subset_cons_self _ _
  have hincorporated : s.incorporated ⊆ (s.derive document derived).incorporated := List.subset_append_right _ _
  refine ⟨h.mono hheld hincorporated (fun remote hremote => hincorporated (h.remote remote hremote)) rfl rfl rfl,
    ⟨hheld, hincorporated, rfl⟩, List.mem_cons_self, ?_⟩
  intro version hversion
  refine List.mem_append_left _ (List.mem_map.2 ⟨(document, version), ?_, rfl⟩)
  exact List.mem_filter.2 ⟨hversion, by simp⟩

theorem fastInv_merge (h : FastInv fingerprint s) (localData : P) (remoteData : RemoteVersion P) (merged : P) :
    FastInv fingerprint (s.merge localData remoteData merged) ∧ Grows s (s.merge localData remoteData merged) ∧
      merged ∈ (s.merge localData remoteData merged).held ∧
      (merged, remoteData.version) ∈ (s.merge localData remoteData merged).incorporated := by
  obtain ⟨hinv, hgrows, hderives⟩ := fastInv_derive h localData merged
  have hincorporated : (s.derive localData merged).incorporated ⊆
      (s.merge localData remoteData merged).incorporated := List.subset_cons_self _ _
  refine ⟨hinv.mono (List.Subset.refl _) hincorporated ?_ rfl rfl rfl,
    ⟨hgrows.held, List.Subset.trans hgrows.incorporated hincorporated, rfl⟩, hderives.held, List.mem_cons_self⟩
  intro remote hremote
  exact hincorporated (hinv.remote remote hremote)

end

/-! ### What a run knows -/

/-- What the steps between the calls to the remote document leave alone. -/
structure SameVars (v w : FastVars P F) : Prop where
  io : w.io = v.io
  cache : w.fastSyncStateCache = v.fastSyncStateCache
  armed : w.localOnlyUploadFingerprint = v.localOnlyUploadFingerprint
  written : w.lastRemoteWriteFingerprint = v.lastRemoteWriteFingerprint
  merged : w.lastRemoteWriteMergedServerData = v.lastRemoteWriteMergedServerData
  compare : ∀ document, w.remoteDataForCompare = some document → v.remoteDataForCompare = some document
  readCheck : ∀ remote, w.readCheckRemoteData = some remote → v.readCheckRemoteData = some remote

theorem SameVars.refl (v : FastVars P F) : SameVars v v := ⟨rfl, rfl, rfl, rfl, rfl, fun _ h => h, fun _ h => h⟩

theorem SameVars.trans {v w x : FastVars P F} (h : SameVars v w) (h' : SameVars w x) : SameVars v x :=
  ⟨h'.io.trans h.io, h'.cache.trans h.cache, h'.armed.trans h.armed, h'.written.trans h.written,
    h'.merged.trans h.merged, fun document hd => h.compare document (h'.compare document hd),
    fun remote hr => h.readCheck remote (h'.readCheck remote hr)⟩

/-! ### What a run knows of the remote document -/

section
variable {v : FastVars P F} {options : FastOptions} {data : P}

/-- The document is that of the version last seen, which is the one the backend has cached. -/
def IsLastSeen (options : FastOptions) (v : FastVars P F) (s : FastStore P F) (document : P) : Prop :=
  ∃ version, s.lastSeen = some version ∧ (document, version) ∈ s.incorporated ∧
    ∀ cached, getCachedRemoteFingerprint options v = some cached → cached.version = version

/-- The backend has adopted the version to write under. -/
def WritesUnder (options : FastOptions) (io : BackendVars P) (version : Nat) : Prop :=
  options.backend = .webdav ∧ io.webdavDocumentVersion = some ⟨true, some version⟩ ∨
    options.backend = .dropbox ∧ io.dropboxRev = some version

/-- An upload without a read goes out under a version that the device has merged. -/
def ArmedUnder (options : FastOptions) (v : FastVars P F) (s : FastStore P F) (version : Nat) : Prop :=
  HasMerged s version ∧ WritesUnder options v.io version

structure KnowsRemote (fingerprint : P → F) (options : FastOptions) (v : FastVars P F) (s : FastStore P F) : Prop where
  cache : ∀ state, v.fastSyncStateCache = some (some state) →
    HasIncorporated fingerprint s state.localFingerprint state.remoteFingerprint.version
  armed : ∀ remoteFingerprint, v.localOnlyUploadFingerprint = some remoteFingerprint →
    ArmedUnder options v s remoteFingerprint.version
  compare : ∀ document, v.remoteDataForCompare = some document → IsLastSeen options v s document
  readCheck : ∀ remote, v.readCheckRemoteData = some remote →
    (remote.document, remote.version) ∈ s.incorporated ∧ IsLastSeen options v s remote.document

/-- What the record needs to know of its document. -/
structure Recordable (options : FastOptions) (v : FastVars P F) (s : FastStore P F) (data : P) : Prop where
  held : data ∈ s.held
  seen : ∀ version, s.lastSeen = some version → (data, version) ∈ s.incorporated
  known : ∀ remoteFingerprint,
    (getCachedRemoteFingerprint options v).or v.lastRemoteWriteFingerprint = some remoteFingerprint →
      (data, remoteFingerprint.version) ∈ s.incorporated

/-- The run has not read or written the remote document. -/
structure Unread (v : FastVars P F) : Prop where
  compare : v.remoteDataForCompare = none
  readCheck : v.readCheckRemoteData = none
  armed : v.localOnlyUploadFingerprint = none
  written : v.lastRemoteWriteFingerprint = none
  merged : v.lastRemoteWriteMergedServerData = false

theorem getCachedRemoteFingerprint_same {v w : FastVars P F} (h : SameVars v w) :
    getCachedRemoteFingerprint options w = getCachedRemoteFingerprint options v := by
  simp only [getCachedRemoteFingerprint, h.io]

theorem cached_of_ne_dropbox {remote : RemoteVersion P} (hbackend : options.backend ≠ .dropbox) (w : FastVars P F)
    (cached : RemoteFingerprint) (hcached : getCachedRemoteFingerprint options w = some cached) :
    cached.version = remote.version := by
  rw [getCachedRemoteFingerprint, if_neg hbackend] at hcached
  cases hcached

theorem IsLastSeen.grows {w : FastVars P F} {document : P} (h : IsLastSeen options v s document) (hvw : SameVars v w)
    (hst : Grows s t) : IsLastSeen options w t document := by
  obtain ⟨version, hseen, hincorporated, hcached⟩ := h
  refine ⟨version, hst.lastSeen.trans hseen, hst.incorporated hincorporated, ?_⟩
  rwa [getCachedRemoteFingerprint_same hvw]

theorem KnowsRemote.grows {w : FastVars P F} (h : KnowsRemote fingerprint options v s) (hvw : SameVars v w)
    (hst : Grows s t) : KnowsRemote fingerprint options w t where
  cache state hstate := (h.cache state (hvw.cache ▸ hstate)).mono hst.held hst.incorporated
  armed remoteFingerprint harmed := by
    obtain ⟨hmerged, hcondition⟩ := h.armed remoteFingerprint (hvw.armed ▸ harmed)
    exact ⟨hmerged.mono hst.held hst.incorporated, hvw.io.symm ▸ hcondition⟩
  compare document hdocument := (h.compare document (hvw.compare document hdocument)).grows hvw hst
  readCheck remote hremote := by
    obtain ⟨hincorporated, hseen⟩ := h.readCheck remote (hvw.readCheck remote hremote)
    exact ⟨hst.incorporated hincorporated, hseen.grows hvw hst⟩

theorem Recordable.derives {w : FastVars P F} {derived : P} (h : Recordable options v s data) (hvw : SameVars v w)
    (hst : Grows s t) (hderives : Derives s data t derived) : Recordable options w t derived where
  held := hderives.held
  seen version hseen := hderives.incorporated version (h.seen version (hst.lastSeen ▸ hseen))
  known remoteFingerprint hknown := by
    rw [getCachedRemoteFingerprint_same hvw, hvw.written] at hknown
    exact hderives.incorporated _ (h.known remoteFingerprint hknown)

theorem Unread.same {w : FastVars P F} (h : Unread v) (hvw : SameVars v w) : Unread w where
  compare := by
    rw [Option.eq_none_iff_forall_ne_some]
    intro document hdocument
    have hcompare := hvw.compare document hdocument
    rw [h.compare] at hcompare
    cases hcompare
  readCheck := by
    rw [Option.eq_none_iff_forall_ne_some]
    intro remote hremote
    have hreadCheck := hvw.readCheck remote hremote
    rw [h.readCheck] at hreadCheck
    cases hreadCheck
  armed := hvw.armed.trans h.armed
  written := hvw.written.trans h.written
  merged := hvw.merged.trans h.merged

end

@[simp] theorem version_validator (choice : FastChoice P) (version : Nat) :
    (choice.validator version).version = version := by
  unfold FastChoice.validator
  split_ifs <;> rfl

theorem readBody_eq_some {choice : FastChoice P} {answer : RemoteVersion P × RemoteFingerprint}
    (h : choice.readBody s = .ok (some answer)) :
    s.remote = some answer.1 ∧ answer.2 = choice.validator answer.1.version := by
  unfold FastChoice.readBody at h
  split at h
  · cases h
  · rename_i remote hremote
    split_ifs at h
    obtain rfl := Option.some.inj (Except.ok.inj h)
    exact ⟨hremote, rfl⟩

/-- At most the revision that the backend has cached moves. -/
def SameButRev (v w : FastVars P F) : Prop := ∃ rev, SameVars { v with io := { v.io with dropboxRev := rev } } w

theorem SameButRev.of_same {v w : FastVars P F} (h : SameVars v w) : SameButRev v w := ⟨v.io.dropboxRev, h⟩

theorem Unread.sameButRev {v w : FastVars P F} (h : Unread v) (hvw : SameButRev v w) : Unread w := by
  obtain ⟨rev, hvw⟩ := hvw
  have hmoved : Unread { v with io := { v.io with dropboxRev := rev } } :=
    ⟨h.compare, h.readCheck, h.armed, h.written, h.merged⟩
  exact hmoved.same hvw

/-- Before it reads or writes the remote document, a run knows of it what its record says. -/
structure BeforeRead (fingerprint : P → F) (v : FastVars P F) (s : FastStore P F) : Prop where
  unread : Unread v
  cache : ∀ state, v.fastSyncStateCache = some (some state) →
    HasIncorporated fingerprint s state.localFingerprint state.remoteFingerprint.version

theorem BeforeRead.knows {options : FastOptions} {v : FastVars P F} (h : BeforeRead fingerprint v s) :
    KnowsRemote fingerprint options v s where
  cache := h.cache
  armed remoteFingerprint harmed := by
    rw [h.unread.armed] at harmed
    cases harmed
  compare document hdocument := by
    rw [h.unread.compare] at hdocument
    cases hdocument
  readCheck remote hremote := by
    rw [h.unread.readCheck] at hremote
    cases hremote

theorem BeforeRead.moves {v w : FastVars P F} (h : BeforeRead fingerprint v s) (hvw : SameButRev v w)
    (hst : Grows s t) : BeforeRead fingerprint w t where
  unread := h.unread.sameButRev hvw
  cache state hstate := by
    obtain ⟨rev, hsame⟩ := hvw
    exact (h.cache state (hsame.cache ▸ hstate)).mono hst.held hst.incorporated

theorem BeforeRead.same {v w : FastVars P F} (h : BeforeRead fingerprint v s) (hvw : SameVars v w) (hst : Grows s t) :
    BeforeRead fingerprint w t := h.moves (SameButRev.of_same hvw) hst

/-- The record the run has written is in its cache. -/
theorem BeforeRead.wrote {v w : FastVars P F} {state : FastSyncState F} (h : BeforeRead fingerprint v s)
    (hvw : SameVars { v with fastSyncStateCache := some (some state) } w)
    (hstate : HasIncorporated fingerprint t state.localFingerprint state.remoteFingerprint.version) :
    BeforeRead fingerprint w t where
  unread := by
    have hcached : Unread { v with fastSyncStateCache := some (some state) } :=
      ⟨h.unread.compare, h.unread.readCheck, h.unread.armed, h.unread.written, h.unread.merged⟩
    exact hcached.same hvw
  cache cached hcached := by
    rw [hvw.cache] at hcached
    obtain rfl := Option.some.inj (Option.some.inj hcached)
    exact hstate

/-- What a read answers is the version last seen, and it is not mistaken for a local document. -/
structure ReadsVersion (fingerprint : P → F) (s t : FastStore P F) (remote : RemoteVersion P) : Prop where
  seen : t.lastSeen = some remote.version
  incorporated : (remote.document, remote.version) ∈ t.incorporated
  unmistaken : ∀ document ∈ s.held, fingerprint document = fingerprint remote.document → document = remote.document

/-- The run knows the version it has read, and the revision that the backend has cached is that version. -/
structure ReadsInto (fingerprint : P → F) (options : FastOptions) (v : FastVars P F) (s : FastStore P F)
    (read : Option (RemoteVersion P)) (w : FastVars P F) (t : FastStore P F) : Prop where
  io : ∃ io, w = { v with io }
  adds : Adds s t
  version : ∀ remote, read = some remote → ReadsVersion fingerprint s t remote ∧
    ∀ cached, getCachedRemoteFingerprint options w = some cached → cached.version = remote.version

/-- A backend other than Dropbox has read what the call has answered. -/
theorem readsInto_of_read {v : FastVars P F} {options : FastOptions}
    {read : Option (RemoteVersion P × RemoteFingerprint)} {io : BackendVars P}
    (hbackend : options.backend ≠ .dropbox) (hst : Adds s t)
    (hread : ∀ answer, read = some answer → ReadsVersion fingerprint s t answer.1) :
    ReadsInto fingerprint options v s (read.map (·.1)) { v with io } t := by
  refine ⟨⟨io, rfl⟩, hst, ?_⟩
  intro remote hremote
  obtain ⟨answer, rfl, rfl⟩ := Option.map_eq_some_iff.1 hremote
  exact ⟨hread answer rfl, cached_of_ne_dropbox hbackend _⟩

/-- What a read for the cycle leaves. -/
structure CycleRead (fingerprint : P → F) (options : FastOptions) (v : FastVars P F) (s : FastStore P F)
    (read : Option (RemoteVersion P)) (w : FastVars P F) (t : FastStore P F) : Prop where
  knows : KnowsRemote fingerprint options w t
  adds : Adds s t
  written : w.lastRemoteWriteFingerprint = v.lastRemoteWriteFingerprint
  merged : w.lastRemoteWriteMergedServerData = v.lastRemoteWriteMergedServerData
  version : ∀ remote, read = some remote →
    (remote.document, remote.version) ∈ t.incorporated ∧ IsLastSeen options w t remote.document ∧
      (v.readCheckRemoteData = none → ∀ document ∈ s.held,
        fingerprint document = fingerprint remote.document → document = remote.document)

/-- The run reads where it has nothing yet. -/
theorem KnowsRemote.read {options : FastOptions} {v w : FastVars P F} {read : Option (RemoteVersion P)}
    (hv : KnowsRemote fingerprint options v s) (hreadCheck : v.readCheckRemoteData = none)
    (harmed : v.localOnlyUploadFingerprint = none) (hread : ReadsInto fingerprint options v s read w t) :
    CycleRead fingerprint options v s read { w with remoteDataForCompare := read.map (·.document) } t := by
  obtain ⟨⟨io, rfl⟩, hst, hversion⟩ := hread
  have hseen : ∀ remote, read = some remote →
      IsLastSeen options { v with io, remoteDataForCompare := read.map (·.document) } t remote.document := by
    intro remote hremote
    obtain ⟨hremote, hcached⟩ := hversion remote hremote
    exact ⟨remote.version, hremote.seen, hremote.incorporated, hcached⟩
  refine ⟨⟨?_, ?_, ?_, ?_⟩, hst, rfl, rfl, ?_⟩
  · exact fun state hstate => (hv.cache state hstate).mono hst.held hst.incorporated
  · intro remoteFingerprint hsome
    simp [harmed] at hsome
  · intro document hdocument
    obtain ⟨remote, hremote, rfl⟩ := Option.map_eq_some_iff.1 hdocument
    exact hseen remote hremote
  · intro remote hsome
    simp [hreadCheck] at hsome
  · intro remote hremote
    obtain ⟨hsound, -⟩ := hversion remote hremote
    exact ⟨hsound.incorporated, hseen remote hremote, fun _ => hsound.unmistaken⟩

/-- The body of the remote document is not JSON: it is taken as missing. -/
theorem KnowsRemote.unreadable {options : FastOptions} {v : FastVars P F} (io : BackendVars P)
    (hv : KnowsRemote fingerprint options v s) (hreadCheck : v.readCheckRemoteData = none)
    (harmed : v.localOnlyUploadFingerprint = none) (hst : Adds s t) :
    CycleRead fingerprint options v s none { v with io, remoteDataForCompare := none } t := by
  refine ⟨⟨?_, ?_, nofun, ?_⟩, hst, rfl, rfl, nofun⟩
  · exact fun state hstate => (hv.cache state hstate).mono hst.held hst.incorporated
  · intro remoteFingerprint hsome
    simp [harmed] at hsome
  · intro remote hsome
    simp [hreadCheck] at hsome

theorem CycleRead.same {options : FastOptions} {v v' w : FastVars P F} {read : Option (RemoteVersion P)}
    (h : CycleRead fingerprint options v' t read w u) (hvv' : SameVars v v') (hst : Grows s t) :
    CycleRead fingerprint options v s read w u := by
  refine ⟨h.knows, hst.adds.trans h.adds, h.written.trans hvv'.written, h.merged.trans hvv'.merged, ?_⟩
  intro remote hremote
  obtain ⟨hincorporated, hseen, hunmistaken⟩ := h.version remote hremote
  refine ⟨hincorporated, hseen, fun hreadCheck document hdocument => ?_⟩
  have hreadCheck' : v'.readCheckRemoteData = none := by
    rw [Option.eq_none_iff_forall_ne_some]
    intro other hother
    have hsome := hvv'.readCheck other hother
    rw [hreadCheck] at hsome
    cases hsome
  exact hunmistaken hreadCheck' document (hst.held hdocument)

/-! ### What a write leaves -/

/-- The response to a write is about the version that the write has made of the document. -/
structure Writes (data : P) (s t : FastStore P F) (written : RemoteWritten) : Prop where
  adds : Adds s t
  seen : written.serverMergedRemoteData = false →
    t.lastSeen = some written.version ∧ (data, written.version) ∈ t.incorporated
  validator : ∀ remoteFingerprint, written.validator = some remoteFingerprint →
    remoteFingerprint.version = written.version

/-- What a record can be made of after the write. -/
structure Wrote (options : FastOptions) (data : P) (s : FastStore P F) (outcome : RemoteWriteOutcome)
    (w : FastVars P F) (t : FastStore P F) : Prop where
  adds : Adds s t
  known : outcome.serverMergedRemoteData = false →
    (∀ version, t.lastSeen = some version → (data, version) ∈ t.incorporated) ∧
    (∀ remoteFingerprint, outcome.fingerprint = some remoteFingerprint →
      (data, remoteFingerprint.version) ∈ t.incorporated) ∧
    ∀ cached, getCachedRemoteFingerprint options w = some cached → (data, cached.version) ∈ t.incorporated

/-- A record can be made of the document unless the server has merged. -/
def RecordableUnlessMerged (options : FastOptions) (data : P) (w : FastVars P F) (t : FastStore P F) : Prop :=
  w.lastRemoteWriteMergedServerData = true ∨ Recordable options w t data

theorem Writes.wrote {options : FastOptions} {w : FastVars P F} {data : P} {written : RemoteWritten}
    (h : Writes data s t written) (hbackend : options.backend ≠ .dropbox) :
    Wrote options data s (normalizeRemoteWriteResult written) w t := by
  refine ⟨h.adds, fun hmerged => ?_⟩
  obtain ⟨hseen, hincorporated⟩ := h.seen hmerged
  refine ⟨?_, ?_, ?_⟩
  · intro version hversion
    rw [hseen] at hversion
    obtain rfl := Option.some.inj hversion
    exact hincorporated
  · intro remoteFingerprint hvalidator
    rwa [h.validator remoteFingerprint hvalidator]
  · intro cached hcached
    rw [getCachedRemoteFingerprint, if_neg hbackend] at hcached
    cases hcached

/-- The document is that of the version read last, so nothing is written. -/
theorem IsLastSeen.recordable {options : FastOptions} {v : FastVars P F} {data : P} (h : IsLastSeen options v s data)
    (hdata : data ∈ s.held) (hwritten : v.lastRemoteWriteFingerprint = none) : Recordable options v s data := by
  obtain ⟨version, hseen, hincorporated, hcached⟩ := h
  refine ⟨hdata, ?_, ?_⟩
  · intro other hother
    rw [hseen] at hother
    obtain rfl := Option.some.inj hother
    exact hincorporated
  · intro remoteFingerprint hknown
    rw [hwritten, Option.or_none] at hknown
    rwa [hcached remoteFingerprint hknown]

theorem Wrote.recordable {options : FastOptions} {v w : FastVars P F} {data : P} {outcome : RemoteWriteOutcome}
    (h : Wrote options data s outcome v t) (hdata : data ∈ s.held) (hio : w.io = v.io) (htu : Grows t u)
    (hwritten : w.lastRemoteWriteFingerprint = outcome.fingerprint)
    (hmerged : w.lastRemoteWriteMergedServerData = outcome.serverMergedRemoteData) :
    RecordableUnlessMerged options data w u := by
  cases hserver : outcome.serverMergedRemoteData with
  | true => exact .inl (hmerged.trans hserver)
  | false =>
    obtain ⟨hseen, hvalidator, hcached⟩ := h.known hserver
    refine .inr ⟨htu.held (h.adds.held hdata), ?_, ?_⟩
    · intro version hversion
      exact htu.incorporated (hseen version (htu.lastSeen ▸ hversion))
    · intro remoteFingerprint hknown
      rw [hwritten, Option.or_eq_some_iff] at hknown
      rcases hknown with hknown | ⟨-, hknown⟩
      · rw [getCachedRemoteFingerprint, hio] at hknown
        exact htu.incorporated (hcached remoteFingerprint hknown)
      · exact htu.incorporated (hvalidator remoteFingerprint hknown)

theorem RecordableUnlessMerged.derives {options : FastOptions} {v w : FastVars P F} {data derived : P}
    (h : RecordableUnlessMerged options data v s) (hvw : SameVars v w) (hst : Grows s t)
    (hderives : Derives s data t derived) : RecordableUnlessMerged options derived w t :=
  h.imp (fun hmerged => hvw.merged.trans hmerged) fun hrecordable => hrecordable.derives hvw hst hderives

theorem fastInv_writeOver (h : FastInv fingerprint s) (choice : FastChoice P) (document : P)
    {serverMerges localOnly : Bool}
    (hlocalOnly : localOnly = true → ∀ version, s.remote.map (·.version) = some version → HasMerged s version) :
    FastInv fingerprint (writeOver choice document serverMerges localOnly s) ∧
      Adds s (writeOver choice document serverMerges localOnly s) := by
  have hincorporated : s.incorporated ⊆ (writeOver choice document serverMerges localOnly s).incorporated :=
    List.subset_cons_self _ _
  have hheld : s.held ⊆ (writeOver choice document serverMerges localOnly s).held := fun _ h => h
  refine ⟨⟨?_, ?_, ?_, ?_⟩, hheld, hincorporated⟩
  · intro remote hremote
    obtain rfl := Option.some.inj hremote
    exact List.mem_cons_self
  · exact fun state hstate => (h.recorded state hstate).mono hheld hincorporated
  · exact fun skip hskip => (h.skips skip hskip).mono hheld hincorporated
  · intro version hversion
    apply HasMerged.mono hheld hincorporated
    unfold writeOver at hversion
    cases localOnly with
    | false => exact h.uploads version hversion
    | true =>
      rcases List.mem_append.1 hversion with hversion | hversion
      · exact hlocalOnly rfl version (Option.mem_toList.1 hversion)
      · exact h.uploads version hversion

/-- Only WebDAV and Dropbox adopt a fingerprint. -/
theorem KnowsRemote.unarmed {v : FastVars P F} {options : FastOptions}
    (hv : KnowsRemote fingerprint options v s) (hwebdav : options.backend ≠ .webdav)
    (hdropbox : options.backend ≠ .dropbox) : v.localOnlyUploadFingerprint = none := by
  rw [Option.eq_none_iff_forall_ne_some]
  intro remoteFingerprint hremoteFingerprint
  rcases (hv.armed remoteFingerprint hremoteFingerprint).2 with ⟨hbackend, -⟩ | ⟨hbackend, -⟩
  · exact hwebdav hbackend
  · exact hdropbox hbackend

end

end Mindwtr.Sync
