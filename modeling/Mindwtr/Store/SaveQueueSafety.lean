import Mindwtr.Store.SaveQueueOrder

/-!
# The save queue loses no edit

A snapshot that was queued stays accounted for: it or a newer one is queued, in flight or written, or
its failure is recorded or about to be (`Carried`). A row whose latest edit has not reached the storage
is in such a snapshot, or in a single-row write that still runs (`Secured`). A flush that finds no work
therefore leaves a storage that holds the document, unless a write has just failed for the last time
and its caller has not yet recorded that (`UnreportedFailure`): a second caller that returns at that
moment returns normally. The other way to lose an edit is a row that has used up its revisions, since
an older snapshot may then overwrite it.
-/

namespace Mindwtr.Store

open Mindwtr.Sync Mindwtr.Lib

namespace State

/-- The versions whose fate is not silent. -/
inductive Carrier (s : State) : Nat → Prop
  | pending {p : PendingSave} (hp : p ∈ s.pendingSaves) : Carrier s p.version
  | inFlight {w : SnapshotWrite} (hw : s.saveInFlight = some w) : Carrier s w.version
  | written {v : Nat} (hv : v ∈ s.written) : Carrier s v
  | reporting {c : FlushCaller} {v a : Nat} (hc : c ∈ s.callers) (hpc : c.pc = .afterSave v a false)
      (ha : maxSaveRetryAttempts ≤ a + 1) : Carrier s v
  | recorded (h : s.persistenceFailure = true) : Carrier s s.lost

/-- The snapshot of version `v`, or a newer one, is queued, in flight or written, or its failure is
recorded or about to be. -/
def Carried (s : State) (v : Nat) : Prop := ∃ u, v ≤ u ∧ s.Carrier u

def Secured (s : State) (r : String) : Prop :=
  s.storage r = s.doc r ∨
  (∃ v ≤ s.pendingVersion, s.docAt v r = s.doc r ∧ s.Carried v) ∨
  ∃ i ∈ s.immediateSaves, (i.phase = .dispatched ∨ i.phase = .rejected) ∧ i.row = r ∧
    s.docAt i.version r = s.doc r

structure Covered (s : State) : Prop where
  enqueued : ∀ v ∈ s.enqueued, s.Carried v
  rows : ∀ r, s.Secured r
  returned : ∀ c ∈ s.callers, c.pc = .returned false → ∀ r, (c.calledWith r).Older (s.storage r)

section
variable {s : State} {v : Nat}

theorem Carried.pending {p : PendingSave} (hp : p ∈ s.pendingSaves) (hv : v ≤ p.version) :
    s.Carried v := ⟨_, hv, .pending hp⟩

theorem Carried.inFlight {w : SnapshotWrite} (hw : s.saveInFlight = some w) (hv : v ≤ w.version) :
    s.Carried v := ⟨_, hv, .inFlight hw⟩

theorem Carried.written {u : Nat} (hu : u ∈ s.written) (hv : v ≤ u) : s.Carried v :=
  ⟨_, hv, .written hu⟩

theorem Carried.reporting {c : FlushCaller} {u a : Nat} (hc : c ∈ s.callers)
    (hpc : c.pc = .afterSave u a false) (ha : maxSaveRetryAttempts ≤ a + 1) (hv : v ≤ u) :
    s.Carried v := ⟨_, hv, .reporting hc hpc ha⟩

theorem Carried.recorded (h : s.persistenceFailure = true) (hv : v ≤ s.lost) : s.Carried v :=
  ⟨_, hv, .recorded h⟩

end

theorem Carried.mono {s t : State} (h : ∀ u, s.Carrier u → t.Carried u) {v : Nat}
    (hv : s.Carried v) : t.Carried v := by
  obtain ⟨u, hvu, hu⟩ := hv
  obtain ⟨x, hux, hx⟩ := h u hu
  exact ⟨x, le_trans hvu hux, hx⟩

theorem covered_init (revisions : String → Nat) : (init revisions).Covered where
  enqueued _ h := by simp [init] at h
  rows _ := .inl rfl
  returned _ h := by simp [init] at h

section
variable {s t : State}

/-- A step that changes no document keeps coverage if it drops no version silently, takes no row back
and leaves the rows of running single-row writes secured. -/
theorem Covered.transfer (hs : s.Covered) (hcarry : ∀ u, s.Carrier u → t.Carried u)
    (hdoc : t.doc = s.doc) (hdocAt : t.docAt = s.docAt) (hversion : t.pendingVersion = s.pendingVersion)
    (hstorage : ∀ r, s.storage r = s.doc r → t.storage r = s.doc r)
    (holder : ∀ r, (s.storage r).Older (t.storage r))
    (himmediate : ∀ i ∈ s.immediateSaves, (i.phase = .dispatched ∨ i.phase = .rejected) →
      s.docAt i.version i.row = s.doc i.row → t.Secured i.row)
    (henqueued : ∀ v ∈ t.enqueued, v ∈ s.enqueued ∨ t.Carried v)
    (hreturned : ∀ c ∈ t.callers, c.pc = .returned false →
      c ∈ s.callers ∨ ∀ r, (c.calledWith r).Older (s.storage r)) : t.Covered where
  enqueued v hv := by
    rcases henqueued v hv with hv | hv
    · exact (hs.enqueued v hv).mono hcarry
    · exact hv
  rows r := by
    rcases hs.rows r with h | ⟨v, hv, hrow, h⟩ | ⟨i, hi, hphase, rfl, hrow⟩
    · exact .inl ((hstorage r h).trans (congrFun hdoc r).symm)
    · exact .inr (.inl ⟨v, hversion ▸ hv, by rw [hdocAt, hdoc]; exact hrow, h.mono hcarry⟩)
    · exact himmediate i hi hphase hrow
  returned c hc hpc r := by
    refine RowVersion.Older.trans ?_ (holder r)
    rcases hreturned c hc hpc with hc | h
    · exact hs.returned c hc hpc r
    · exact h r

/-- A step that leaves the rows and the single-row writes alone. -/
theorem Covered.move (hs : s.Covered) (hcarry : ∀ u, s.Carrier u → t.Carried u)
    (hdoc : t.doc = s.doc) (hdocAt : t.docAt = s.docAt) (hversion : t.pendingVersion = s.pendingVersion)
    (hstorage : t.storage = s.storage) (himmediate : t.immediateSaves = s.immediateSaves)
    (henqueued : t.enqueued = s.enqueued)
    (hreturned : ∀ c ∈ t.callers, c.pc = .returned false →
      c ∈ s.callers ∨ ∀ r, (c.calledWith r).Older (s.storage r)) : t.Covered := by
  refine hs.transfer hcarry hdoc hdocAt hversion (fun r h => ?_) (fun r => ?_) (fun i hi hphase hrow => ?_)
    (fun v hv => .inl (henqueued ▸ hv)) hreturned
  · rw [hstorage]
    exact h
  · rw [hstorage]
    exact .refl _
  · refine .inr (.inr ⟨i, himmediate ▸ hi, hphase, rfl, ?_⟩)
    rw [hdocAt, hdoc]
    exact hrow

theorem Carrier.transfer {u : Nat} (hu : s.Carrier u)
    (hpending : ∀ p ∈ s.pendingSaves, t.Carried p.version)
    (hinFlight : ∀ w, s.saveInFlight = some w → t.Carried w.version)
    (hwritten : ∀ v ∈ s.written, v ∈ t.written)
    (hreporting : ∀ c ∈ s.callers, ∀ v a, c.pc = .afterSave v a false →
      maxSaveRetryAttempts ≤ a + 1 → t.Carried v)
    (hrecorded : s.persistenceFailure = true → t.Carried s.lost) : t.Carried u := by
  cases hu with
  | pending hp => exact hpending _ hp
  | inFlight hw => exact hinFlight _ hw
  | written hv => exact .written (hwritten _ hv) (le_refl _)
  | reporting hc hpc ha => exact hreporting _ hc _ _ hpc ha
  | recorded h => exact hrecorded h

/-- A step that changes only the queue. -/
theorem Carrier.transfer_pending {u : Nat} (hu : s.Carrier u)
    (hpending : ∀ p ∈ s.pendingSaves, t.Carried p.version)
    (hinFlight : t.saveInFlight = s.saveInFlight) (hwritten : t.written = s.written)
    (hcallers : t.callers = s.callers) (hlost : t.lost = s.lost)
    (hfailure : s.persistenceFailure = true → t.persistenceFailure = true) : t.Carried u := by
  refine hu.transfer hpending (fun w hw => ?_) (fun v hv => hwritten ▸ hv) (fun c hc v a hpc ha => ?_)
    (fun h => ?_)
  · exact .inFlight (hinFlight.trans hw) (le_refl _)
  · exact .reporting (hcallers ▸ hc) hpc ha (le_refl _)
  · exact .recorded (hfailure h) (le_of_eq hlost.symm)

theorem le_last {front : List PendingSave} {last p : PendingSave}
    (hsorted : (front ++ [last]).Pairwise (·.version ≤ ·.version)) (hp : p ∈ front ++ [last]) :
    p.version ≤ last.version := by
  rcases List.mem_append.1 hp with hp | hp
  · exact (List.pairwise_append.1 hsorted).2.2 p hp last (by simp)
  · rw [List.mem_singleton.1 hp]

/-- The cap keeps the latest entry. -/
theorem carried_enforceCap (hsorted : s.pendingSaves.Pairwise (·.version ≤ ·.version)) {u : Nat}
    (hu : s.Carrier u) : s.enforcePendingSaveCap.Carried u := by
  rw [enforcePendingSaveCap]
  split
  · exact ⟨u, le_refl _, hu⟩
  · refine hu.transfer_pending (fun p hp => ?_) rfl rfl rfl rfl (fun _ => rfl)
    rcases List.eq_nil_or_concat' s.pendingSaves with hnil | ⟨front, last, heq⟩
    · rw [hnil] at hp
      cases hp
    · have hkept : last ∈ s.pendingSaves.drop (s.pendingSaves.length - maxPendingSaves) := by
        have hlength : (front ++ [last]).length - maxPendingSaves ≤ front.length := by
          rw [List.length_append, maxPendingSaves]
          simp
        rw [heq, List.drop_append_of_le_length hlength]
        simp
      rw [heq] at hp hsorted
      exact .pending hkept (le_last hsorted hp)

theorem covered_enforceCap (hsorted : s.pendingSaves.Pairwise (·.version ≤ ·.version))
    (hs : s.Covered) : s.enforcePendingSaveCap.Covered := by
  have hcarry : ∀ u, s.Carrier u → s.enforcePendingSaveCap.Carried u :=
    fun u => carried_enforceCap hsorted
  revert hcarry
  rw [enforcePendingSaveCap]
  split
  · exact fun _ => hs
  · exact fun hcarry => hs.move hcarry rfl rfl rfl rfl rfl rfl fun c hc _ => .inl hc

/-- A snapshot queued, before the cap. -/
def push (s : State) (data : Doc) (v : Nat) : State :=
  { s with pendingSaves := s.pendingSaves ++ [⟨v, data, 0⟩], enqueued := v :: s.enqueued }

theorem carried_push (s : State) (data : Doc) (v : Nat) : (s.push data v).Carried v := by
  have hmem : (⟨v, data, 0⟩ : PendingSave) ∈ (s.push data v).pendingSaves :=
    List.mem_append_right _ (List.mem_singleton_self _)
  exact .pending hmem (le_refl _)

theorem pairwise_push (hs : s.Ordered) {data : Doc} {v : Nat}
    (hlast : ∀ p ∈ s.pendingSaves, p.version ≤ v) :
    (s.push data v).pendingSaves.Pairwise (·.version ≤ ·.version) := by
  refine List.pairwise_append.2 ⟨hs.pending_sorted, List.pairwise_singleton _ _, ?_⟩
  intro p hp q hq
  obtain rfl := List.mem_singleton.1 hq
  exact hlast p hp

/-! ### Edits -/

theorem covered_debouncedSave (hs : s.Ordered) (hc : s.Covered) {rows : List String}
    (hbegun : (s.beginEdit rows).Ordered) : (s.applyEdit rows).debouncedSave.Covered := by
  refine covered_enforceCap (pairwise_push hbegun ?_) ⟨?_, ?_, hc.returned⟩
  · exact fun p hp => Nat.le_succ_of_le (hs.pending_queueable p hp).drawn
  · intro w hw
    rcases List.mem_cons.1 hw with rfl | hw
    · exact carried_push (s.beginEdit rows) _ _
    · refine (hc.enqueued w hw).mono fun u hu => ?_
      exact hu.transfer_pending
        (fun p hp => .pending (List.mem_append_left _ hp) (le_refl _)) rfl rfl rfl rfl id
  · intro r
    refine .inr (.inl ⟨s.pendingVersion + 1, le_refl _, ?_, carried_push (s.beginEdit rows) _ _⟩)
    exact congrFun (docAt_drawVersion_self (s.applyEdit rows)) r

theorem covered_trackImmediateSave (hs : s.Ordered) (hc : s.Covered) (row : String) :
    ((s.beginEdit [row]).trackImmediateSave row).Covered := by
  have hcarry : ∀ u, s.Carrier u → ((s.beginEdit [row]).trackImmediateSave row).Carried u :=
    fun u hu => hu.transfer_pending (fun p hp => .pending hp (le_refl _)) rfl rfl rfl rfl id
  refine ⟨fun v hv => (hc.enqueued v hv).mono hcarry, fun r => ?_, hc.returned⟩
  by_cases hr : r = row
  · subst hr
    refine .inr (.inr ⟨_, List.mem_append_right _ (List.mem_singleton_self _), .inl rfl, rfl, ?_⟩)
    exact congrFun (docAt_drawVersion_self (s.applyEdit [r])) r
  · have hdoc : ((s.beginEdit [row]).trackImmediateSave row).doc r = s.doc r :=
      if_neg (by simpa using hr)
    rcases hc.rows r with h | ⟨v, hv, hrow, h⟩ | ⟨i, hi, hphase, rfl, hrow⟩
    · exact .inl (h.trans hdoc.symm)
    · refine .inr (.inl ⟨v, Nat.le_succ_of_le hv, ?_, h.mono hcarry⟩)
      rw [hdoc, ← hrow]
      exact congrFun (docAt_beginEdit hv) r
    · refine .inr (.inr ⟨i, List.mem_append_left _ hi, hphase, rfl, ?_⟩)
      rw [hdoc, ← hrow]
      exact congrFun (docAt_beginEdit (hs.immediate_drawn i hi)) i.row

/-! ### Flushing -/

/-- A write has failed for the last time, no snapshot written since contains it, and no failure is
recorded: the caller that dispatched it has yet to do that. -/
def UnreportedFailure (s : State) : Prop :=
  s.persistenceFailure = false ∧ ∃ c ∈ s.callers, ∃ v a, c.pc = .afterSave v a false ∧
    maxSaveRetryAttempts ≤ a + 1 ∧ s.savedVersion < v

/-- With no work left and every failure reported, the storage holds the document. -/
theorem storage_eq_doc (hs : s.Ordered) (hc : s.Covered) (hidle : s.hasPendingSaveWork = false)
    (hfailure : s.persistenceFailure = false) (hquiet : ¬ s.UnreportedFailure) (r : String) :
    s.storage r = s.doc r := by
  simp only [hasPendingSaveWork, Bool.or_eq_false_iff, Bool.not_eq_false', List.isEmpty_iff,
    Option.isSome_eq_false_iff, Option.isNone_iff_eq_none] at hidle
  obtain ⟨⟨hpending, hfree⟩, himm⟩ := hidle
  rcases hc.rows r with h | ⟨v, -, hrow, u, hvu, hu⟩ | ⟨i, hi, hphase, -, -⟩
  · exact h
  · have hstored : s.Stored r u := by
      cases hu with
      | pending hp =>
        rw [hpending] at hp
        cases hp
      | inFlight hw =>
        rw [hfree] at hw
        cases hw
      | written hv => exact hs.holds_written u hv r
      | reporting hc' hpc ha =>
        have hsaved : u ≤ s.savedVersion := by
          by_contra hlt
          exact hquiet ⟨hfailure, _, hc', u, _, hpc, ha, not_le.1 hlt⟩
        obtain ⟨x, hx, hdrawn, hrow⟩ := hs.holds_saved r
        exact ⟨x, le_trans hsaved hx, hdrawn, hrow⟩
      | recorded h =>
        rw [hfailure] at h
        cases h
    obtain ⟨x, hux, hdrawn, hx⟩ := hstored
    exact Stored.eq_doc ⟨x, le_trans hvu hux, hdrawn, hx⟩ hs hrow
  · have hrun := immediate_not_inFlight himm hi
    rcases hphase with hphase | hphase <;> simp [ImmediateSave.inFlight, hphase] at hrun

theorem covered_setPc (hc : s.Covered) {i : Nat} {pc : FlushPc} {c : FlushCaller}
    (hcaller : s.callers[i]? = some c)
    (hreport : ∀ v a, c.pc = .afterSave v a false → (s.setPc i pc).Carried v)
    (hreturned : pc = .returned false → ∀ r, (c.calledWith r).Older (s.storage r)) :
    (s.setPc i pc).Covered := by
  refine hc.move (fun u hu => ?_) rfl rfl rfl rfl rfl rfl (fun d hd hpc => ?_)
  · refine hu.transfer (fun p hp => .pending hp (le_refl _))
      (fun w hw => .inFlight hw (le_refl _)) (fun v hv => hv) (fun d hd v a hpc ha => ?_)
      (fun h => .recorded h (le_refl _))
    by_cases hsame : d.pc = c.pc
    · exact hreport v a (hsame ▸ hpc)
    · have hkept : d ∈ (s.setPc i pc).callers := mem_setPc_of_ne hd fun b hb => by
        obtain rfl := Option.some.inj (hcaller.symm.trans hb)
        exact Ne.symm hsame
      exact .reporting hkept hpc ha (le_refl _)
  · rcases mem_setPc hd with hd | ⟨b, hb, rfl⟩
    · exact .inl hd
    · obtain rfl := Option.some.inj (hcaller.symm.trans hb)
      exact .inr (hreturned hpc)

theorem covered_beginWrite (hs : s.Covered) {front : List PendingSave} {p : PendingSave}
    (hpending : s.pendingSaves = front ++ [p]) (hfree : s.saveInFlight = none)
    (hsorted : s.pendingSaves.Pairwise (·.version ≤ ·.version)) : (s.beginWrite p).Covered := by
  refine hs.move (fun u hu => ?_) rfl rfl rfl rfl rfl rfl (fun c hc _ => .inl hc)
  refine hu.transfer (fun q hq => ?_) (fun w hw => ?_) (fun v hv => hv)
    (fun c hc v a hpc ha => .reporting hc hpc ha (le_refl _))
    (fun h => .recorded h (le_refl _))
  · rw [hpending] at hq hsorted
    exact .inFlight rfl (le_last hsorted hq)
  · rw [hfree] at hw
    cases hw

theorem covered_flushLoop (hs : s.Ordered) (hc : s.Covered) {i : Nat} {c : FlushCaller}
    (hcaller : s.callers[i]? = some c)
    (hreport : ∀ v a, c.pc = .afterSave v a false → ∃ p ∈ s.pendingSaves, v ≤ p.version)
    (hquiet : s.hasPendingSaveWork = true ∨ ¬ s.UnreportedFailure) : (s.flushLoop i).Covered := by
  have hset : ∀ pc, (pc = .returned false → ∀ r, (c.calledWith r).Older (s.storage r)) →
      (s.setPc i pc).Covered := by
    intro pc hreturned
    refine covered_setPc hc hcaller (fun v a hpc => ?_) hreturned
    obtain ⟨p, hp, hvp⟩ := hreport v a hpc
    exact .pending hp hvp
  rcases flushLoop_cases s i with ⟨_, -, h⟩ | ⟨_, -, h⟩ | ⟨hidle, h⟩ | ⟨front, p, himm, hfree, hpending, h⟩
  · rw [h]
    exact hset _ (by simp)
  · rw [h]
    exact hset _ (by simp)
  · rw [h]
    refine hset _ fun hpc r => ?_
    have hfailure : s.persistenceFailure = false := by simpa using hpc
    have hquiet : ¬ s.UnreportedFailure := hquiet.resolve_left (by simp [hidle])
    obtain ⟨v, hv, hdoc⟩ := hs.called_doc c (List.mem_of_getElem? hcaller)
    rw [storage_eq_doc hs hc hidle hfailure hquiet r, hdoc, hs.doc_eq]
    exact hs.chain r v _ hv (le_refl _)
  · rcases h with hsaved | h
    · have hfresh := (hs.pending_queueable p (by simp [hpending])).unwritten.1
      omega
    · rw [h]
      exact covered_beginWrite (hset .awaitSave (by simp)) hpending hfree hs.pending_sorted

theorem covered_callFlush (hs : s.Ordered) (hc : s.Covered)
    (hquiet : s.hasPendingSaveWork = true ∨ ¬ s.UnreportedFailure) : s.callFlush.Covered := by
  have hadded : Covered { s with callers := s.callers ++ [⟨.sleeping, s.doc⟩] } := by
    refine hc.move (fun u hu => ?_) rfl rfl rfl rfl rfl rfl (fun c hc hpc => ?_)
    · exact hu.transfer (fun p hp => .pending hp (le_refl _))
        (fun w hw => .inFlight hw (le_refl _)) (fun v hv => hv)
        (fun c hc v a hpc ha => .reporting (List.mem_append_left _ hc) hpc ha (le_refl _))
        (fun h => .recorded h (le_refl _))
    · rcases List.mem_append.1 hc with hc | hc
      · exact .inl hc
      · obtain rfl := List.mem_singleton.1 hc
        cases hpc
  refine covered_flushLoop (ordered_addCaller hs) hadded (List.getElem?_concat_length ..) (by simp) ?_
  refine hquiet.imp id fun hquiet hfailed => hquiet ?_
  obtain ⟨hfailure, c, hc, v, a, hpc, ha, hsaved⟩ := hfailed
  rcases List.mem_append.1 hc with hc | hc
  · exact ⟨hfailure, c, hc, v, a, hpc, ha, hsaved⟩
  · obtain rfl := List.mem_singleton.1 hc
    cases hpc

theorem covered_reportFailure (hc : s.Covered) (v : Nat) : (s.reportFailure v).Covered := by
  refine hc.move (fun u hu => ?_) rfl rfl rfl rfl rfl rfl (fun c hc _ => .inl hc)
  exact hu.transfer (fun p hp => .pending hp (le_refl _))
    (fun w hw => .inFlight hw (le_refl _)) (fun v hv => hv)
    (fun c hc v a hpc ha => .reporting hc hpc ha (le_refl _))
    (fun _ => .recorded rfl (le_max_left _ _))

theorem covered_resume (hs : s.Ordered) (hc : s.Covered) {i : Nat}
    (hquiet : s.hasPendingSaveWork = true ∨ ¬ s.UnreportedFailure ∨
      ∃ c v a, s.callers[i]? = some c ∧ c.pc = .afterSave v a false)
    (h : s.resume i = some t) : t.Covered := by
  obtain ⟨c, hcaller, -, h⟩ := resume_cases h
  rcases h with ⟨_, hpc, rfl⟩ | ⟨hpc, rfl⟩ | ⟨v, a, hpc, h⟩
  · exact covered_setPc hc hcaller (by simp [hpc]) (by simp)
  · refine covered_flushLoop hs hc hcaller (fun v a h => absurd h (hpc v a)) ?_
    refine hquiet.imp id fun h => h.resolve_right ?_
    rintro ⟨b, v, a, hb, hafter⟩
    obtain rfl := Option.some.inj (hcaller.symm.trans hb)
    exact hpc v a hafter
  · have hv : ∀ v' a', c.pc = .afterSave v' a' false → v' = v := by
      intro v' a' h
      rw [hpc] at h
      cases h
      rfl
    rcases h with ⟨⟨p, hp, hvp⟩, rfl⟩ | ⟨⟨p, hp, hvp⟩, rfl⟩ | rfl
    · refine covered_flushLoop hs hc hcaller (fun v' a' h => ⟨p, hp, ?_⟩) (.inl ?_)
      · have := hv v' a' h
        omega
      · rw [hasPendingSaveWork]
        cases hpending : s.pendingSaves with
        | nil =>
          rw [hpending] at hp
          cases hp
        | cons _ _ => rfl
    · refine covered_setPc hc hcaller (fun v' a' h => .pending hp ?_) (by simp)
      have := hv v' a' h
      omega
    · refine covered_setPc (covered_reportFailure hc v) hcaller (fun v' a' h => ?_) (by simp)
      have := hv v' a' h
      exact .recorded rfl (this ▸ le_max_right _ _)

/-! ### The write in flight -/

/-- The write in flight moves on and keeps its version. -/
theorem covered_movePhase (hc : s.Covered) {w : SnapshotWrite} (hw : s.saveInFlight = some w)
    (queue : List StorageOp) (phase : WritePhase) :
    Covered { s with storageQueue := queue, saveInFlight := some { w with phase } } := by
  refine hc.move (fun u hu => ?_) rfl rfl rfl rfl rfl rfl (fun c hc _ => .inl hc)
  refine hu.transfer (fun p hp => .pending hp (le_refl _)) (fun w' hw' => .inFlight rfl ?_)
    (fun v hv => hv) (fun c hc v a hpc ha => .reporting hc hpc ha (le_refl _))
    (fun h => .recorded h (le_refl _))
  obtain rfl := Option.some.inj (hw.symm.trans hw')
  exact le_refl _

/-- A success clears the recorded failure, which was of an older snapshot. -/
theorem covered_acknowledgeSave (hs : s.Ordered) (hc : s.Covered) (h : s.acknowledgeSave = some t) :
    t.Covered := by
  obtain ⟨w, hw, -, rfl⟩ := acknowledgeSave_cases h
  have hmoved := covered_movePhase hc hw s.storageQueue .acknowledged
  refine hmoved.move (fun u hu => ?_) rfl rfl rfl rfl rfl rfl (fun c hc _ => .inl hc)
  refine hu.transfer (fun p hp => .pending hp (le_refl _)) (fun w' hw' => .inFlight hw' (le_refl _))
    (fun v hv => hv) (fun c hc v a hpc ha => .reporting hc hpc ha (le_refl _)) (fun _ => ?_)
  refine .inFlight rfl ?_
  show s.lost ≤ w.version
  rw [hs.inFlight_target w hw]
  exact hs.lost_le

theorem mem_settle_of_ne {w : SnapshotWrite} {ok : Bool} {c : FlushCaller} (hc : c ∈ s.callers)
    (hpc : c.pc ≠ .awaitSave) : c ∈ (s.settle w ok).callers :=
  List.mem_map.2 ⟨c, hc, if_neg hpc⟩

/-- The write in flight settles; its version must be carried on. -/
theorem covered_settle (hc : s.Covered) {w : SnapshotWrite} (hw : s.saveInFlight = some w) {ok : Bool}
    {pending : List PendingSave} (hpending : ∀ p ∈ s.pendingSaves, p ∈ pending)
    (hcarry : Carried { s.settle w ok with pendingSaves := pending } w.version) :
    Covered { s.settle w ok with pendingSaves := pending } := by
  refine hc.move (fun u hu => ?_) rfl rfl rfl rfl rfl rfl (fun c hc hpc => ?_)
  · refine hu.transfer (fun p hp => .pending (hpending p hp) (le_refl _)) (fun w' hw' => ?_)
      (fun v hv => hv) (fun c hc v a hpc ha => ?_) (fun h => .recorded h (le_refl _))
    · obtain rfl := Option.some.inj (hw.symm.trans hw')
      exact hcarry
    · exact .reporting (mem_settle_of_ne hc (by simp [hpc])) hpc ha (le_refl _)
  · rcases mem_settle hc with hc | ⟨b, -, rfl⟩
    · exact .inl hc
    · cases hpc

theorem covered_finallySave (hs : s.Ordered) (hc : s.Covered) (h : s.finallySave = some t) :
    t.Covered := by
  obtain ⟨w, hw, ⟨hphase, rfl⟩ | ⟨hphase, h⟩⟩ := finallySave_cases h
  · refine covered_settle hc hw (fun p hp => hp) (.written ?_ (le_refl _))
    exact hs.inFlight_landed w hw (by rw [hphase]; rfl)
  · rcases h with ⟨⟨p, hp, hlt⟩, rfl⟩ | ⟨-, rfl⟩ | ⟨hattempts, rfl⟩
    · exact covered_settle hc hw (fun p hp => hp) (.pending hp (le_of_lt hlt))
    · refine covered_enforceCap ?_ (covered_settle hc hw (fun p hp => List.mem_cons_of_mem _ hp)
        (.pending List.mem_cons_self (le_refl _)))
      refine List.pairwise_cons.2 ⟨fun q hq => ?_, hs.pending_sorted⟩
      rw [hs.inFlight_target w hw]
      exact (hs.pending_queueable q hq).target_le
    · obtain ⟨c, hcaller, hpc⟩ := hs.owner (by simp [hw])
      refine covered_settle hc hw (fun p hp => hp) ?_
      have howner : { c with pc := .afterSave w.version w.attempts false } ∈
          (s.settle w false).callers := List.mem_map.2 ⟨c, hcaller, if_pos hpc⟩
      exact .reporting howner rfl hattempts (le_refl _)

/-! ### Single-row writes and the storage -/

theorem mem_setImmediatePhase_of_ne {v : Nat} {phase : ImmediatePhase} {i : ImmediateSave}
    (hi : i ∈ s.immediateSaves) (hv : i.version ≠ v) :
    i ∈ (s.setImmediatePhase v phase).immediateSaves := List.mem_map.2 ⟨i, hi, if_neg hv⟩

theorem older_upsertRow (hs : s.Ordered) {x : Nat} (hx : x ≤ s.pendingVersion) (r : String) :
    (s.storage r).Older (upsertRow (s.storage r) (s.docAt x r)) := by
  obtain ⟨u, -, hu, hr⟩ := hs.holds_saved r
  rw [hr, upsertRow_docAt hs hu hx]
  exact hs.chain r u _ (le_max_left _ _) (max_le hu hx)

/-- A storage whose rows only got newer still holds the rows it held. -/
theorem storage_eq_of_older (ht : t.Ordered) (hdoc : t.doc = s.doc)
    (holder : ∀ r, (s.storage r).Older (t.storage r)) {r : String} (h : s.storage r = s.doc r) :
    t.storage r = s.doc r := by
  obtain ⟨u, -, hu, hr⟩ := ht.holds_saved r
  refine RowVersion.Older.antisymm ?_ (h ▸ holder r)
  rw [hr, ← hdoc, ht.doc_eq]
  exact ht.chain r u _ hu (le_refl _)

theorem covered_completeStorageOp (hs : s.Ordered) (hc : s.Covered) {ok : Bool} (ht : t.Ordered)
    (h : s.completeStorageOp ok = some t) : t.Covered := by
  rcases completeStorageOp_cases h with ⟨v, row, value, rest, hqueue, h⟩ | ⟨data, rest, w, hqueue, hw, h⟩
  · obtain ⟨i, hi, hphase, rfl, rfl, rfl, -⟩ := headTask hs hqueue
    rcases h with rfl | rfl
    · have holder : ∀ r, (s.storage r).Older
          (if r = i.row then upsertRow (s.storage r) (s.docAt i.version i.row) else s.storage r) := by
        intro r
        by_cases hr : r = i.row
        · subst hr
          rw [if_pos rfl]
          exact older_upsertRow hs (hs.immediate_drawn i hi) _
        · rw [if_neg hr]
          exact .refl _
      refine hc.transfer (fun u hu => hu.transfer_pending (fun p hp => .pending hp (le_refl _))
        rfl rfl rfl rfl id) rfl rfl rfl (fun r => storage_eq_of_older (s := s) ht rfl holder) holder ?_
        (fun v hv => .inl hv) (fun c hc _ => .inl hc)
      intro j hj hphase hrow
      by_cases hv : j.version = i.version
      · obtain rfl := eq_of_version_eq hs hj hi hv
        obtain ⟨u, -, hvu, hu, hr⟩ := (hs.holds_saved j.row).upsert hs (hs.immediate_drawn j hj)
        exact .inl (Stored.eq_doc ⟨u, hvu, hu, (if_pos rfl).trans hr⟩ ht hrow)
      · exact .inr (.inr ⟨j, mem_setImmediatePhase_of_ne hj hv, hphase, rfl, hrow⟩)
    · refine hc.transfer (fun u hu => hu.transfer_pending (fun p hp => .pending hp (le_refl _))
        rfl rfl rfl rfl id) rfl rfl rfl (fun r h => h) (fun r => .refl _) ?_
        (fun v hv => .inl hv) (fun c hc _ => .inl hc)
      intro j hj hphase hrow
      by_cases hv : j.version = i.version
      · exact .inr (.inr ⟨_, List.mem_map.2 ⟨j, hj, if_pos hv⟩, .inr rfl, rfl, hrow⟩)
      · exact .inr (.inr ⟨j, mem_setImmediatePhase_of_ne hj hv, hphase, rfl, hrow⟩)
  · obtain ⟨-, rfl, -⟩ := headSnapshot hs hqueue hw
    rcases h with rfl | rfl
    · have holder : ∀ r, (s.storage r).Older (upsertRow (s.storage r) (w.data r)) := by
        intro r
        rw [hs.inFlight_data w hw]
        exact older_upsertRow hs (hs.inFlight_target w hw ▸ hs.target_le) r
      refine hc.transfer (fun u hu => ?_) rfl rfl rfl (fun r => storage_eq_of_older (s := s) ht rfl holder) holder
        (fun i hi hphase hrow => .inr (.inr ⟨i, hi, hphase, rfl, hrow⟩))
        (fun v hv => .inl hv) (fun c hc _ => .inl hc)
      refine hu.transfer (fun p hp => .pending hp (le_refl _)) (fun w' hw' => .inFlight rfl ?_)
        (fun v hv => List.mem_cons_of_mem _ hv)
        (fun c hc v a hpc ha => .reporting hc hpc ha (le_refl _)) (fun h => .recorded h (le_refl _))
      obtain rfl := Option.some.inj (hw.symm.trans hw')
      exact le_refl _
    · exact covered_movePhase hc hw rest .rejected

theorem covered_catchImmediate (hs : s.Ordered) (hc : s.Covered) {v : Nat}
    (h : s.catchImmediate v = some t) : t.Covered := by
  obtain ⟨i, hi, rfl, hphase, h⟩ := catchImmediate_cases h
  -- the row of the failed save is now in a queued snapshot
  have hrows : ∀ {t : State}, t.doc = s.doc → t.docAt = s.docAt →
      t.pendingVersion = s.pendingVersion →
      t.immediateSaves = (s.setImmediatePhase i.version .caught).immediateSaves →
      t.Carried i.version → ∀ j ∈ s.immediateSaves, (j.phase = .dispatched ∨ j.phase = .rejected) →
        s.docAt j.version j.row = s.doc j.row → t.Secured j.row := by
    intro t hdoc hdocAt hversion himm hcarried j hj hphase hrow
    rw [Secured, hdoc, hdocAt, hversion, himm]
    by_cases hv : j.version = i.version
    · exact .inr (.inl ⟨j.version, hs.immediate_drawn j hj, hrow, hv ▸ hcarried⟩)
    · exact .inr (.inr ⟨j, mem_setImmediatePhase_of_ne hj hv, hphase, rfl, hrow⟩)
  rcases h with ⟨⟨p, hp, hlt⟩, rfl⟩ | ⟨hlast, rfl⟩
  · exact hc.transfer (fun u hu => hu.transfer_pending (fun p hp => .pending hp (le_refl _))
      rfl rfl rfl rfl (fun _ => rfl)) rfl rfl rfl (fun r h => h) (fun r => .refl _)
      (hrows rfl rfl rfl rfl (.pending hp (le_of_lt hlt))) (fun v hv => .inl hv) (fun c hc _ => .inl hc)
  · have hpushed := carried_push
      { s.setImmediatePhase i.version .caught with persistenceFailure := true }
      i.retrySnapshot i.version
    refine covered_enforceCap (pairwise_push hs hlast) (hc.transfer (fun u hu => ?_) rfl rfl rfl
      (fun r h => h) (fun r => .refl _) (hrows rfl rfl rfl rfl hpushed) (fun v hv => ?_)
      (fun c hc _ => .inl hc))
    · exact hu.transfer_pending (fun p hp => .pending (List.mem_append_left _ hp) (le_refl _))
        rfl rfl rfl rfl (fun _ => rfl)
    · rcases List.mem_cons.1 hv with rfl | hv
      · exact .inr hpushed
      · exact .inl hv

theorem covered_finallyImmediate (hs : s.Ordered) (hc : s.Covered) {v : Nat}
    (h : s.finallyImmediate v = some t) : t.Covered := by
  obtain ⟨i, hi, rfl, h⟩ := finallyImmediate_cases h
  obtain ⟨hold, phase, rfl⟩ : (i.phase = .fulfilled ∨ i.phase = .caught) ∧
      ∃ phase, t = s.setImmediatePhase i.version phase := by
    rcases h with ⟨hphase, rfl⟩ | ⟨hphase, rfl⟩
    · exact ⟨.inl hphase, _, rfl⟩
    · exact ⟨.inr hphase, _, rfl⟩
  refine hc.transfer (fun u hu => hu.transfer_pending (fun p hp => .pending hp (le_refl _))
    rfl rfl rfl rfl id) rfl rfl rfl (fun r h => h) (fun r => .refl _) ?_ (fun v hv => .inl hv)
    (fun c hc _ => .inl hc)
  intro j hj hphase hrow
  have hv : j.version ≠ i.version := by
    intro hv
    obtain rfl := eq_of_version_eq hs hj hi hv
    rcases hphase with hphase | hphase <;> simp [hphase] at hold
  exact .inr (.inr ⟨j, mem_setImmediatePhase_of_ne hj hv, hphase, rfl, hrow⟩)

end

end State

/-! ### Runs -/

/-- A flush that finds no work does so when no failure is waiting to be reported, except by its own
caller. -/
def FailuresReported (s : State) : Event → Prop
  | .flushPendingSave => s.hasPendingSaveWork = true ∨ ¬ s.UnreportedFailure
  | .resume i => s.hasPendingSaveWork = true ∨ ¬ s.UnreportedFailure ∨
      ∃ c v a, s.callers[i]? = some c ∧ c.pc = .afterSave v a false
  | _ => True

def Safe (s : State) (e : Event) : Prop := RevisionsLeft s e ∧ FailuresReported s e

theorem covered_step {s t : State} (hs : s.Ordered) (hc : s.Covered) {e : Event} (he : Safe s e)
    (h : step s e = some t) : t.Covered := by
  cases e with
  | edit rows =>
    obtain rfl := Option.some.inj h
    exact State.covered_debouncedSave hs hc (State.ordered_beginEdit hs he.1)
  | editTask row incremental =>
    obtain rfl := Option.some.inj h
    have hcap : ∀ r ∈ [row], (s.doc r).rev < maxSyncRevision := by
      intro r hr
      obtain rfl := List.mem_singleton.1 hr
      exact he.1
    rw [State.persistTask]
    split
    · exact State.covered_trackImmediateSave hs hc row
    · exact State.covered_debouncedSave hs hc (State.ordered_beginEdit hs hcap)
  | flushPendingSave =>
    obtain rfl := Option.some.inj h
    exact State.covered_callFlush hs hc he.2
  | resume i => exact State.covered_resume hs hc he.2 h
  | dispatchSnapshot =>
    obtain ⟨w, hw, -, rfl⟩ := State.dispatchSnapshot_cases h
    exact State.covered_movePhase hc hw _ _
  | completeStorageOp ok =>
    exact State.covered_completeStorageOp hs hc (State.ordered_completeStorageOp hs h) h
  | acknowledgeSave => exact State.covered_acknowledgeSave hs hc h
  | finallySave => exact State.covered_finallySave hs hc h
  | catchImmediate v => exact State.covered_catchImmediate hs hc h
  | finallyImmediate v => exact State.covered_finallyImmediate hs hc h

theorem ordered_covered_of_reaches {revisions : String → Nat} {s : State}
    (h : Reaches step Safe (State.init revisions) s) : s.Ordered ∧ s.Covered :=
  h.invariant (P := fun s => s.Ordered ∧ s.Covered)
    ⟨State.ordered_init revisions, State.covered_init revisions⟩
    fun _ _ _ hs he h => ⟨ordered_step hs.1 he.1 h, covered_step hs.1 hs.2 he h⟩

theorem snapshotOps_le_one {s : State} (hs : s.Ordered) :
    (s.storageQueue.filterMap State.snapshotOp?).length ≤ 1 := by
  rw [hs.snapshot_ops, State.dispatchedData]
  split
  · split <;> simp
  · simp

/-- In every run whose edits find revisions left and whose flushes do not return while a failure is
unreported, at most one snapshot is being written, the written versions increase, no snapshot is
dropped silently, and a flush that returned with no failure recorded left every earlier edit stored. -/
theorem saveQueue_loses_no_edit {revisions : String → Nat} {s : State}
    (h : Reaches step Safe (State.init revisions) s) :
    (s.storageQueue.filterMap State.snapshotOp?).length ≤ 1 ∧
    s.written.Pairwise (· > ·) ∧
    (∀ v ∈ s.enqueued, s.Carried v) ∧
    ∀ c ∈ s.callers, c.pc = .returned false →
      ∀ r, (c.calledWith r).edit ≤ (s.storage r).edit := by
  obtain ⟨hs, hc⟩ := ordered_covered_of_reaches h
  refine ⟨snapshotOps_le_one hs, hs.written_sorted, hc.enqueued, fun c hcaller hpc r => ?_⟩
  exact (hc.returned c hcaller hpc r).edit_le

/-- A saved edit: the flush returns once the write is acknowledged. -/
theorem saveQueue_loses_no_edit_one_save : ∃ s, Reaches step Safe (State.init fun _ => 0) s ∧
    (∃ c ∈ s.callers, c.pc = .returned false) ∧
    (s.storageQueue.filterMap State.snapshotOp?).length ≤ 1 ∧
    s.written.Pairwise (· > ·) ∧
    (∀ v ∈ s.enqueued, s.Carried v) ∧
    ∀ c ∈ s.callers, c.pc = .returned false →
      ∀ r, (c.calledWith r).edit ≤ (s.storage r).edit := by
  have hedit : Safe (State.init fun _ => 0) (.edit ["t1"]) := by
    refine ⟨fun r _ => ?_, trivial⟩
    show 0 < maxSyncRevision
    decide
  have h1 : Reaches step Safe (State.init fun _ => 0) _ := .step .refl hedit rfl
  have h2 := h1.step (show Safe _ .flushPendingSave from ⟨trivial, .inl rfl⟩) rfl
  have h3 := h2.step (show Safe _ .dispatchSnapshot from ⟨trivial, trivial⟩) rfl
  have h4 := h3.step (show Safe _ (.completeStorageOp true) from ⟨trivial, trivial⟩) rfl
  have h5 := h4.step (show Safe _ .acknowledgeSave from ⟨trivial, trivial⟩) rfl
  have h6 := h5.step (show Safe _ .finallySave from ⟨trivial, trivial⟩) rfl
  have h7 := h6.step (show Safe _ (.resume 0) from ⟨trivial, .inr (.inl (by
    rintro ⟨-, c, hc, v, a, hpc, -⟩
    obtain rfl := List.mem_singleton.mp hc
    cases hpc))⟩) rfl
  exact ⟨_, h7, ⟨_, List.mem_singleton_self _, rfl⟩, saveQueue_loses_no_edit h7⟩

/-- Some flush returned with no failure recorded, and the storage lacks an edit of `r` made before it
was called. -/
def lostEdit (r : String) (s : State) : Bool :=
  s.callers.any fun c =>
    decide (c.pc = .returned false ∧ (s.storage r).edit < (c.calledWith r).edit)

/-- A write that fails five times, and a second flush between the handler of the last failure and the
caller that is to report it: the second flush returns normally although the edit is neither stored nor
reported. -/
theorem flush_returns_before_report :
    ∃ s, Reaches step (fun _ _ => True) (State.init fun _ => 0) s ∧ lostEdit "t1" s = true := by
  let failure : List Event := [.dispatchSnapshot, .completeStorageOp false, .finallySave]
  let retry : List Event := failure ++ [.resume 0, .resume 0]
  have hrun : (runEvents step (State.init fun _ => 0) ([.edit ["t1"], .flushPendingSave] ++ retry ++
      retry ++ retry ++ retry ++ failure ++ [.flushPendingSave])).any (lostEdit "t1") = true := by
    decide
  exact reaches_of_any hrun

/-- A row at the last revision: a snapshot taken before a single-row write and dispatched after it has
the same revision and takes the edit back. -/
theorem exhausted_revision_loses_edit :
    ∃ s, Reaches step (fun _ _ => True) (State.init fun _ => maxSyncRevision) s ∧
      lostEdit "t1" s = true := by
  have hrun : (runEvents step (State.init fun _ => maxSyncRevision) [.edit ["t1"], .flushPendingSave,
      .editTask "t1" true, .dispatchSnapshot, .completeStorageOp true, .finallyImmediate 2,
      .completeStorageOp true, .acknowledgeSave, .finallySave, .resume 0, .flushPendingSave]).any
      (lostEdit "t1") = true := by
    decide
  exact reaches_of_any hrun

end Mindwtr.Store
