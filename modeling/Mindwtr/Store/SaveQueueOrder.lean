import Mindwtr.Store.SaveQueue

/-!
# What the save queue keeps in order

Every edit draws one version, and `docAt` remembers the document of each. All data on its way to the
storage is the document of some version, and along the versions a row only gets newer, with a higher
revision. A row of the storage is therefore the row of some version, and a write of any version moves
it to the later of the two (`upsertRow_docAt`): writes that land out of order do no harm, as long as
each edit is on its way somewhere.
-/

namespace Mindwtr.Store

open Mindwtr.Sync

/-! ### What a step can do -/

namespace State

section
variable {s t : State} {i : Nat}

theorem flushLoop_cases (s : State) (i : Nat) :
    (∃ versions, s.immediatesInFlight ≠ [] ∧ s.flushLoop i = s.setPc i (.awaitImmediate versions)) ∨
    (∃ w, s.saveInFlight = some w ∧ s.flushLoop i = s.setPc i (.awaitInFlight w.ordinal)) ∨
    (s.hasPendingSaveWork = false ∧ s.flushLoop i = s.setPc i (.returned s.persistenceFailure)) ∨
    (∃ front p, s.immediatesInFlight = [] ∧ s.saveInFlight = none ∧ s.pendingSaves = front ++ [p] ∧
      (p.version ≤ s.savedVersion ∨ s.flushLoop i = (s.beginWrite p).setPc i .awaitSave)) := by
  by_cases himm : s.immediatesInFlight = []
  · rw [flushLoop, if_neg (not_not.2 himm)]
    cases hw : s.saveInFlight with
    | some w => exact .inr (.inl ⟨w, rfl, rfl⟩)
    | none =>
      rcases List.eq_nil_or_concat' s.pendingSaves with hp | ⟨front, p, hp⟩
      · refine .inr (.inr (.inl ⟨by simp [hasPendingSaveWork, hp, hw, himm], ?_⟩))
        rw [hp]
        rfl
      · refine .inr (.inr (.inr ⟨front, p, himm, rfl, hp, ?_⟩))
        rw [hp, List.getLast?_concat]
        by_cases hsaved : p.version ≤ s.savedVersion
        · exact .inl hsaved
        · exact .inr (if_neg hsaved)
  · rw [flushLoop, if_pos himm]
    exact .inl ⟨_, himm, rfl⟩

theorem resume_cases (h : s.resume i = some t) : ∃ c, s.callers[i]? = some c ∧ c.pc ≠ .awaitSave ∧
    ((∃ versions, c.pc = .awaitImmediate versions ∧ t = s.setPc i .thrown) ∨
     ((∀ v a, c.pc ≠ .afterSave v a false) ∧ t = s.flushLoop i) ∨
     (∃ v a, c.pc = .afterSave v a false ∧
      ((∃ p ∈ s.pendingSaves, v < p.version) ∧ t = s.flushLoop i ∨
       (∃ p ∈ s.pendingSaves, v = p.version) ∧ t = s.setPc i .sleeping ∨
       t = (s.reportFailure v).setPc i .thrown))) := by
  rw [resume] at h
  cases hc : s.callers[i]? with
  | none =>
    rw [hc] at h
    cases h
  | some c =>
    obtain ⟨pc, calledWith⟩ := c
    refine ⟨_, rfl, ?_⟩
    rw [hc, Option.map_some] at h
    cases pc with
    | awaitImmediate versions =>
      refine ⟨by simp, ?_⟩
      simp only at h
      split at h
      · exact .inl ⟨versions, rfl, (Option.some.inj h).symm⟩
      · split at h
        · exact .inr (.inl ⟨by simp, (Option.some.inj h).symm⟩)
        · cases h
    | awaitInFlight ordinal =>
      simp only at h
      split at h
      · cases h
      · exact ⟨by simp, .inr (.inl ⟨by simp, (Option.some.inj h).symm⟩)⟩
    | awaitSave => cases h
    | afterSave v a ok =>
      refine ⟨by simp, ?_⟩
      cases ok with
      | true => exact .inr (.inl ⟨by simp, (Option.some.inj h).symm⟩)
      | false =>
        refine .inr (.inr ⟨v, a, rfl, ?_⟩)
        simp only at h
        split at h
        · rename_i hnewer
          exact .inl ⟨by simpa using hnewer, (Option.some.inj h).symm⟩
        · split at h
          · rename_i hsame
            refine .inr (.inl ⟨?_, (Option.some.inj h).symm⟩)
            obtain ⟨p, hp, hpv⟩ := List.any_eq_true.1 hsame
            exact ⟨p, hp, (beq_iff_eq.1 hpv).symm⟩
          · exact .inr (.inr (Option.some.inj h).symm)
    | sleeping => exact ⟨by simp, .inr (.inl ⟨by simp, (Option.some.inj h).symm⟩)⟩
    | returned _ => cases h
    | thrown => cases h

theorem dispatchSnapshot_cases (h : s.dispatchSnapshot = some t) :
    ∃ w, s.saveInFlight = some w ∧ w.phase = .scheduled ∧
      t = { s with
        storageQueue := s.storageQueue ++ [.snapshot w.data]
        saveInFlight := some { w with phase := .dispatched } } := by
  rw [dispatchSnapshot] at h
  split at h
  · rename_i w hw
    split at h
    · rename_i hphase
      exact ⟨w, hw, hphase, (Option.some.inj h).symm⟩
    · cases h
  · cases h

theorem acknowledgeSave_cases (h : s.acknowledgeSave = some t) :
    ∃ w, s.saveInFlight = some w ∧ w.phase = .fulfilled ∧
      t = { s with
        savedVersion := w.version
        persistenceFailure := false
        saveInFlight := some { w with phase := .acknowledged } } := by
  rw [acknowledgeSave] at h
  split at h
  · rename_i w hw
    split at h
    · rename_i hphase
      exact ⟨w, hw, hphase, (Option.some.inj h).symm⟩
    · cases h
  · cases h

theorem finallySave_cases (h : s.finallySave = some t) : ∃ w, s.saveInFlight = some w ∧
    (w.phase = .acknowledged ∧ t = s.settle w true ∨
     w.phase = .rejected ∧
      ((∃ p ∈ s.pendingSaves, w.version < p.version) ∧ t = s.settle w false ∨
       w.attempts + 1 < maxSaveRetryAttempts ∧ t = (s.settle w false).requeue w ∨
       maxSaveRetryAttempts ≤ w.attempts + 1 ∧ t = s.settle w false)) := by
  rw [finallySave] at h
  split at h
  · rename_i w hw
    refine ⟨w, hw, ?_⟩
    split at h
    · rename_i hack
      exact .inl ⟨hack, (Option.some.inj h).symm⟩
    · split at h
      · rename_i hrej
        refine .inr ⟨hrej, ?_⟩
        split at h
        · rename_i hnewer
          exact .inl ⟨by simpa using hnewer, (Option.some.inj h).symm⟩
        · split at h
          · rename_i hattempts
            exact .inr (.inl ⟨hattempts, (Option.some.inj h).symm⟩)
          · rename_i hattempts
            exact .inr (.inr ⟨not_lt.1 hattempts, (Option.some.inj h).symm⟩)
      · cases h
  · cases h

theorem completeStorageOp_cases {ok : Bool} (h : s.completeStorageOp ok = some t) :
    (∃ version row value rest, s.storageQueue = .task version row value :: rest ∧
      (t = (writeRow { s with storageQueue := rest } row value).setImmediatePhase version .fulfilled ∨
       t = setImmediatePhase { s with storageQueue := rest } version .rejected)) ∨
    (∃ data rest w, s.storageQueue = .snapshot data :: rest ∧ s.saveInFlight = some w ∧
      (t = writeSnapshot { s with storageQueue := rest } w data ∨
       t = { s with
         storageQueue := rest
         saveInFlight := some { w with phase := .rejected } })) := by
  rw [completeStorageOp] at h
  split at h
  · cases h
  · rename_i version row value rest hqueue
    refine .inl ⟨version, row, value, rest, hqueue, ?_⟩
    cases ok with
    | true => exact .inl (Option.some.inj h).symm
    | false => exact .inr (Option.some.inj h).symm
  · rename_i data rest hqueue
    refine .inr ⟨data, rest, ?_⟩
    simp only at h
    split at h
    · cases h
    · rename_i w hw
      refine ⟨w, hqueue, hw, ?_⟩
      cases ok with
      | true => exact .inl (Option.some.inj h).symm
      | false => exact .inr (Option.some.inj h).symm

theorem catchImmediate_cases {version : Nat} (h : s.catchImmediate version = some t) :
    ∃ i ∈ s.immediateSaves, i.version = version ∧ i.phase = .rejected ∧
      ((∃ p ∈ s.pendingSaves, version < p.version) ∧
        t = { s.setImmediatePhase version .caught with persistenceFailure := true } ∨
       (∀ p ∈ s.pendingSaves, p.version ≤ version) ∧
        t = enqueuePendingSave { s.setImmediatePhase version .caught with persistenceFailure := true }
          i.retrySnapshot version) := by
  rw [catchImmediate] at h
  split at h
  · cases h
  · rename_i i hfind
    have hpred := List.find?_some hfind
    simp only [Bool.and_eq_true, beq_iff_eq] at hpred
    refine ⟨i, List.mem_of_find?_eq_some hfind, hpred.1, hpred.2, ?_⟩
    simp only at h
    split at h
    · rename_i hnewer
      exact .inl ⟨by simpa using hnewer, (Option.some.inj h).symm⟩
    · rename_i hnone
      exact .inr ⟨by simpa using hnone, (Option.some.inj h).symm⟩

theorem finallyImmediate_cases {version : Nat} (h : s.finallyImmediate version = some t) :
    ∃ i ∈ s.immediateSaves, i.version = version ∧
      (i.phase = .fulfilled ∧ t = s.setImmediatePhase version .doneFulfilled ∨
       i.phase = .caught ∧ t = s.setImmediatePhase version .doneRejected) := by
  rw [finallyImmediate] at h
  split at h
  · rename_i i hfind
    have hpred := List.find?_some hfind
    refine ⟨i, List.mem_of_find?_eq_some hfind, beq_iff_eq.1 hpred, ?_⟩
    split at h
    · rename_i hphase
      exact .inl ⟨hphase, (Option.some.inj h).symm⟩
    · rename_i hphase
      exact .inr ⟨hphase, (Option.some.inj h).symm⟩
    · cases h
  · cases h

end

end State

/-! ### Rows along the versions -/

/-- A row and what later edits made of it. -/
def RowVersion.Older (a b : RowVersion) : Prop := a = b ∨ (a.rev < b.rev ∧ a.edit < b.edit)

theorem RowVersion.Older.refl (a : RowVersion) : a.Older a := .inl rfl

theorem RowVersion.Older.trans {a b c : RowVersion} (hab : a.Older b) (hbc : b.Older c) : a.Older c := by
  rcases hab with rfl | hab
  · exact hbc
  · rcases hbc with rfl | hbc
    · exact .inr hab
    · exact .inr ⟨by omega, by omega⟩

theorem RowVersion.Older.edit_le {a b : RowVersion} (h : a.Older b) : a.edit ≤ b.edit := by
  rcases h with rfl | h
  · exact le_refl _
  · omega

theorem RowVersion.Older.antisymm {a b : RowVersion} (hab : a.Older b) (hba : b.Older a) : a = b := by
  rcases hab with rfl | hab
  · rfl
  · have := hba.edit_le
    omega

namespace State

theorem upsertRow_of_older {stored row : RowVersion} (h : stored.Older row) :
    upsertRow stored row = row := by
  rw [upsertRow, if_pos]
  rcases h with rfl | h <;> omega

theorem upsertRow_of_newer {stored row : RowVersion} (h : row.Older stored) :
    upsertRow stored row = stored := by
  rcases h with rfl | h
  · simp [upsertRow]
  · rw [upsertRow, if_neg (by omega)]

/-- The row is the one of a version not before `v`. -/
def Stored (s : State) (r : String) (v : Nat) : Prop :=
  ∃ u, v ≤ u ∧ u ≤ s.pendingVersion ∧ s.storage r = s.docAt u r

/-- The storage holds every edit made up to version `v`. -/
def Holds (s : State) (v : Nat) : Prop := ∀ r, s.Stored r v

/-- The data of the write in flight while it is in the storage queue. -/
def dispatchedData (s : State) : List Doc :=
  match s.saveInFlight with
  | some w => if w.phase = .dispatched then [w.data] else []
  | none => []

/-- The single-row writes still in the storage queue. -/
def dispatchedTasks (s : State) : List (Nat × String × RowVersion) :=
  (s.immediateSaves.filter (·.phase = .dispatched)).map fun i =>
    (i.version, i.row, s.docAt i.version i.row)

def snapshotOp? : StorageOp → Option Doc
  | .snapshot data => some data
  | .task _ _ _ => none

def taskOp? : StorageOp → Option (Nat × String × RowVersion)
  | .snapshot _ => none
  | .task version row value => some (version, row, value)

/-- Newer than everything written so far. -/
def Unwritten (s : State) (v : Nat) : Prop := s.savedVersion < v ∧ ∀ x ∈ s.written, x < v

/-- What holds of the version of a queued snapshot. -/
structure Queueable (s : State) (v : Nat) : Prop where
  unwritten : s.Unwritten v
  target_le : s.lastTarget ≤ v
  target_lt : s.saveInFlight ≠ none → s.lastTarget < v
  drawn : v ≤ s.pendingVersion

def landed : WritePhase → Bool
  | .fulfilled | .acknowledged => true
  | _ => false

structure Ordered (s : State) : Prop where
  doc_eq : s.doc = s.docAt s.pendingVersion
  chain : ∀ r u v, u ≤ v → v ≤ s.pendingVersion → (s.docAt u r).Older (s.docAt v r)
  edits_le : ∀ r, (s.doc r).edit ≤ s.edits
  target_le : s.lastTarget ≤ s.pendingVersion
  written_le : ∀ v ∈ s.written, v ≤ s.lastTarget
  written_sorted : s.written.Pairwise (· > ·)
  saved_le : s.savedVersion ≤ s.lastTarget
  lost_le : s.lost ≤ s.lastTarget
  pending_sorted : s.pendingSaves.Pairwise (·.version ≤ ·.version)
  pending_queueable : ∀ p ∈ s.pendingSaves, s.Queueable p.version
  pending_data : ∀ p ∈ s.pendingSaves, p.data = s.docAt p.version
  inFlight_target : ∀ w, s.saveInFlight = some w → w.version = s.lastTarget
  inFlight_data : ∀ w, s.saveInFlight = some w → w.data = s.docAt w.version
  inFlight_unwritten : ∀ w, s.saveInFlight = some w → landed w.phase = false → s.Unwritten w.version
  inFlight_landed : ∀ w, s.saveInFlight = some w → landed w.phase = true → w.version ∈ s.written
  immediate_nodup : (s.immediateSaves.map (·.version)).Nodup
  immediate_drawn : ∀ i ∈ s.immediateSaves, i.version ≤ s.pendingVersion
  immediate_data : ∀ i ∈ s.immediateSaves, i.retrySnapshot = s.docAt i.version
  immediate_newer : ∀ i ∈ s.immediateSaves, i.inFlight = true → s.lastTarget < i.version
  snapshot_ops : s.storageQueue.filterMap snapshotOp? = s.dispatchedData
  task_ops : s.storageQueue.filterMap taskOp? = s.dispatchedTasks
  owner : s.saveInFlight ≠ none → ∃ c ∈ s.callers, c.pc = .awaitSave
  after_le : ∀ c ∈ s.callers, ∀ v a ok, c.pc = .afterSave v a ok → v ≤ s.lastTarget
  called_doc : ∀ c ∈ s.callers, ∃ v ≤ s.pendingVersion, c.calledWith = s.docAt v
  holds_saved : s.Holds s.savedVersion
  holds_written : ∀ v ∈ s.written, s.Holds v

theorem ordered_init (revisions : String → Nat) : (init revisions).Ordered where
  doc_eq := rfl
  chain _ _ _ _ _ := .refl _
  edits_le _ := le_refl _
  target_le := le_refl _
  written_le _ h := by simp [init] at h
  written_sorted := List.Pairwise.nil
  saved_le := le_refl _
  lost_le := le_refl _
  pending_sorted := List.Pairwise.nil
  pending_queueable _ h := by simp [init] at h
  pending_data _ h := by simp [init] at h
  inFlight_target _ h := by simp [init] at h
  inFlight_data _ h := by simp [init] at h
  inFlight_unwritten _ h := by simp [init] at h
  inFlight_landed _ h := by simp [init] at h
  immediate_nodup := List.Pairwise.nil
  immediate_drawn _ h := by simp [init] at h
  immediate_data _ h := by simp [init] at h
  immediate_newer _ h := by simp [init] at h
  snapshot_ops := rfl
  task_ops := rfl
  owner h := by simp [init] at h
  after_le _ h := by simp [init] at h
  called_doc _ h := by simp [init] at h
  holds_saved _ := ⟨0, le_refl _, le_refl _, rfl⟩
  holds_written _ h := by simp [init] at h

/-! ### Writing rows -/

section
variable {s : State}

theorem upsertRow_docAt (hs : s.Ordered) {r : String} {u x : Nat} (hu : u ≤ s.pendingVersion)
    (hx : x ≤ s.pendingVersion) :
    upsertRow (s.docAt u r) (s.docAt x r) = s.docAt (max u x) r := by
  rcases Nat.le_total u x with h | h
  · rw [upsertRow_of_older (hs.chain r u x h hx), max_eq_right h]
  · rw [upsertRow_of_newer (hs.chain r x u h hu), max_eq_left h]

/-- A row written at version `x` stays at least as new as it was, and is at least as new as `x`. -/
theorem Stored.upsert {r : String} {v x : Nat} (h : s.Stored r v) (hs : s.Ordered)
    (hx : x ≤ s.pendingVersion) :
    ∃ u, v ≤ u ∧ x ≤ u ∧ u ≤ s.pendingVersion ∧
      upsertRow (s.storage r) (s.docAt x r) = s.docAt u r := by
  obtain ⟨u, hvu, hu, hr⟩ := h
  refine ⟨max u x, by omega, by omega, by omega, ?_⟩
  rw [hr, upsertRow_docAt hs hu hx]

/-- A row as new as a version whose row is the document's is the document's. -/
theorem Stored.eq_doc {r : String} {v : Nat} (h : s.Stored r v) (hs : s.Ordered)
    (hv : s.docAt v r = s.doc r) : s.storage r = s.doc r := by
  obtain ⟨u, hvu, hu, hr⟩ := h
  rw [hr]
  refine RowVersion.Older.antisymm ?_ ?_
  · rw [hs.doc_eq]
    exact hs.chain r u _ hu (le_refl _)
  · rw [← hv]
    exact hs.chain r v u hvu hu

/-! ### Edits -/

theorem docAt_drawVersion_of_le {s : State} {v : Nat} (hv : v ≤ s.pendingVersion) :
    s.drawVersion.docAt v = s.docAt v := by
  show (if v = s.pendingVersion + 1 then s.doc else s.docAt v) = s.docAt v
  rw [if_neg (by omega)]

theorem docAt_drawVersion_self (s : State) :
    s.drawVersion.docAt (s.pendingVersion + 1) = s.doc := by
  show (if s.pendingVersion + 1 = s.pendingVersion + 1 then s.doc else _) = s.doc
  rw [if_pos rfl]

theorem older_applyEdit (hs : s.Ordered) {rows : List String}
    (hcap : ∀ r ∈ rows, (s.doc r).rev < maxSyncRevision) (r : String) :
    (s.doc r).Older ((s.applyEdit rows).doc r) := by
  show (s.doc r).Older (if r ∈ rows then ⟨bumpRevision (s.doc r).rev, s.edits + 1⟩ else s.doc r)
  by_cases hr : r ∈ rows
  · rw [if_pos hr, bumpRevision_of_lt (hcap r hr)]
    have hedit := hs.edits_le r
    exact .inr ⟨Nat.lt_succ_self _, Nat.lt_succ_of_le hedit⟩
  · rw [if_neg hr]
    exact .refl _

/-- An edit and the version drawn for it. -/
def beginEdit (s : State) (rows : List String) : State := (s.applyEdit rows).drawVersion

theorem docAt_beginEdit {rows : List String} {v : Nat} (hv : v ≤ s.pendingVersion) :
    (s.beginEdit rows).docAt v = s.docAt v := docAt_drawVersion_of_le (s := s.applyEdit rows) hv

theorem Stored.beginEdit {rows : List String} {r : String} {v : Nat} (h : s.Stored r v) :
    (s.beginEdit rows).Stored r v := by
  obtain ⟨u, hvu, hu, hr⟩ := h
  exact ⟨u, hvu, Nat.le_succ_of_le hu, by rw [docAt_beginEdit hu]; exact hr⟩

theorem Queueable.beginEdit {rows : List String} {v : Nat} (h : s.Queueable v) :
    (s.beginEdit rows).Queueable v :=
  ⟨h.unwritten, h.target_le, h.target_lt, Nat.le_succ_of_le h.drawn⟩

/-- A version just drawn may be queued. -/
theorem queueable_beginEdit (hs : s.Ordered) (rows : List String) :
    (s.beginEdit rows).Queueable (s.pendingVersion + 1) := by
  have htarget := hs.target_le
  have hsaved := hs.saved_le
  refine ⟨⟨?_, fun x hx => ?_⟩, ?_, fun _ => ?_, le_refl _⟩
  · show s.savedVersion < _
    omega
  · have := hs.written_le x hx
    omega
  · show s.lastTarget ≤ _
    omega
  · show s.lastTarget < _
    omega

theorem ordered_beginEdit (hs : s.Ordered) {rows : List String}
    (hcap : ∀ r ∈ rows, (s.doc r).rev < maxSyncRevision) : (s.beginEdit rows).Ordered where
  doc_eq := (docAt_drawVersion_self (s.applyEdit rows)).symm
  chain := by
    intro r u v huv hv
    have hdoc : (s.beginEdit rows).docAt (s.pendingVersion + 1) = (s.applyEdit rows).doc :=
      docAt_drawVersion_self (s.applyEdit rows)
    have hv : v ≤ s.pendingVersion + 1 := hv
    by_cases hnew : v = s.pendingVersion + 1
    · subst hnew
      by_cases hu : u = s.pendingVersion + 1
      · rw [hu]
        exact .refl _
      · rw [hdoc, docAt_beginEdit (by omega)]
        refine RowVersion.Older.trans ?_ (older_applyEdit hs hcap r)
        rw [hs.doc_eq]
        exact hs.chain r u _ (by omega) (le_refl _)
    · rw [docAt_beginEdit (by omega), docAt_beginEdit (by omega)]
      exact hs.chain r u v huv (by omega)
  edits_le := by
    intro r
    show (if r ∈ rows then (⟨bumpRevision (s.doc r).rev, s.edits + 1⟩ : RowVersion)
      else s.doc r).edit ≤ s.edits + 1
    by_cases hr : r ∈ rows
    · rw [if_pos hr]
    · rw [if_neg hr]
      exact Nat.le_succ_of_le (hs.edits_le r)
  target_le := Nat.le_succ_of_le hs.target_le
  written_le := hs.written_le
  written_sorted := hs.written_sorted
  saved_le := hs.saved_le
  lost_le := hs.lost_le
  pending_sorted := hs.pending_sorted
  pending_queueable p hp := (hs.pending_queueable p hp).beginEdit
  pending_data p hp := by
    rw [docAt_beginEdit (hs.pending_queueable p hp).drawn]
    exact hs.pending_data p hp
  inFlight_target := hs.inFlight_target
  inFlight_data w hw := by
    have htarget := hs.inFlight_target w hw
    rw [docAt_beginEdit (htarget ▸ hs.target_le)]
    exact hs.inFlight_data w hw
  inFlight_unwritten := hs.inFlight_unwritten
  inFlight_landed := hs.inFlight_landed
  immediate_nodup := hs.immediate_nodup
  immediate_drawn i hi := Nat.le_succ_of_le (hs.immediate_drawn i hi)
  immediate_data i hi := by
    rw [docAt_beginEdit (hs.immediate_drawn i hi)]
    exact hs.immediate_data i hi
  immediate_newer := hs.immediate_newer
  snapshot_ops := hs.snapshot_ops
  task_ops := by
    refine hs.task_ops.trans (List.map_congr_left fun i hi => ?_)
    rw [docAt_beginEdit (hs.immediate_drawn i (List.mem_of_mem_filter hi))]
  owner := hs.owner
  after_le := hs.after_le
  called_doc c hc := by
    obtain ⟨v, hv, hdoc⟩ := hs.called_doc c hc
    exact ⟨v, Nat.le_succ_of_le hv, by rw [docAt_beginEdit hv]; exact hdoc⟩
  holds_saved r := (hs.holds_saved r).beginEdit
  holds_written v hv r := (hs.holds_written v hv r).beginEdit

/-! ### The queue -/

theorem ordered_enforceCap (hs : s.Ordered) : s.enforcePendingSaveCap.Ordered := by
  rw [enforcePendingSaveCap]
  split
  · exact hs
  · have hsub : (s.pendingSaves.drop (s.pendingSaves.length - maxPendingSaves)).Sublist
        s.pendingSaves := List.drop_sublist _ _
    exact { hs with
      pending_sorted := hs.pending_sorted.sublist hsub
      pending_queueable := fun p hp =>
        { hs.pending_queueable p (hsub.subset hp) with }
      pending_data := fun p hp => hs.pending_data p (hsub.subset hp) }

theorem ordered_enqueue (hs : s.Ordered) {data : Doc} {v : Nat} (hdata : data = s.docAt v)
    (hv : s.Queueable v) (hlast : ∀ p ∈ s.pendingSaves, p.version ≤ v) :
    (s.enqueuePendingSave data v).Ordered := by
  have hmem : ∀ {p : PendingSave}, p ∈ s.pendingSaves ++ [⟨v, data, 0⟩] →
      p ∈ s.pendingSaves ∨ p = ⟨v, data, 0⟩ := by
    intro p hp
    simpa using hp
  refine ordered_enforceCap { hs with pending_sorted := ?_, pending_queueable := ?_, pending_data := ?_ }
  · refine List.pairwise_append.2 ⟨hs.pending_sorted, List.pairwise_singleton _ _, ?_⟩
    intro p hp q hq
    obtain rfl := List.mem_singleton.1 hq
    exact hlast p hp
  · intro p hp
    rcases hmem hp with hp | rfl
    · exact { hs.pending_queueable p hp with }
    · exact { hv with }
  · intro p hp
    rcases hmem hp with hp | rfl
    · exact hs.pending_data p hp
    · exact hdata

/-! ### Callers -/

theorem mem_setPc {i : Nat} {pc : FlushPc} {c : FlushCaller} (hc : c ∈ (s.setPc i pc).callers) :
    c ∈ s.callers ∨ ∃ b, s.callers[i]? = some b ∧ c = { b with pc } := by
  obtain ⟨j, hj⟩ := List.mem_iff_getElem?.1 hc
  rw [setPc, List.getElem?_modify] at hj
  by_cases hij : i = j
  · subst hij
    obtain ⟨b, hb, rfl⟩ := Option.map_eq_some_iff.1 hj
    exact .inr ⟨b, hb, by simp⟩
  · simp only [if_neg hij, id_map'] at hj
    exact .inl (List.mem_of_getElem? hj)

theorem mem_setPc_of_ne {i : Nat} {pc : FlushPc} {c : FlushCaller} (hc : c ∈ s.callers)
    (hne : ∀ b, s.callers[i]? = some b → b.pc ≠ c.pc) : c ∈ (s.setPc i pc).callers := by
  obtain ⟨j, hj⟩ := List.mem_iff_getElem?.1 hc
  refine List.mem_iff_getElem?.2 ⟨j, ?_⟩
  rw [setPc, List.getElem?_modify]
  by_cases hij : i = j
  · subst hij
    exact absurd rfl (hne c hj)
  · simp [if_neg hij, hj]

theorem mem_setPc_self {i : Nat} {pc : FlushPc} {c : FlushCaller} (hc : s.callers[i]? = some c) :
    { c with pc } ∈ (s.setPc i pc).callers := by
  refine List.mem_iff_getElem?.2 ⟨i, ?_⟩
  rw [setPc, List.getElem?_modify, hc]
  simp

theorem ordered_setPc (hs : s.Ordered) {i : Nat} {pc : FlushPc}
    (hold : ∀ c, s.callers[i]? = some c → c.pc ≠ .awaitSave)
    (hnew : ∀ v a ok, pc = .afterSave v a ok → v ≤ s.lastTarget) : (s.setPc i pc).Ordered :=
  { hs with
    pending_queueable := fun p hp => { hs.pending_queueable p hp with }
    owner := by
      intro hw
      obtain ⟨c, hc, hpc⟩ := hs.owner hw
      exact ⟨c, mem_setPc_of_ne hc (fun b hb => hpc ▸ hold b hb), hpc⟩
    after_le := by
      intro c hc v a ok hpc
      rcases mem_setPc hc with hc | ⟨b, -, rfl⟩
      · exact hs.after_le c hc v a ok hpc
      · exact hnew v a ok hpc
    called_doc := by
      intro c hc
      rcases mem_setPc hc with hc | ⟨b, hb, rfl⟩
      · exact hs.called_doc c hc
      · exact hs.called_doc b (List.mem_of_getElem? hb) }

theorem ordered_addCaller (hs : s.Ordered) :
    Ordered { s with callers := s.callers ++ [⟨.sleeping, s.doc⟩] } :=
  { hs with
    pending_queueable := fun p hp => { hs.pending_queueable p hp with }
    owner := by
      intro hw
      obtain ⟨c, hc, hpc⟩ := hs.owner hw
      exact ⟨c, List.mem_append_left _ hc, hpc⟩
    after_le := by
      intro c hc v a ok hpc
      rcases List.mem_append.1 hc with hc | hc
      · exact hs.after_le c hc v a ok hpc
      · obtain rfl := List.mem_singleton.1 hc
        cases hpc
    called_doc := by
      intro c hc
      rcases List.mem_append.1 hc with hc | hc
      · exact hs.called_doc c hc
      · obtain rfl := List.mem_singleton.1 hc
        exact ⟨s.pendingVersion, le_refl _, hs.doc_eq⟩ }

/-! ### The write in flight -/

theorem immediate_not_inFlight (h : s.immediatesInFlight = []) {i : ImmediateSave}
    (hi : i ∈ s.immediateSaves) : i.inFlight = false := by
  rw [immediatesInFlight, List.filter_eq_nil_iff] at h
  simpa using h i hi

theorem ordered_beginWrite (hs : s.Ordered) {i : Nat} {front : List PendingSave} {p : PendingSave}
    {c : FlushCaller} (hpending : s.pendingSaves = front ++ [p]) (hfree : s.saveInFlight = none)
    (himmediate : s.immediatesInFlight = []) (hc : s.callers[i]? = some c) :
    ((s.beginWrite p).setPc i .awaitSave).Ordered := by
  have hp : p ∈ s.pendingSaves := by simp [hpending]
  have hq := hs.pending_queueable p hp
  exact { hs with
    target_le := hq.drawn
    written_le := fun v hv => le_trans (hs.written_le v hv) hq.target_le
    saved_le := le_trans hs.saved_le hq.target_le
    lost_le := le_trans hs.lost_le hq.target_le
    pending_sorted := List.Pairwise.nil
    pending_queueable := fun _ h => absurd h List.not_mem_nil
    pending_data := fun _ h => absurd h List.not_mem_nil
    inFlight_target := fun w hw => by
      obtain rfl := Option.some.inj hw
      rfl
    inFlight_data := fun w hw => by
      obtain rfl := Option.some.inj hw
      exact hs.pending_data p hp
    inFlight_unwritten := fun w hw _ => by
      obtain rfl := Option.some.inj hw
      exact hq.unwritten
    inFlight_landed := fun w hw hlanded => by
      obtain rfl := Option.some.inj hw
      cases hlanded
    immediate_newer := fun i hi hrun => by
      rw [immediate_not_inFlight himmediate hi] at hrun
      cases hrun
    snapshot_ops := by
      have hops := hs.snapshot_ops
      rw [dispatchedData, hfree] at hops
      exact hops
    owner := fun _ => ⟨_, mem_setPc_self (s := s.beginWrite p) hc, rfl⟩
    after_le := by
      intro c hc v a ok hpc
      rcases mem_setPc hc with hc | ⟨b, -, rfl⟩
      · exact le_trans (hs.after_le c hc v a ok hpc) hq.target_le
      · cases hpc
    called_doc := by
      intro c hc
      rcases mem_setPc hc with hc | ⟨b, hb, rfl⟩
      · exact hs.called_doc c hc
      · exact hs.called_doc b (List.mem_of_getElem? hb) }

/-- A write moves on in its promise chain without landing or leaving the storage queue. -/
theorem ordered_movePhase (hs : s.Ordered) {w : SnapshotWrite} (hw : s.saveInFlight = some w)
    (phase : WritePhase) {queue : List StorageOp} (hlanded : landed phase = landed w.phase)
    (hsnapshots : queue.filterMap snapshotOp? = if phase = .dispatched then [w.data] else [])
    (htasks : queue.filterMap taskOp? = s.storageQueue.filterMap taskOp?) :
    Ordered { s with storageQueue := queue, saveInFlight := some { w with phase } } :=
  { hs with
    pending_queueable := fun p hp =>
      { hs.pending_queueable p hp with
        target_lt := fun _ => (hs.pending_queueable p hp).target_lt (by simp [hw]) }
    inFlight_target := fun w' hw' => by
      obtain rfl := Option.some.inj hw'
      exact hs.inFlight_target w hw
    inFlight_data := fun w' hw' => by
      obtain rfl := Option.some.inj hw'
      exact hs.inFlight_data w hw
    inFlight_unwritten := fun w' hw' h => by
      obtain rfl := Option.some.inj hw'
      exact hs.inFlight_unwritten w hw (hlanded ▸ h)
    inFlight_landed := fun w' hw' h => by
      obtain rfl := Option.some.inj hw'
      exact hs.inFlight_landed w hw (hlanded ▸ h)
    snapshot_ops := hsnapshots
    task_ops := htasks.trans hs.task_ops
    owner := fun _ => hs.owner (by simp [hw]) }

theorem not_dispatched_ops (hs : s.Ordered) {w : SnapshotWrite} (hw : s.saveInFlight = some w)
    (hphase : w.phase ≠ .dispatched) : s.storageQueue.filterMap snapshotOp? = [] := by
  have hops := hs.snapshot_ops
  rw [dispatchedData, hw] at hops
  exact hops.trans (if_neg hphase)

theorem ordered_dispatchSnapshot (hs : s.Ordered) {t : State} (h : s.dispatchSnapshot = some t) :
    t.Ordered := by
  obtain ⟨w, hw, hphase, rfl⟩ := dispatchSnapshot_cases h
  refine ordered_movePhase hs hw .dispatched (by rw [hphase]; rfl) ?_ ?_
  · rw [List.filterMap_append, not_dispatched_ops hs hw (by simp [hphase])]
    rfl
  · simp [List.filterMap_append, taskOp?]

theorem ordered_acknowledgeSave (hs : s.Ordered) {t : State} (h : s.acknowledgeSave = some t) :
    t.Ordered := by
  obtain ⟨w, hw, hphase, rfl⟩ := acknowledgeSave_cases h
  have hmoved := ordered_movePhase hs hw .acknowledged (by rw [hphase]; rfl)
    (not_dispatched_ops hs hw (by simp [hphase])) rfl
  have htarget := hs.inFlight_target w hw
  exact { hmoved with
    saved_le := le_of_eq htarget
    pending_queueable := fun p hp =>
      { hmoved.pending_queueable p hp with
        unwritten := by
          have hlt := (hs.pending_queueable p hp).target_lt (by simp [hw])
          refine ⟨?_, (hs.pending_queueable p hp).unwritten.2⟩
          show w.version < p.version
          omega }
    inFlight_unwritten := fun w' hw' hfresh => by
      obtain rfl := Option.some.inj hw'
      cases hfresh
    holds_saved := hs.holds_written _ (hs.inFlight_landed w hw (by rw [hphase]; rfl)) }

theorem mem_settle {w : SnapshotWrite} {ok : Bool} {c : FlushCaller}
    (hc : c ∈ (s.settle w ok).callers) :
    c ∈ s.callers ∨ ∃ b ∈ s.callers, c = { b with pc := .afterSave w.version w.attempts ok } := by
  obtain ⟨b, hb, rfl⟩ := List.mem_map.1 hc
  by_cases hpc : b.pc = .awaitSave
  · rw [if_pos hpc]
    exact .inr ⟨b, hb, rfl⟩
  · rw [if_neg hpc]
    exact .inl hb

theorem ordered_settle (hs : s.Ordered) {w : SnapshotWrite} (hw : s.saveInFlight = some w)
    (hphase : w.phase ≠ .dispatched) (ok : Bool) : (s.settle w ok).Ordered :=
  { hs with
    pending_queueable := fun p hp =>
      { hs.pending_queueable p hp with target_lt := fun h => absurd rfl h }
    inFlight_target := fun _ h => by cases h
    inFlight_data := fun _ h => by cases h
    inFlight_unwritten := fun _ h => by cases h
    inFlight_landed := fun _ h => by cases h
    snapshot_ops := not_dispatched_ops (s := s) hs hw hphase
    owner := fun h => absurd rfl h
    after_le := by
      intro c hc v a ok hpc
      rcases mem_settle hc with hc | ⟨b, -, rfl⟩
      · exact hs.after_le c hc v a ok hpc
      · cases hpc
        exact le_of_eq (hs.inFlight_target w hw)
    called_doc := by
      intro c hc
      rcases mem_settle hc with hc | ⟨b, hb, rfl⟩
      · exact hs.called_doc c hc
      · exact hs.called_doc b hb }

/-- A snapshot whose write failed goes back to the front of the queue. -/
theorem ordered_requeue (hs : s.Ordered) {p : PendingSave} (hdata : p.data = s.docAt p.version)
    (hp : s.Queueable p.version) (hfirst : ∀ q ∈ s.pendingSaves, p.version ≤ q.version) :
    Ordered { s with pendingSaves := p :: s.pendingSaves } :=
  { hs with
    pending_sorted := List.pairwise_cons.2 ⟨hfirst, hs.pending_sorted⟩
    pending_queueable := fun q hq => by
      rcases List.mem_cons.1 hq with rfl | hq
      · exact { hp with }
      · exact { hs.pending_queueable q hq with }
    pending_data := fun q hq => by
      rcases List.mem_cons.1 hq with rfl | hq
      · exact hdata
      · exact hs.pending_data q hq }

theorem ordered_finallySave (hs : s.Ordered) {t : State} (h : s.finallySave = some t) :
    t.Ordered := by
  obtain ⟨w, hw, ⟨hphase, rfl⟩ | ⟨hphase, h⟩⟩ := finallySave_cases h
  · exact ordered_settle hs hw (by simp [hphase]) true
  · have hsettled := ordered_settle hs hw (by simp [hphase]) false
    rcases h with ⟨-, rfl⟩ | ⟨-, rfl⟩ | ⟨-, rfl⟩
    · exact hsettled
    · have htarget := hs.inFlight_target w hw
      refine ordered_enforceCap (ordered_requeue hsettled ?_ ⟨?_, ?_, ?_, ?_⟩ ?_)
      · exact hs.inFlight_data w hw
      · exact hs.inFlight_unwritten w hw (by rw [hphase]; rfl)
      · exact le_of_eq htarget.symm
      · exact fun h => absurd rfl h
      · exact htarget ▸ hs.target_le
      · intro q hq
        exact htarget ▸ (hs.pending_queueable q hq).target_le
    · exact hsettled

theorem ordered_reportFailure (hs : s.Ordered) {v : Nat} (hv : v ≤ s.lastTarget) :
    (s.reportFailure v).Ordered :=
  { hs with
    lost_le := max_le hs.lost_le hv
    pending_queueable := fun p hp => { hs.pending_queueable p hp with } }

/-! ### Single-row writes -/

theorem eq_of_version_eq (hs : s.Ordered) {i j : ImmediateSave} (hi : i ∈ s.immediateSaves)
    (hj : j ∈ s.immediateSaves) (h : i.version = j.version) : i = j :=
  List.inj_on_of_nodup_map hs.immediate_nodup hi hj h

theorem mem_setImmediatePhase {v : Nat} {phase : ImmediatePhase} {j : ImmediateSave}
    (hj : j ∈ (s.setImmediatePhase v phase).immediateSaves) :
    ∃ i ∈ s.immediateSaves, (i.version = v ∧ j = { i with phase }) ∨ (i.version ≠ v ∧ j = i) := by
  obtain ⟨i, hi, rfl⟩ := List.mem_map.1 hj
  by_cases hv : i.version = v
  · exact ⟨i, hi, .inl ⟨hv, if_pos hv⟩⟩
  · exact ⟨i, hi, .inr ⟨hv, if_neg hv⟩⟩

theorem versions_setImmediatePhase (s : State) (v : Nat) (phase : ImmediatePhase) :
    (s.setImmediatePhase v phase).immediateSaves.map (·.version) =
      s.immediateSaves.map (·.version) := by
  rw [setImmediatePhase, List.map_map]
  refine List.map_congr_left fun i _ => ?_
  show (if i.version = v then { i with phase } else i).version = i.version
  split <;> rfl

/-- Leaving the storage queue removes a save from the dispatched ones. -/
theorem dispatched_setImmediatePhase (s : State) (v : Nat) {phase : ImmediatePhase}
    (hphase : phase ≠ .dispatched) :
    (s.setImmediatePhase v phase).immediateSaves.filter (·.phase = .dispatched) =
      (s.immediateSaves.filter (·.phase = .dispatched)).filter (·.version ≠ v) := by
  rw [setImmediatePhase]
  show (s.immediateSaves.map _).filter _ = _
  induction s.immediateSaves with
  | nil => rfl
  | cons i rest ih =>
    by_cases hv : i.version = v <;> by_cases hd : i.phase = .dispatched <;>
      simp_all

/-- A save that is still running moves on in its promise chain. -/
theorem ordered_setImmediatePhase (hs : s.Ordered) {v : Nat} {phase : ImmediatePhase}
    (queue : List StorageOp)
    (hrunning : ∀ i ∈ s.immediateSaves, i.version = v → i.inFlight = true)
    (hsnapshots : queue.filterMap snapshotOp? = s.storageQueue.filterMap snapshotOp?)
    (htasks : queue.filterMap taskOp? = (s.setImmediatePhase v phase).dispatchedTasks) :
    (setImmediatePhase { s with storageQueue := queue } v phase).Ordered :=
  { hs with
    pending_queueable := fun p hp => { hs.pending_queueable p hp with }
    immediate_nodup := by
      have hnodup := hs.immediate_nodup
      rwa [← versions_setImmediatePhase s v phase] at hnodup
    immediate_drawn := by
      intro j hj
      obtain ⟨i, hi, ⟨-, rfl⟩ | ⟨-, rfl⟩⟩ := mem_setImmediatePhase hj
      · exact hs.immediate_drawn i hi
      · exact hs.immediate_drawn j hi
    immediate_data := by
      intro j hj
      obtain ⟨i, hi, ⟨-, rfl⟩ | ⟨-, rfl⟩⟩ := mem_setImmediatePhase hj
      · exact hs.immediate_data i hi
      · exact hs.immediate_data j hi
    immediate_newer := by
      intro j hj hrun
      obtain ⟨i, hi, ⟨hv, rfl⟩ | ⟨-, rfl⟩⟩ := mem_setImmediatePhase hj
      · exact hs.immediate_newer i hi (hrunning i hi hv)
      · exact hs.immediate_newer j hi hrun
    snapshot_ops := hsnapshots.trans hs.snapshot_ops
    task_ops := htasks }

/-- Handlers leave the dispatched saves alone. -/
theorem dispatchedTasks_setImmediatePhase (hs : s.Ordered) {i : ImmediateSave}
    (hi : i ∈ s.immediateSaves) (hold : i.phase ≠ .dispatched) {phase : ImmediatePhase}
    (hnew : phase ≠ .dispatched) :
    (s.setImmediatePhase i.version phase).dispatchedTasks = s.dispatchedTasks := by
  rw [dispatchedTasks, dispatched_setImmediatePhase s i.version hnew, List.filter_eq_self.2]
  · rfl
  · intro j hj
    obtain ⟨hj, hphase⟩ := List.mem_filter.1 hj
    simp only [decide_eq_true_eq] at hphase
    simp only [ne_eq, decide_not, Bool.not_eq_eq_eq_not, Bool.not_true, decide_eq_false_iff_not]
    intro hv
    obtain rfl := eq_of_version_eq hs hj hi hv
    exact hold hphase

theorem ordered_handleImmediate (hs : s.Ordered) {i : ImmediateSave} (hi : i ∈ s.immediateSaves)
    (hrun : i.inFlight = true) (hold : i.phase ≠ .dispatched) (phase : ImmediatePhase)
    (hnew : phase ≠ .dispatched) : (s.setImmediatePhase i.version phase).Ordered := by
  refine ordered_setImmediatePhase hs s.storageQueue ?_ rfl ?_
  · intro j hj hv
    obtain rfl := eq_of_version_eq hs hj hi hv
    exact hrun
  · rw [dispatchedTasks_setImmediatePhase hs hi hold hnew]
    exact hs.task_ops

/-- The save whose write is at the head of the queue, and what its completion leaves. -/
theorem headTask (hs : s.Ordered) {v : Nat} {row : String} {value : RowVersion}
    {rest : List StorageOp} (hqueue : s.storageQueue = .task v row value :: rest) :
    ∃ i ∈ s.immediateSaves, i.phase = .dispatched ∧ i.version = v ∧ i.row = row ∧
      value = s.docAt v row ∧
      ∀ phase ≠ .dispatched, rest.filterMap taskOp? = (s.setImmediatePhase v phase).dispatchedTasks := by
  have htasks := hs.task_ops
  rw [hqueue, dispatchedTasks] at htasks
  replace htasks : (v, row, value) :: rest.filterMap taskOp? = _ := htasks
  obtain ⟨i, others, hfilter, hvalue, hrest⟩ := List.map_eq_cons_iff.1 htasks.symm
  obtain ⟨rfl, rfl, rfl⟩ : i.version = v ∧ i.row = row ∧ s.docAt i.version i.row = value := by
    simpa using hvalue
  have hmem : i ∈ s.immediateSaves.filter (·.phase = .dispatched) := by simp [hfilter]
  obtain ⟨hi, hphase⟩ := List.mem_filter.1 hmem
  refine ⟨i, hi, by simpa using hphase, rfl, rfl, rfl, fun phase hne => ?_⟩
  have hnodup : ((i :: others).map (·.version)).Nodup := by
    rw [← hfilter]
    exact hs.immediate_nodup.sublist (List.filter_sublist.map _)
  rw [dispatchedTasks, dispatched_setImmediatePhase s _ hne, hfilter,
    List.filter_cons_of_neg (by simp), List.filter_eq_self.2]
  · exact hrest.symm
  · intro j hj
    have hnotin := (List.nodup_cons.1 hnodup).1
    have hjv : j.version ≠ i.version := by
      intro h
      exact hnotin (List.mem_map.2 ⟨j, hj, h⟩)
    simpa using hjv


/-! ### Storage operations -/

theorem Stored.write {r : String} {v x : Nat} (h : s.Stored r v) (hs : s.Ordered)
    (hx : x ≤ s.pendingVersion) {f : Doc}
    (hf : f r = s.storage r ∨ f r = upsertRow (s.storage r) (s.docAt x r)) :
    Stored { s with storage := f } r v := by
  rcases hf with hf | hf
  · obtain ⟨u, hvu, hu, hr⟩ := h
    exact ⟨u, hvu, hu, hf.trans hr⟩
  · obtain ⟨u, hvu, -, hu, hr⟩ := h.upsert hs hx
    exact ⟨u, hvu, hu, hf.trans hr⟩

theorem ordered_writeRow (hs : s.Ordered) (row : String) {x : Nat} (hx : x ≤ s.pendingVersion) :
    (s.writeRow row (s.docAt x row)).Ordered := by
  have hwrite : ∀ {r v}, s.Stored r v → (s.writeRow row (s.docAt x row)).Stored r v := by
    intro r v h
    refine h.write hs hx ?_
    by_cases hr : r = row
    · subst hr
      exact .inr (if_pos rfl)
    · exact .inl (if_neg hr)
  exact { hs with
    pending_queueable := fun p hp => { hs.pending_queueable p hp with }
    holds_saved := fun r => hwrite (hs.holds_saved r)
    holds_written := fun v hv r => hwrite (hs.holds_written v hv r) }

/-- The snapshot at the head of the queue is the one in flight. -/
theorem headSnapshot (hs : s.Ordered) {data : Doc} {rest : List StorageOp} {w : SnapshotWrite}
    (hqueue : s.storageQueue = .snapshot data :: rest) (hw : s.saveInFlight = some w) :
    w.phase = .dispatched ∧ data = w.data ∧ rest.filterMap snapshotOp? = [] := by
  have hops := hs.snapshot_ops
  rw [hqueue, dispatchedData, hw] at hops
  replace hops : data :: rest.filterMap snapshotOp? =
    if w.phase = .dispatched then [w.data] else [] := hops
  by_cases hphase : w.phase = .dispatched
  · rw [if_pos hphase] at hops
    exact ⟨hphase, (List.cons.inj hops).1, (List.cons.inj hops).2⟩
  · rw [if_neg hphase] at hops
    cases hops

theorem ordered_writeSnapshot (hs : s.Ordered) {rest : List StorageOp} {w : SnapshotWrite}
    (hqueue : s.storageQueue = .snapshot w.data :: rest) (hw : s.saveInFlight = some w) :
    (writeSnapshot { s with storageQueue := rest } w w.data).Ordered := by
  obtain ⟨hphase, -, hrest⟩ := headSnapshot hs hqueue hw
  have htarget := hs.inFlight_target w hw
  have hdrawn : w.version ≤ s.pendingVersion := htarget ▸ hs.target_le
  have hdata := hs.inFlight_data w hw
  have hfresh := hs.inFlight_unwritten w hw (by rw [hphase]; rfl)
  have hwrite : ∀ {r v}, s.Stored r v →
      (writeSnapshot { s with storageQueue := rest } w w.data).Stored r v := by
    intro r v h
    exact h.write hs hdrawn (.inr (by rw [hdata]; rfl))
  exact { hs with
    written_le := by
      intro v hv
      rcases List.mem_cons.1 hv with rfl | hv
      · exact le_of_eq htarget
      · exact hs.written_le v hv
    written_sorted := List.pairwise_cons.2 ⟨hfresh.2, hs.written_sorted⟩
    pending_queueable := by
      intro p hp
      have hq := hs.pending_queueable p hp
      have hlt := hq.target_lt (by simp [hw])
      refine ⟨⟨hq.unwritten.1, fun x hx => ?_⟩, hq.target_le, fun _ => hlt, hq.drawn⟩
      rcases List.mem_cons.1 hx with rfl | hx
      · rw [htarget]
        exact hlt
      · exact hq.unwritten.2 x hx
    inFlight_target := fun w' hw' => by
      obtain rfl := Option.some.inj hw'
      exact htarget
    inFlight_data := fun w' hw' => by
      obtain rfl := Option.some.inj hw'
      exact hdata
    inFlight_unwritten := fun w' hw' h => by
      obtain rfl := Option.some.inj hw'
      cases h
    inFlight_landed := fun w' hw' _ => by
      obtain rfl := Option.some.inj hw'
      exact List.mem_cons_self
    snapshot_ops := hrest
    task_ops := by
      have htasks := hs.task_ops
      rwa [hqueue] at htasks
    owner := fun _ => hs.owner (by simp [hw])
    holds_saved := fun r => hwrite (hs.holds_saved r)
    holds_written := by
      intro v hv r
      rcases List.mem_cons.1 hv with rfl | hv
      · obtain ⟨u, -, hvu, hu, hr⟩ := (hs.holds_saved r).upsert hs hdrawn
        refine ⟨u, hvu, hu, ?_⟩
        show upsertRow (s.storage r) (w.data r) = s.docAt u r
        rw [hdata]
        exact hr
      · exact hwrite (hs.holds_written v hv r) }

theorem ordered_completeStorageOp (hs : s.Ordered) {ok : Bool} {t : State}
    (h : s.completeStorageOp ok = some t) : t.Ordered := by
  rcases completeStorageOp_cases h with ⟨v, row, value, rest, hqueue, h⟩ | ⟨data, rest, w, hqueue, hw, h⟩
  · obtain ⟨i, hi, hphase, rfl, rfl, rfl, hrest⟩ := headTask hs hqueue
    have hrunning : ∀ j ∈ s.immediateSaves, j.version = i.version → j.inFlight = true := by
      intro j hj hv
      obtain rfl := eq_of_version_eq hs hj hi hv
      rw [ImmediateSave.inFlight, hphase]
    have hsnapshots : rest.filterMap snapshotOp? = s.storageQueue.filterMap snapshotOp? := by
      rw [hqueue]
      rfl
    rcases h with rfl | rfl
    · have hwritten := ordered_writeRow hs i.row (hs.immediate_drawn i hi)
      exact ordered_setImmediatePhase hwritten rest hrunning hsnapshots (hrest _ (by simp))
    · exact ordered_setImmediatePhase hs rest hrunning hsnapshots (hrest _ (by simp))
  · obtain ⟨hphase, rfl, hrest⟩ := headSnapshot hs hqueue hw
    rcases h with rfl | rfl
    · exact ordered_writeSnapshot hs hqueue hw
    · refine ordered_movePhase hs hw .rejected (by rw [hphase]; rfl) hrest ?_
      rw [hqueue]
      rfl

theorem queueable_of_running (hs : s.Ordered) {i : ImmediateSave} (hi : i ∈ s.immediateSaves)
    (hrun : i.inFlight = true) : s.Queueable i.version := by
  have hnewer := hs.immediate_newer i hi hrun
  have hsaved := hs.saved_le
  refine ⟨⟨by omega, fun x hx => ?_⟩, by omega, fun _ => hnewer, hs.immediate_drawn i hi⟩
  have := hs.written_le x hx
  omega

theorem ordered_catchImmediate (hs : s.Ordered) {v : Nat} {t : State}
    (h : s.catchImmediate v = some t) : t.Ordered := by
  obtain ⟨i, hi, rfl, hphase, h⟩ := catchImmediate_cases h
  have hrun : i.inFlight = true := by rw [ImmediateSave.inFlight, hphase]
  have hhandled := ordered_handleImmediate hs hi hrun (by simp [hphase]) .caught (by simp)
  have hcaught : Ordered { s.setImmediatePhase i.version .caught with persistenceFailure := true } :=
    { hhandled with
      pending_queueable := fun p hp => { hhandled.pending_queueable p hp with } }
  rcases h with ⟨-, rfl⟩ | ⟨hlast, rfl⟩
  · exact hcaught
  · exact ordered_enqueue hcaught (hs.immediate_data i hi)
      { queueable_of_running hs hi hrun with } hlast

theorem ordered_finallyImmediate (hs : s.Ordered) {v : Nat} {t : State}
    (h : s.finallyImmediate v = some t) : t.Ordered := by
  obtain ⟨i, hi, rfl, ⟨hphase, rfl⟩ | ⟨hphase, rfl⟩⟩ := finallyImmediate_cases h
  · exact ordered_handleImmediate hs hi (by rw [ImmediateSave.inFlight, hphase]) (by simp [hphase])
      .doneFulfilled (by simp)
  · exact ordered_handleImmediate hs hi (by rw [ImmediateSave.inFlight, hphase]) (by simp [hphase])
      .doneRejected (by simp)

/-! ### Steps -/

theorem ordered_trackImmediateSave (hs : s.Ordered) (row : String)
    (hnew : ∀ i ∈ s.immediateSaves, i.version < s.pendingVersion)
    (htarget : s.lastTarget < s.pendingVersion) : (s.trackImmediateSave row).Ordered := by
  have hmem : ∀ {i : ImmediateSave},
      i ∈ s.immediateSaves ++ [⟨s.pendingVersion, row, s.doc, .dispatched⟩] →
      i ∈ s.immediateSaves ∨ i = ⟨s.pendingVersion, row, s.doc, .dispatched⟩ := by
    intro i hi
    simpa using hi
  refine { hs with
    pending_queueable := fun p hp => { hs.pending_queueable p hp with }
    immediate_nodup := ?_, immediate_drawn := ?_, immediate_data := ?_, immediate_newer := ?_
    snapshot_ops := ?_, task_ops := ?_ }
  · show ((s.immediateSaves ++ [_]).map _).Nodup
    rw [List.map_append, List.nodup_append]
    refine ⟨hs.immediate_nodup, by simp, ?_⟩
    rintro v hv w hw rfl
    obtain ⟨i, hi, rfl⟩ := List.mem_map.1 hv
    have hlt := hnew i hi
    have heq : i.version = s.pendingVersion := by simpa using hw
    omega
  · intro i hi
    rcases hmem hi with hi | rfl
    · exact hs.immediate_drawn i hi
    · exact le_refl _
  · intro i hi
    rcases hmem hi with hi | rfl
    · exact hs.immediate_data i hi
    · exact hs.doc_eq
  · intro i hi hrun
    rcases hmem hi with hi | rfl
    · exact hs.immediate_newer i hi hrun
    · exact htarget
  · show (s.storageQueue ++ [_]).filterMap _ = s.dispatchedData
    rw [List.filterMap_append, hs.snapshot_ops]
    simp [snapshotOp?]
  · show (s.storageQueue ++ [_]).filterMap _ =
      ((s.immediateSaves ++ [_]).filter _).map fun (i : ImmediateSave) => (i.version, i.row, s.docAt i.version i.row)
    rw [List.filterMap_append, List.filter_append, List.map_append, hs.task_ops, dispatchedTasks]
    simp [taskOp?, ← hs.doc_eq]

theorem ordered_debouncedSave (hs : s.Ordered) {rows : List String}
    (hcap : ∀ r ∈ rows, (s.doc r).rev < maxSyncRevision) :
    (s.applyEdit rows).debouncedSave.Ordered := by
  have hbegun := ordered_beginEdit hs hcap
  exact ordered_enqueue hbegun hbegun.doc_eq (queueable_beginEdit hs rows) fun p hp =>
    Nat.le_succ_of_le (hs.pending_queueable p hp).drawn

theorem ordered_persistTask (hs : s.Ordered) {row : String} (incremental : Bool)
    (hcap : (s.doc row).rev < maxSyncRevision) :
    ((s.applyEdit [row]).persistTask row incremental).Ordered := by
  have hcap : ∀ r ∈ [row], (s.doc r).rev < maxSyncRevision := by simpa using hcap
  rw [persistTask]
  split
  · exact ordered_trackImmediateSave (ordered_beginEdit hs hcap) row
      (fun i hi => Nat.lt_succ_of_le (hs.immediate_drawn i hi)) (Nat.lt_succ_of_le hs.target_le)
  · exact ordered_debouncedSave hs hcap

theorem ordered_flushLoop (hs : s.Ordered) {i : Nat} {c : FlushCaller}
    (hc : s.callers[i]? = some c) (hpc : c.pc ≠ .awaitSave) : (s.flushLoop i).Ordered := by
  have hset : ∀ {pc}, (∀ v a ok, pc ≠ .afterSave v a ok) → (s.setPc i pc).Ordered := by
    intro pc hnew
    refine ordered_setPc hs (fun b hb => ?_) (fun v a ok h => absurd h (hnew v a ok))
    obtain rfl := Option.some.inj (hc.symm.trans hb)
    exact hpc
  rcases flushLoop_cases s i with ⟨_, -, h⟩ | ⟨_, -, h⟩ | ⟨-, h⟩ | ⟨front, p, himm, hfree, hpending, h⟩
  · rw [h]
    exact hset (by simp)
  · rw [h]
    exact hset (by simp)
  · rw [h]
    exact hset (by simp)
  · rcases h with hsaved | h
    · have hfresh := (hs.pending_queueable p (by simp [hpending])).unwritten.1
      omega
    · rw [h]
      exact ordered_beginWrite hs hpending hfree himm hc

theorem ordered_resume (hs : s.Ordered) {i : Nat} {t : State} (h : s.resume i = some t) :
    t.Ordered := by
  obtain ⟨c, hc, hpc, h⟩ := resume_cases h
  have hold : ∀ b, s.callers[i]? = some b → b.pc ≠ .awaitSave := by
    intro b hb
    obtain rfl := Option.some.inj (hc.symm.trans hb)
    exact hpc
  rcases h with ⟨_, -, rfl⟩ | ⟨-, rfl⟩ | ⟨v, a, hafter, ⟨-, rfl⟩ | ⟨-, rfl⟩ | rfl⟩
  · exact ordered_setPc hs hold (by simp)
  · exact ordered_flushLoop hs hc hpc
  · exact ordered_flushLoop hs hc hpc
  · exact ordered_setPc hs hold (by simp)
  · have hv := hs.after_le c (List.mem_of_getElem? hc) v a false hafter
    exact ordered_setPc (ordered_reportFailure hs hv) hold (by simp)

theorem ordered_callFlush (hs : s.Ordered) : s.callFlush.Ordered :=
  ordered_flushLoop (ordered_addCaller hs) (List.getElem?_concat_length ..) (by simp)

end

end State

/-- No row an edit changes has used up its revisions. -/
def RevisionsLeft (s : State) : Event → Prop
  | .edit rows => ∀ r ∈ rows, (s.doc r).rev < maxSyncRevision
  | .editTask row _ => (s.doc row).rev < maxSyncRevision
  | _ => True

theorem ordered_step {s t : State} (hs : s.Ordered) {e : Event} (he : RevisionsLeft s e)
    (h : step s e = some t) : t.Ordered := by
  cases e with
  | edit rows =>
    obtain rfl := Option.some.inj h
    exact State.ordered_debouncedSave hs he
  | editTask row incremental =>
    obtain rfl := Option.some.inj h
    exact State.ordered_persistTask hs incremental he
  | flushPendingSave =>
    obtain rfl := Option.some.inj h
    exact State.ordered_callFlush hs
  | resume i => exact State.ordered_resume hs h
  | dispatchSnapshot => exact State.ordered_dispatchSnapshot hs h
  | completeStorageOp ok => exact State.ordered_completeStorageOp hs h
  | acknowledgeSave => exact State.ordered_acknowledgeSave hs h
  | finallySave => exact State.ordered_finallySave hs h
  | catchImmediate v => exact State.ordered_catchImmediate hs h
  | finallyImmediate v => exact State.ordered_finallyImmediate hs h

end Mindwtr.Store
