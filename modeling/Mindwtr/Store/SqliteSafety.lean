import Mindwtr.Lib.System
import Mindwtr.Store.SqliteAdapter

/-!
# Rows survive concurrent adapters

An upsert replaces a row by one of no lower revision and touches no other row (`upsertRow_cases`). A
delete takes the rows that the adapter knows at their stored version, and the sections of a project
among them (`Deletes`): these the adapter may never have seen, because another one has added or changed
them since. Apart from such sections, each deleted row has the version at which its adapter last read
or submitted it.
-/

namespace Mindwtr.Store

open Mindwtr.Js Mindwtr.Sync Mindwtr.Lib

/-- `NULL` is below every revision. -/
def RevLe (a b : Option Rat) : Prop := ∀ x, a = some x → ∃ y, b = some y ∧ x ≤ y

theorem RevLe.refl (a : Option Rat) : RevLe a a := fun x hx => ⟨x, hx, le_refl x⟩

theorem RevLe.trans {a b c : Option Rat} (hab : RevLe a b) (hbc : RevLe b c) : RevLe a c := by
  intro x hx
  obtain ⟨y, hy, hxy⟩ := hab x hx
  obtain ⟨z, hz, hyz⟩ := hbc y hy
  exact ⟨z, hz, le_trans hxy hyz⟩

/-- A relation that each step of a fold keeps holds between its ends. -/
theorem foldlM_rel {α β : Type} {P : β → β → Prop} {f : β → α → Option β} (hrefl : ∀ b, P b b)
    (htrans : ∀ {a b c}, P a b → P b c → P a c) {l : List α} {b c : β}
    (hstep : ∀ a ∈ l, ∀ b c, f b a = some c → P b c) (h : l.foldlM f b = some c) : P b c := by
  induction l generalizing b with
  | nil =>
    obtain rfl := Option.some.inj h
    exact hrefl _
  | cons a l ih =>
    rw [List.foldlM_cons] at h
    obtain ⟨d, hd, h⟩ := Option.bind_eq_some_iff.1 h
    exact htrans (hstep a (by simp) b d hd) (ih (fun a ha => hstep a (by simp [ha])) h)

namespace Db

/-! ### Upserts -/

theorem upsertRow_cases {db db' : Db} {table : Table} {row : SqlRow}
    (h : db.upsertRow table row = some db') :
    (db' = db ∧ ∃ stored, (db table).get? (rowKey row) = some stored ∧
      acceptsRow stored.row row = false) ∨
    ∃ rowId, db' = Function.update db table ((db table).set (rowKey row) ⟨rowId, row⟩) ∧
      ∀ stored, (db table).get? (rowKey row) = some stored →
        rowId = stored.rowId ∧ acceptsRow stored.row row = true := by
  rw [upsertRow] at h
  split at h
  · cases h
  · split at h
    · rename_i hnone
      split at h
      · refine .inr ⟨_, (Option.some.inj h).symm, fun stored hstored => ?_⟩
        rw [hnone] at hstored
        cases hstored
      · cases h
    · rename_i stored hstored
      split at h
      · rename_i haccept
        split at h
        · refine .inr ⟨_, (Option.some.inj h).symm, fun other hother => ?_⟩
          obtain rfl := Option.some.inj (hstored.symm.trans hother)
          exact ⟨rfl, haccept⟩
        · cases h
      · rename_i hrefuse
        exact .inl ⟨(Option.some.inj h).symm, stored, hstored, by simpa using hrefuse⟩

theorem revLe_of_acceptsRow {stored row : SqlRow} (h : acceptsRow stored row = true) :
    RevLe (stored.num? "rev") (row.num? "rev") := by
  intro x hx
  rw [acceptsRow, hx] at h
  cases hrow : row.num? "rev" with
  | none =>
    rw [hrow] at h
    cases h
  | some y =>
    rw [hrow] at h
    exact ⟨y, rfl, of_decide_eq_true h⟩

/-- No row is lost and no revision falls. -/
def Grows (db db' : Db) : Prop := ∀ table key stored, (db table).get? key = some stored →
  ∃ stored', (db' table).get? key = some stored' ∧
    RevLe (stored.row.num? "rev") (stored'.row.num? "rev")

theorem Grows.refl (db : Db) : Grows db db := fun _ _ stored h => ⟨stored, h, .refl _⟩

theorem Grows.trans {a b c : Db} (hab : Grows a b) (hbc : Grows b c) : Grows a c := by
  intro table key stored h
  obtain ⟨stored', h', hle⟩ := hab table key stored h
  obtain ⟨stored'', h'', hle'⟩ := hbc table key stored' h'
  exact ⟨stored'', h'', hle.trans hle'⟩

theorem get?_update_set (db : Db) (table other : Table) (key k : String) (stored : StoredRow) :
    (Function.update db table ((db table).set key stored) other).get? k =
      if other = table ∧ k = key then some stored else (db other).get? k := by
  by_cases ht : other = table
  · subst ht
    by_cases hk : k = key <;> simp [hk]
  · simp [ht]

theorem grows_upsertRow {db db' : Db} {table : Table} {row : SqlRow}
    (h : db.upsertRow table row = some db') : Grows db db' := by
  rcases upsertRow_cases h with ⟨rfl, -⟩ | ⟨rowId, rfl, haccept⟩
  · exact .refl _
  · intro other key stored hstored
    rw [get?_update_set]
    by_cases hkey : other = table ∧ key = rowKey row
    · obtain ⟨rfl, rfl⟩ := hkey
      exact ⟨_, if_pos ⟨rfl, rfl⟩, revLe_of_acceptsRow (haccept stored hstored).2⟩
    · exact ⟨stored, by rw [if_neg hkey]; exact hstored, .refl _⟩

theorem get?_upsertRow_of_ne {db db' : Db} {table other : Table} {row : SqlRow} {key : String}
    (h : db.upsertRow table row = some db') (hkey : ¬ (other = table ∧ key = rowKey row)) :
    (db' other).get? key = (db other).get? key := by
  rcases upsertRow_cases h with ⟨rfl, -⟩ | ⟨rowId, rfl, -⟩
  · rfl
  · rw [get?_update_set, if_neg hkey]

end Db

section
variable {fingerprints : Option (Table → JsMap SqlRow)} {snapshot : Snapshot} {db db' : Db}

theorem grows_upsertTables (h : upsertTables fingerprints snapshot db = some db') :
    db.Grows db' := by
  refine foldlM_rel Db.Grows.refl Db.Grows.trans (fun table _ b c h => ?_) h
  exact foldlM_rel Db.Grows.refl Db.Grows.trans (fun row _ b c h => Db.grows_upsertRow h) h

/-- Rows that the snapshot does not hold are left alone. -/
theorem get?_upsertTables_of_notMem (h : upsertTables fingerprints snapshot db = some db')
    {table : Table} {key : String} (hkey : key ∉ (snapshot table).map rowKey) :
    (db' table).get? key = (db table).get? key := by
  refine foldlM_rel (P := fun b c : Db => (c table).get? key = (b table).get? key) (fun _ => rfl)
    (fun hab hbc => hbc.trans hab) (fun other _ b c h => ?_) h
  refine foldlM_rel (P := fun b c : Db => (c table).get? key = (b table).get? key) (fun _ => rfl)
    (fun hab hbc => hbc.trans hab) (fun row hrow b c h => ?_) h
  refine Db.get?_upsertRow_of_ne h ?_
  rintro ⟨rfl, rfl⟩
  exact hkey (List.mem_map_of_mem (List.mem_of_mem_filter hrow))

end

/-! ### Deletes -/

/-- What a delete leaves of a row it keeps: references may be cleared, but not those of a section. -/
structure Unchanged (table : Table) (stored stored' : StoredRow) : Prop where
  rowId_eq : stored'.rowId = stored.rowId
  rev_eq : stored'.row.num? "rev" = stored.row.num? "rev"
  updatedAt_eq : stored'.row.text? "updatedAt" = stored.row.text? "updatedAt"
  section_eq : table = .sections → stored' = stored

theorem Unchanged.refl (table : Table) (stored : StoredRow) : Unchanged table stored stored :=
  ⟨rfl, rfl, rfl, fun _ => rfl⟩

theorem Unchanged.trans {table : Table} {a b c : StoredRow} (hab : Unchanged table a b)
    (hbc : Unchanged table b c) : Unchanged table a c :=
  ⟨hbc.rowId_eq.trans hab.rowId_eq, hbc.rev_eq.trans hab.rev_eq,
    hbc.updatedAt_eq.trans hab.updatedAt_eq,
    fun h => (hbc.section_eq h).trans (hab.section_eq h)⟩

/-- Each row is kept or deleted for a reason, and no row appears. -/
structure Deletes (db db' : Db) (reason : Table → String → StoredRow → Prop) : Prop where
  kept : ∀ table key stored, (db table).get? key = some stored →
    (∃ stored', (db' table).get? key = some stored' ∧ Unchanged table stored stored') ∨
    ((db' table).get? key = none ∧ reason table key stored)
  absent : ∀ table key, (db table).get? key = none → (db' table).get? key = none

namespace Deletes

variable {db db' db'' : Db} {r r' r'' : Table → String → StoredRow → Prop}

theorem refl (db : Db) : Deletes db db r :=
  ⟨fun table _ stored h => .inl ⟨stored, h, .refl table stored⟩, fun _ _ h => h⟩

theorem trans (h : Deletes db db' r) (h' : Deletes db' db'' r')
    (hr : ∀ table key stored, r table key stored → r'' table key stored)
    (hr' : ∀ table key stored stored', (db table).get? key = some stored →
      Unchanged table stored stored' → r' table key stored' → r'' table key stored) :
    Deletes db db'' r'' := by
  refine ⟨fun table key stored hstored => ?_, fun table key hnone => h'.absent _ _ (h.absent _ _ hnone)⟩
  rcases h.kept table key stored hstored with ⟨stored', hstored', hsame⟩ | ⟨hgone, hreason⟩
  · rcases h'.kept table key stored' hstored' with ⟨stored'', hstored'', hsame'⟩ | ⟨hgone, hreason⟩
    · exact .inl ⟨stored'', hstored'', hsame.trans hsame'⟩
    · exact .inr ⟨hgone, hr' table key stored stored' hstored hsame hreason⟩
  · exact .inr ⟨h'.absent _ _ hgone, hr table key stored hreason⟩

/-- A row that is left comes from an unchanged one. -/
theorem origin (h : Deletes db db' r) {table : Table} {key : String} {stored' : StoredRow}
    (h' : (db' table).get? key = some stored') :
    ∃ stored, (db table).get? key = some stored ∧ Unchanged table stored stored' := by
  cases hstored : (db table).get? key with
  | none =>
    rw [h.absent _ _ hstored] at h'
    cases h'
  | some stored =>
    rcases h.kept table key stored hstored with ⟨other, hother, hsame⟩ | ⟨hgone, -⟩
    · obtain rfl := Option.some.inj (h'.symm.trans hother)
      exact ⟨stored, rfl, hsame⟩
    · rw [h'] at hgone
      cases hgone

end Deletes

namespace Db

theorem deletes_removeRows (table : Table) (doomed : String → StoredRow → Bool) (db : Db) :
    Deletes db (db.removeRows table doomed) fun t key stored => t = table ∧ doomed key stored = true := by
  have hget : ∀ t key, (db.removeRows table doomed t).get? key =
      if t = table then ((db t).get? key).filter fun stored => !doomed key stored
      else (db t).get? key := by
    intro t key
    by_cases ht : t = table
    · subst ht
      simp [removeRows]
    · simp [removeRows, ht]
  refine ⟨fun t key stored hstored => ?_, fun t key hnone => ?_⟩
  · rw [hget, hstored]
    by_cases hdoomed : t = table ∧ doomed key stored = true
    · exact .inr ⟨by simp [hdoomed.1, hdoomed.2, Option.filter], hdoomed⟩
    · refine .inl ⟨stored, ?_, .refl t stored⟩
      by_cases ht : t = table
      · have hkeep : doomed key stored = false := by simpa [ht] using hdoomed
        simp [ht, hkeep, Option.filter]
      · simp [ht]
  · rw [hget, hnone]
    simp

theorem num?_setNull {column : String} (h : column ≠ "rev") (row : SqlRow) :
    (row.setNull column).num? "rev" = row.num? "rev" := by
  rw [SqlRow.num?, SqlRow.num?, SqlRow.get_setNull (Ne.symm h)]

theorem text?_setNull {column other : String} (h : other ≠ column) (row : SqlRow) :
    (row.setNull column).text? other = row.text? other := by
  rw [SqlRow.text?, SqlRow.text?, SqlRow.get_setNull h]

theorem deletes_clearReferences {table : Table} {column : String} (htable : table ≠ .sections)
    (hrev : column ≠ "rev") (hupdatedAt : "updatedAt" ≠ column) (deleted : String → Bool) (db : Db) :
    Deletes db (db.clearReferences table column deleted) fun _ _ _ => False := by
  have hget : ∀ t key, (db.clearReferences table column deleted t).get? key =
      if t = table then ((db t).get? key).map fun stored =>
        if (stored.row.text? column).any deleted then { stored with row := stored.row.setNull column }
        else stored
      else (db t).get? key := by
    intro t key
    by_cases ht : t = table
    · subst ht
      simp [clearReferences]
    · simp [clearReferences, ht]
  refine ⟨fun t key stored hstored => .inl ?_, fun t key hnone => ?_⟩
  · rw [hget, hstored]
    by_cases ht : t = table
    · rw [if_pos ht]
      refine ⟨_, rfl, ?_⟩
      dsimp only
      split
      · exact ⟨rfl, num?_setNull hrev _, text?_setNull hupdatedAt _, fun h => absurd (ht ▸ h) htable⟩
      · exact .refl t stored
    · exact ⟨stored, if_neg ht, .refl t stored⟩
  · rw [hget, hnone]
    simp

theorem deletes_deleteSections (doomed : String → StoredRow → Bool) (db : Db) :
    Deletes db (db.deleteSections doomed) fun t key stored =>
      t = .sections ∧ doomed key stored = true :=
  (deletes_removeRows .sections doomed db).trans
    (deletes_clearReferences (by decide) (by decide) (by decide) _ _) (fun _ _ _ h => h)
    (fun _ _ _ _ _ _ h => h.elim)

/-- Deleting projects deletes the sections that belong to them. -/
theorem deletes_deleteProjects (doomed : String → StoredRow → Bool) (db : Db) :
    Deletes db (db.deleteProjects doomed) fun t key stored =>
      (t = .projects ∧ doomed key stored = true) ∨
      (t = .sections ∧ ∃ p project, stored.row.text? "projectId" = some p ∧
        (db .projects).get? p = some project ∧ doomed p project = true) := by
  have hprojects := deletes_removeRows .projects doomed db
  refine ((hprojects.trans (deletes_deleteSections _ _) (fun _ _ _ h => .inl h) ?_).trans
    (deletes_clearReferences (by decide) (by decide) (by decide) _ _) (fun _ _ _ h => h)
    (fun _ _ _ _ _ _ h => h.elim))
  rintro t key stored stored' - hsame ⟨rfl, hdoomed⟩
  obtain rfl := hsame.section_eq rfl
  obtain ⟨p, hp, hdeleted⟩ := (Option.any_eq_true _ _).1 hdoomed
  obtain ⟨project, hproject, hdoomed⟩ := (Option.any_eq_true _ _).1 hdeleted
  exact .inr ⟨rfl, p, project, hp, hproject, hdoomed⟩

theorem deletes_deleteAreas (doomed : String → StoredRow → Bool) (db : Db) :
    Deletes db (db.deleteAreas doomed) fun t key stored => t = .areas ∧ doomed key stored = true :=
  ((deletes_removeRows .areas doomed db).trans
    (deletes_clearReferences (by decide) (by decide) (by decide) _ _) (fun _ _ _ h => h)
    (fun _ _ _ _ _ _ h => h.elim)).trans
    (deletes_clearReferences (by decide) (by decide) (by decide) _ _) (fun _ _ _ h => h)
    (fun _ _ _ _ _ _ h => h.elim)

/-- A row goes because it is doomed or because it is a section of a doomed project. -/
def Doomed (db : Db) (table : Table) (doomed : String → StoredRow → Bool) (t : Table) (key : String)
    (stored : StoredRow) : Prop :=
  (t = table ∧ doomed key stored = true) ∨
  (table = .projects ∧ t = .sections ∧ ∃ p project, stored.row.text? "projectId" = some p ∧
    (db .projects).get? p = some project ∧ doomed p project = true)

theorem deletes_deleteRows (table : Table) (doomed : String → StoredRow → Bool) (db : Db) :
    Deletes db (db.deleteRows table doomed) (db.Doomed table doomed) := by
  have hweaken : ∀ {db' r}, Deletes db db' r →
      (∀ t key stored, r t key stored → db.Doomed table doomed t key stored) →
      Deletes db db' (db.Doomed table doomed) := by
    intro db' r h hr
    exact h.trans (.refl (r := fun _ _ _ => False) db') hr (fun _ _ _ _ _ _ h => h.elim)
  cases table with
  | areas => exact hweaken (deletes_deleteAreas doomed db) fun _ _ _ h => .inl h
  | people => exact hweaken (deletes_removeRows .people doomed db) fun _ _ _ h => .inl h
  | sections => exact hweaken (deletes_deleteSections doomed db) fun _ _ _ h => .inl h
  | tasks => exact hweaken (deletes_removeRows .tasks doomed db) fun _ _ _ h => .inl h
  | projects =>
    refine hweaken (deletes_deleteProjects doomed db) fun _ _ _ h => ?_
    rcases h with h | h
    · exact .inl h
    · exact .inr ⟨rfl, h⟩

end Db

/-! ### The deletes of a save -/

/-- A row goes because the save omits it, or because it is a section of a project that it omits. -/
def Removed (known : KnownRows) (snapshot : Snapshot) (db : Db) (table : Table) (key : String)
    (stored : StoredRow) : Prop :=
  omittedRow (known table) (snapshot table) key stored = true ∨
  (table = .sections ∧ ∃ p project, stored.row.text? "projectId" = some p ∧
    (db .projects).get? p = some project ∧
    omittedRow (known .projects) (snapshot .projects) p project = true)

theorem omittedRow_of_unchanged {known : JsMap KnownRowVersion} {rows : List SqlRow} {key : String}
    {table : Table} {stored stored' : StoredRow} (hsame : Unchanged table stored stored')
    (h : omittedRow known rows key stored' = true) : omittedRow known rows key stored = true := by
  have hversion : ∀ k : KnownRowVersion, k.unchanged stored' = k.unchanged stored := by
    intro k
    rw [KnownRowVersion.unchanged, KnownRowVersion.unchanged, hsame.rowId_eq, hsame.rev_eq,
      hsame.updatedAt_eq]
  simpa only [omittedRow, hversion] using h

theorem deletes_deleteOmitted (known : KnownRows) (snapshot : Snapshot) (db : Db) :
    Deletes db (deleteOmitted known snapshot db) (Removed known snapshot db) := by
  have hfold : ∀ (tables : List Table) (current : Db),
      Deletes db current (Removed known snapshot db) →
      Deletes db (tables.foldl (syncIds known snapshot) current) (Removed known snapshot db) := by
    intro tables
    induction tables with
    | nil => exact fun _ h => h
    | cons table tables ih =>
      intro current h
      refine ih _ (h.trans (Db.deletes_deleteRows table _ current) (fun _ _ _ h => h) ?_)
      intro t key stored stored' hstored hsame hdoomed
      rcases hdoomed with ⟨rfl, homitted⟩ | ⟨rfl, rfl, p, project, hp, hproject, homitted⟩
      · exact .inl (omittedRow_of_unchanged hsame homitted)
      · obtain rfl := hsame.section_eq rfl
        obtain ⟨project', hproject', hsame'⟩ := h.origin hproject
        exact .inr ⟨rfl, p, project', hp, hproject', omittedRow_of_unchanged hsame' homitted⟩
  exact hfold deleteOrder db (.refl db)

/-! ### Steps -/

section
variable {s t : SqliteState}

/-- Every row an adapter knows it has read or submitted at that version. -/
def KnownSeen (s : SqliteState) : Prop := ∀ a table key known,
  ((s.adapters a).knownRows table).get? key = some known →
    s.seen a table key = some (known.rev, known.updatedAt)

theorem knownSeen_init (db : Db) (rejects : Nat → Bool) : KnownSeen (.init db rejects) := by
  intro a table key known h
  cases h

/-- A step that gives an adapter new knowledge records it. -/
theorem KnownSeen.see (hs : KnownSeen s) {u : SqliteState} (a : Nat) (adapter : Adapter)
    (versions : KnownRows) (hseen : u.seen = s.seen)
    (hadapters : u.adapters = Function.update s.adapters a adapter)
    (hknown : ∀ table key known, (adapter.knownRows table).get? key = some known →
      (versions table).get? key = some known ∨
      ((versions table).get? key = none ∧ ((s.adapters a).knownRows table).get? key = some known)) :
    KnownSeen (u.see a versions) := by
  intro b table key known h
  replace h : ((u.adapters b).knownRows table).get? key = some known := h
  rw [hadapters] at h
  by_cases hb : b = a
  · subst hb
    rw [Function.update_self] at h
    show Function.update u.seen b _ b table key = _
    rw [Function.update_self]
    rcases hknown table key known h with hv | ⟨hv, hold⟩
    · simp only [hv]
    · simp only [hv]
      rw [hseen]
      exact hs b table key known hold
  · rw [Function.update_of_ne hb] at h
    show Function.update u.seen a _ b table key = _
    rw [Function.update_of_ne hb, hseen]
    exact hs b table key known h

/-- A step that leaves what the adapter knows. -/
theorem KnownSeen.setAdapter (hs : KnownSeen s) (a : Nat) {adapter : Adapter}
    (hknown : adapter.knownRows = (s.adapters a).knownRows) : KnownSeen (s.setAdapter a adapter) := by
  intro b table key known h
  by_cases hb : b = a
  · subst hb
    simp only [SqliteState.setAdapter, Function.update_self, hknown] at h
    exact hs b table key known h
  · simp only [SqliteState.setAdapter, Function.update_of_ne hb] at h
    exact hs b table key known h

theorem knownSeen_finishRead (hs : KnownSeen s) {a : Nat} (h : s.finishRead a = some t) :
    KnownSeen t := by
  rw [SqliteState.finishRead] at h
  split at h
  · cases h
  · split at h
    · cases h
    · simp only at h
      split at h
      · obtain rfl := Option.some.inj h
        exact hs.setAdapter a rfl
      · obtain rfl := Option.some.inj h
        exact hs.see a _ _ rfl rfl fun _ _ _ h => .inl h

theorem knownSeen_saveTask (hs : KnownSeen s) (a : Nat) (task : SqlRow)
    (interrupted begun quiet : Bool) : KnownSeen (s.saveTask a task interrupted begun quiet) := by
  have hfailed : KnownSeen (s.setAdapter a { s.adapters a with lastSavedFingerprints := none }) :=
    hs.setAdapter a rfl
  rw [SqliteState.saveTask]
  cases interrupted with
  | true =>
    cases begun with
    | true => exact hfailed
    | false => exact hs
  | false =>
    simp only [Bool.false_eq_true, if_false]
    split
    · exact hfailed
    · rename_i db hdb
      refine hs.see a _ _ rfl rfl ?_
      intro table key known h
      replace h : (Function.update (s.adapters a).knownRows .tasks _ table).get? key = some known := h
      by_cases htable : table = .tasks
      · subst htable
        rw [Function.update_self] at h ⊢
        cases hsaved : ((db .tasks).get? (rowKey task)).map knownRowVersionFromRow with
        | none =>
          simp only [hsaved] at h ⊢
          exact .inr ⟨rfl, h⟩
        | some version =>
          simp only [hsaved, JsMap.get?_set] at h ⊢
          by_cases hkey : key = rowKey task
          · rw [if_pos hkey] at h ⊢
            exact .inl h
          · rw [if_neg hkey] at h ⊢
            exact .inr ⟨rfl, h⟩
      · rw [Function.update_of_ne htable] at h ⊢
        exact .inr ⟨rfl, h⟩

theorem saveTask_cases (s : SqliteState) (a : Nat) (task : SqlRow) (interrupted begun quiet : Bool) :
    ((interrupted = true ∨ saveTaskTransaction (s.adapters a) (s.dataVersion a) task s.db = none) ∧
      (s.saveTask a task interrupted begun quiet).db = s.db) ∨
    ∃ db, interrupted = false ∧
      saveTaskTransaction (s.adapters a) (s.dataVersion a) task s.db = some db ∧
      (s.saveTask a task interrupted begun quiet).db = db := by
  rw [SqliteState.saveTask]
  cases interrupted with
  | true =>
    refine .inl ⟨.inl rfl, ?_⟩
    cases begun <;> rfl
  | false =>
    cases h : saveTaskTransaction (s.adapters a) (s.dataVersion a) task s.db with
    | none => exact .inl ⟨.inr rfl, rfl⟩
    | some db => exact .inr ⟨db, rfl, rfl, rfl⟩

theorem saveTaskTransaction_eq_some {a : Adapter} {epoch : Nat} {task : SqlRow} {db db' : Db}
    (h : saveTaskTransaction a epoch task db = some db') : db.upsertRow .tasks task = some db' := by
  rw [saveTaskTransaction] at h
  split at h
  · cases h
  · exact h

/-- The versions a save has submitted, by table. -/
def submittedBy (s : SqliteState) (a : Nat) (snapshot : Snapshot) : KnownRows := fun table =>
  submittedVersions ((s.adapters a).knownRows table) (snapshot table)

/-- The version `a` last read or submitted of a row, once this save has submitted its own. -/
def lastVersion (s : SqliteState) (a : Nat) (snapshot : Snapshot) (table : Table) (key : String) :
    Option (Option Rat × Option String) :=
  (s.see a (submittedBy s a snapshot)).seen a table key

theorem revLe_deleteOmitted {known : KnownRows} {snapshot : Snapshot} {db upserted : Db}
    (hgrows : db.Grows upserted) {table : Table} {key : String} {stored stored' : StoredRow}
    (hstored : (db table).get? key = some stored)
    (hstored' : (deleteOmitted known snapshot upserted table).get? key = some stored') :
    RevLe (stored.row.num? "rev") (stored'.row.num? "rev") := by
  obtain ⟨middle, hmiddle, hle⟩ := hgrows table key stored hstored
  obtain ⟨origin, horigin, hsame⟩ := (deletes_deleteOmitted known snapshot upserted).origin hstored'
  obtain rfl := Option.some.inj (hmiddle.symm.trans horigin)
  rw [hsame.rev_eq]
  exact hle

theorem version_of_unchanged {known : KnownRowVersion} {stored : StoredRow}
    (h : known.unchanged stored = true) : (known.rev, known.updatedAt) = rowVersion stored.row := by
  simp only [KnownRowVersion.unchanged, Bool.and_eq_true, beq_iff_eq] at h
  rw [h.1.2, h.2, rowVersion]

/-- A row that is omitted keeps the version last seen. -/
theorem lastVersion_of_omitted (hs : KnownSeen s) {a : Nat} {snapshot : Snapshot} {table : Table}
    {key : String} {stored : StoredRow}
    (h : omittedRow ((s.adapters a).knownRows table) (snapshot table) key stored = true) :
    lastVersion s a snapshot table key = some (rowVersion stored.row) := by
  simp only [omittedRow, Bool.and_eq_true, decide_eq_true_eq] at h
  obtain ⟨hnot, hknown⟩ := h
  obtain ⟨known, hknown, hunchanged⟩ := (Option.any_eq_true _ _).1 hknown
  have hnone : (submittedBy s a snapshot table).get? key = none := by
    cases hget : (submittedBy s a snapshot table).get? key with
    | none => rfl
    | some version =>
      rcases JsMap.mem_foldl_set _ _ (JsMap.mem_of_find hget) with hmem | hmem
      · cases hmem
      · obtain ⟨row, hrow, heq⟩ := List.mem_map.1 hmem
        have hkey : rowKey row = key := congrArg Prod.fst heq
        exact absurd (List.mem_map.2 ⟨row, hrow, hkey⟩) hnot
  show Function.update s.seen a _ a table key = _
  rw [Function.update_self]
  simp only [hnone]
  rw [hs a table key known hknown, version_of_unchanged hunchanged]

theorem mem_upsertOrder (table : Table) : table ∈ upsertOrder := by cases table <;> decide

variable [Runtime]

theorem knownSeen_saveData (hs : KnownSeen s) (a : Nat) (snapshot : Snapshot) (now : Int)
    (interrupted quiet : Bool) : KnownSeen (s.saveData a snapshot now interrupted quiet) := by
  have hfailed : KnownSeen (s.setAdapter a { s.adapters a with lastSavedFingerprints := none }) :=
    hs.setAdapter a rfl
  rw [SqliteState.saveData]
  cases interrupted with
  | true => exact hfailed
  | false =>
    simp only [Bool.false_eq_true, if_false]
    split
    · exact hfailed
    · exact hs.see a _ _ rfl rfl fun _ _ _ h => .inl h

theorem knownSeen_step (hs : KnownSeen s) {e : SqliteEvent} (h : sqliteStep s e = some t) :
    KnownSeen t := by
  cases e with
  | startRead a =>
    obtain rfl := Option.some.inj h
    exact hs.setAdapter a rfl
  | readPage a table =>
    replace h : s.readPage a table = some t := h
    rw [SqliteState.readPage] at h
    split at h
    · cases h
    · obtain rfl := Option.some.inj h
      exact hs.setAdapter a rfl
  | finishRead a => exact knownSeen_finishRead hs h
  | saveTask a task interrupted begun quiet =>
    obtain rfl := Option.some.inj h
    exact knownSeen_saveTask hs a task interrupted begun quiet
  | saveData a snapshot now interrupted quiet =>
    obtain rfl := Option.some.inj h
    exact knownSeen_saveData hs a snapshot now interrupted quiet

theorem saveData_cases (s : SqliteState) (a : Nat) (snapshot : Snapshot) (now : Int)
    (interrupted quiet : Bool) :
    ((interrupted = true ∨
        saveDataTransaction (s.adapters a) (s.dataVersion a) snapshot now s.db = none) ∧
      (s.saveData a snapshot now interrupted quiet).db = s.db) ∨
    ∃ db, interrupted = false ∧
      saveDataTransaction (s.adapters a) (s.dataVersion a) snapshot now s.db = some db ∧
      (s.saveData a snapshot now interrupted quiet).db = db ∧
      (s.saveData a snapshot now interrupted quiet).seen =
        (s.see a (submittedBy s a snapshot)).seen := by
  rw [SqliteState.saveData]
  cases interrupted with
  | true => exact .inl ⟨.inl rfl, rfl⟩
  | false =>
    cases h : saveDataTransaction (s.adapters a) (s.dataVersion a) snapshot now s.db with
    | none => exact .inl ⟨.inr rfl, rfl⟩
    | some db =>
      exact .inr ⟨db, rfl, rfl, rfl, rfl⟩

theorem saveDataTransaction_eq_some {a : Adapter} {epoch : Nat} {snapshot : Snapshot} {now : Int}
    {db db' : Db} (h : saveDataTransaction a epoch snapshot now db = some db') :
    (isEmptySnapshot snapshot = true → emptySnapshotCanPrune a.knownRows now db = true) ∧
    ∃ upserted, upsertTables a.lastSavedFingerprints snapshot db = some upserted ∧
      db' = deleteOmitted a.knownRows snapshot upserted := by
  rw [saveDataTransaction] at h
  split at h
  · cases h
  · simp only at h
    split at h
    · cases h
    · rename_i hempty
      obtain ⟨upserted, hupserted, h⟩ := Option.bind_eq_some_iff.1 h
      refine ⟨fun he => ?_, upserted, hupserted, (Option.some.inj h).symm⟩
      simpa [he] using hempty

/-! ### The guarantees -/

/-- Where a save deletes a project, the adapter last read or submitted each section then stored under
it as it is stored. -/
def SectionsSeen (s : SqliteState) : SqliteEvent → Prop
  | .saveData a snapshot _ false _ =>
    ∀ upserted, upsertTables (s.adapters a).lastSavedFingerprints snapshot s.db = some upserted →
      ∀ key stored p project, (upserted .sections).get? key = some stored →
        stored.row.text? "projectId" = some p → (upserted .projects).get? p = some project →
        omittedRow ((s.adapters a).knownRows .projects) (snapshot .projects) p project = true →
        lastVersion s a snapshot .sections key = some (rowVersion stored.row)
  | _ => True

/-- The call does not commit. -/
def CallFails (s : SqliteState) : SqliteEvent → Prop
  | .saveTask a task interrupted _ _ =>
    interrupted = true ∨ saveTaskTransaction (s.adapters a) (s.dataVersion a) task s.db = none
  | .saveData a snapshot now interrupted _ =>
    interrupted = true ∨ saveDataTransaction (s.adapters a) (s.dataVersion a) snapshot now s.db = none
  | _ => True

theorem db_eq_of_callFails {e : SqliteEvent} (he : CallFails s e) (h : sqliteStep s e = some t) :
    t.db = s.db := by
  cases e with
  | startRead a =>
    obtain rfl := Option.some.inj h
    rfl
  | readPage a table =>
    replace h : s.readPage a table = some t := h
    rw [SqliteState.readPage] at h
    split at h
    · cases h
    · obtain rfl := Option.some.inj h
      rfl
  | finishRead a =>
    replace h : s.finishRead a = some t := h
    rw [SqliteState.finishRead] at h
    split at h
    · cases h
    · split at h
      · cases h
      · simp only at h
        split at h <;> (obtain rfl := Option.some.inj h; rfl)
  | saveTask a task interrupted begun quiet =>
    obtain rfl := Option.some.inj h
    rcases saveTask_cases s a task interrupted begun quiet with ⟨-, hdb⟩ | ⟨db, hrun, hdb, -⟩
    · exact hdb
    · rcases he with he | he
      · rw [he] at hrun
        cases hrun
      · rw [he] at hdb
        cases hdb
  | saveData a snapshot now interrupted quiet =>
    obtain rfl := Option.some.inj h
    rcases saveData_cases s a snapshot now interrupted quiet with ⟨-, hdb⟩ | ⟨db, hrun, hdb, -⟩
    · exact hdb
    · rcases he with he | he
      · rw [he] at hrun
        cases hrun
      · rw [he] at hdb
        cases hdb

/-- While a row exists its revision does not fall. -/
theorem rev_step {e : SqliteEvent} (h : sqliteStep s e = some t) {table : Table} {key : String}
    {stored stored' : StoredRow} (hstored : (s.db table).get? key = some stored)
    (hstored' : (t.db table).get? key = some stored') :
    RevLe (stored.row.num? "rev") (stored'.row.num? "rev") := by
  have hsame : t.db = s.db → RevLe (stored.row.num? "rev") (stored'.row.num? "rev") := by
    intro hdb
    rw [hdb] at hstored'
    obtain rfl := Option.some.inj (hstored.symm.trans hstored')
    exact .refl _
  cases e with
  | startRead a => exact hsame (db_eq_of_callFails (e := .startRead a) trivial h)
  | readPage a table => exact hsame (db_eq_of_callFails (e := .readPage a table) trivial h)
  | finishRead a => exact hsame (db_eq_of_callFails (e := .finishRead a) trivial h)
  | saveTask a task interrupted begun quiet =>
    obtain rfl := Option.some.inj h
    rcases saveTask_cases s a task interrupted begun quiet with ⟨-, hdb⟩ | ⟨db, -, hdb, heq⟩
    · exact hsame hdb
    · rw [heq] at hstored'
      obtain ⟨other, hother, hle⟩ :=
        Db.grows_upsertRow (saveTaskTransaction_eq_some hdb) table key stored hstored
      obtain rfl := Option.some.inj (hother.symm.trans hstored')
      exact hle
  | saveData a snapshot now interrupted quiet =>
    obtain rfl := Option.some.inj h
    rcases saveData_cases s a snapshot now interrupted quiet with ⟨-, hdb⟩ | ⟨db, -, hdb, heq, -⟩
    · exact hsame hdb
    · obtain ⟨-, upserted, hupserted, rfl⟩ := saveDataTransaction_eq_some hdb
      rw [heq] at hstored'
      exact revLe_deleteOmitted (grows_upsertTables hupserted) hstored hstored'

/-- Only a committed save deletes rows, from what its upserts have left. -/
theorem delete_step {e : SqliteEvent} (h : sqliteStep s e = some t) {table : Table} {key : String}
    {stored : StoredRow} (hstored : (s.db table).get? key = some stored)
    (hgone : (t.db table).get? key = none) :
    ∃ a snapshot now quiet upserted stored', e = .saveData a snapshot now false quiet ∧
      upsertTables (s.adapters a).lastSavedFingerprints snapshot s.db = some upserted ∧
      (isEmptySnapshot snapshot = true → emptySnapshotCanPrune (s.adapters a).knownRows now s.db = true) ∧
      t.seen = (s.see a (submittedBy s a snapshot)).seen ∧
      (upserted table).get? key = some stored' ∧
      Removed (s.adapters a).knownRows snapshot upserted table key stored' := by
  have hsame : t.db = s.db → False := by
    intro hdb
    rw [hdb, hstored] at hgone
    cases hgone
  cases e with
  | startRead a => exact (hsame (db_eq_of_callFails (e := .startRead a) trivial h)).elim
  | readPage a table => exact (hsame (db_eq_of_callFails (e := .readPage a table) trivial h)).elim
  | finishRead a => exact (hsame (db_eq_of_callFails (e := .finishRead a) trivial h)).elim
  | saveTask a task interrupted begun quiet =>
    obtain rfl := Option.some.inj h
    rcases saveTask_cases s a task interrupted begun quiet with ⟨-, hdb⟩ | ⟨db, -, hdb, heq⟩
    · exact (hsame hdb).elim
    · obtain ⟨other, hother, -⟩ :=
        Db.grows_upsertRow (saveTaskTransaction_eq_some hdb) table key stored hstored
      rw [heq, hother] at hgone
      cases hgone
  | saveData a snapshot now interrupted quiet =>
    obtain rfl := Option.some.inj h
    rcases saveData_cases s a snapshot now interrupted quiet with ⟨-, hdb⟩ | ⟨db, hrun, hdb, heq, hseen⟩
    · exact (hsame hdb).elim
    · obtain ⟨hempty, upserted, hupserted, rfl⟩ := saveDataTransaction_eq_some hdb
      obtain ⟨stored', hstored', -⟩ := grows_upsertTables hupserted table key stored hstored
      rw [heq] at hgone
      refine ⟨a, snapshot, now, quiet, upserted, stored', by rw [hrun], hupserted, hempty, hseen,
        hstored', ?_⟩
      rcases (deletes_deleteOmitted _ _ upserted).kept table key stored' hstored' with
        ⟨other, hother, -⟩ | ⟨-, hremoved⟩
      · rw [hother] at hgone
        cases hgone
      · exact hremoved

/-- Before an empty snapshot every row is an expired tombstone, and the one last seen. -/
theorem prunable_of_empty (hs : KnownSeen s) {a : Nat} {now : Int}
    (h : emptySnapshotCanPrune (s.adapters a).knownRows now s.db = true) {table : Table}
    {key : String} {stored : StoredRow} (hstored : (s.db table).get? key = some stored) :
    rowTombstoneExpired table stored.row now = true ∧
      s.seen a table key = some (rowVersion stored.row) := by
  have htable := List.all_eq_true.1 h table (mem_upsertOrder table)
  have hrow := List.all_eq_true.1 htable _ (JsMap.mem_of_find hstored)
  simp only [Bool.and_eq_true] at hrow
  obtain ⟨hknown, hexpired⟩ := hrow
  obtain ⟨known, hknown, hunchanged⟩ := (Option.any_eq_true _ _).1 hknown
  exact ⟨hexpired, by rw [hs a table key known hknown, version_of_unchanged hunchanged]⟩

/-- In every run that deletes no project over sections its adapter has not seen as they are: while a row
exists its revision does not fall; a row is deleted by a save whose adapter last read or submitted it at
the version it then has; a call that fails leaves the database; an empty snapshot deletes only expired
tombstones that its adapter last saw as they are. -/
theorem sqlite_rows_survive {db : Db} {rejects : Nat → Bool} {e : SqliteEvent}
    (hrun : Reaches sqliteStep SectionsSeen (SqliteState.init db rejects) s) (he : SectionsSeen s e)
    (h : sqliteStep s e = some t) :
    (∀ table key stored stored', (s.db table).get? key = some stored →
      (t.db table).get? key = some stored' →
      RevLe (stored.row.num? "rev") (stored'.row.num? "rev")) ∧
    (∀ table key stored, (s.db table).get? key = some stored → (t.db table).get? key = none →
      ∃ a snapshot now quiet upserted stored', e = .saveData a snapshot now false quiet ∧
        upsertTables (s.adapters a).lastSavedFingerprints snapshot s.db = some upserted ∧
        (upserted table).get? key = some stored' ∧
        t.seen a table key = some (rowVersion stored'.row)) ∧
    (CallFails s e → t.db = s.db) ∧
    (∀ a snapshot now interrupted quiet, e = .saveData a snapshot now interrupted quiet →
      isEmptySnapshot snapshot = true → ∀ table key stored, (s.db table).get? key = some stored →
      (t.db table).get? key = none →
      rowTombstoneExpired table stored.row now = true ∧
        s.seen a table key = some (rowVersion stored.row)) := by
  have hs : KnownSeen s := hrun.invariant (knownSeen_init db rejects)
    fun _ _ _ hs _ h => knownSeen_step hs h
  refine ⟨fun _ _ _ _ hstored hstored' => rev_step h hstored hstored', ?_,
    fun hfails => db_eq_of_callFails hfails h, ?_⟩
  · intro table key stored hstored hgone
    obtain ⟨a, snapshot, now, quiet, upserted, stored', rfl, hupserted, -, hseen, hstored', hremoved⟩ :=
      delete_step h hstored hgone
    refine ⟨a, snapshot, now, quiet, upserted, stored', rfl, hupserted, hstored', ?_⟩
    have hlast : t.seen a table key = lastVersion s a snapshot table key := by rw [hseen, lastVersion]
    rw [hlast]
    rcases hremoved with homitted | ⟨rfl, p, project, hp, hproject, homitted⟩
    · exact lastVersion_of_omitted hs homitted
    · exact he upserted hupserted key stored' p project hstored' hp hproject homitted
  · rintro a snapshot now interrupted quiet rfl hempty table key stored hstored hgone
    obtain ⟨b, snapshot', now', quiet', upserted, stored', heq, -, hprune, -⟩ :=
      delete_step h hstored hgone
    cases heq
    exact prunable_of_empty hs (hprune hempty) hstored

end

/-! ### A section that nobody omitted -/

/-- A row at revision 1. -/
def plainRow (key : String) (columns : List (String × SqlValue)) : SqlRow :=
  [("id", .text key), ("rev", .num 1), ("updatedAt", .text "2026-01-01T00:00:00.000Z")] ++ columns

def readAll (a : Nat) : List SqliteEvent :=
  [.startRead a] ++ upsertOrder.map (.readPage a) ++ [.finishRead a]

def oneRow (table : Table) (row : SqlRow) : Snapshot :=
  Function.update (fun _ => []) table [row]

/-- Project `p1` alone. -/
def projectDb : Db :=
  Function.update (fun _ => JsMap.empty) .projects (JsMap.empty.set "p1" ⟨1, plainRow "p1" []⟩)

theorem sectionsSeen_readAll [Runtime] (a : Nat) {e : SqliteEvent} (he : e ∈ readAll a)
    (s : SqliteState) : SectionsSeen s e := by
  simp only [readAll, List.cons_append, List.nil_append, List.mem_cons, List.mem_append,
    List.mem_map, List.not_mem_nil, or_false] at he
  rcases he with rfl | ⟨table, -, rfl⟩ | rfl <;> trivial

/-- A project without sections that its adapter has read and then omits. -/
theorem sqlite_rows_survive_omission : ∃ s t,
    @sqliteStep isoRuntime s (.saveData 0 (oneRow .areas (plainRow "a1" [])) 0 false false) = some t ∧
    (s.db .projects).get? "p1" = some ⟨1, plainRow "p1" []⟩ ∧ (t.db .projects).get? "p1" = none ∧
    ∃ stored, t.seen 0 .projects "p1" = some (rowVersion stored) := by
  let _ := isoRuntime
  have hrun : (runEvents sqliteStep (SqliteState.init projectDb fun _ => false) (readAll 0)).any
      (fun s => (s.db .sections).entries.isEmpty &&
        decide ((s.db .projects).get? "p1" = some ⟨1, plainRow "p1" []⟩) &&
        (sqliteStep s (.saveData 0 (oneRow .areas (plainRow "a1" [])) 0 false false)).any fun t =>
          ((t.db .projects).get? "p1").isNone) = true := by
    decide +kernel
  obtain ⟨s, hs, hp⟩ := (Option.any_eq_true _ _).mp hrun
  simp only [Bool.and_eq_true, List.isEmpty_iff, decide_eq_true_eq] at hp
  obtain ⟨⟨hsections, hp1⟩, hdeleted⟩ := hp
  obtain ⟨t, ht, hgone⟩ := (Option.any_eq_true _ _).mp hdeleted
  have hgone : (t.db .projects).get? "p1" = none := Option.isNone_iff_eq_none.mp hgone
  have hreach : Reaches sqliteStep SectionsSeen (SqliteState.init projectDb fun _ => false) s :=
    reaches_of_runEvents (fun _ e _ b heq _ => sectionsSeen_readAll 0 (heq ▸ by simp) b) hs
  have hseen : SectionsSeen s (.saveData 0 (oneRow .areas (plainRow "a1" [])) 0 false false) := by
    intro upserted hupserted key stored _ _ hstored
    rw [get?_upsertTables_of_notMem hupserted (by simp [oneRow]), JsMap.get?, hsections] at hstored
    cases hstored
  obtain ⟨a, _, _, _, _, stored, heq, -, -, hlast⟩ :=
    (sqlite_rows_survive hreach hseen ht).2.1 .projects "p1" _ hp1 hgone
  cases heq
  exact ⟨s, t, ht, hp1, hgone, stored.row, hlast⟩

/-- Project `p1` with a section. -/
def projectWithSection : Snapshot :=
  Function.update (oneRow .projects (plainRow "p1" [])) .sections
    [plainRow "s1" [("projectId", .text "p1")]]

/-- The save of adapter 0 deletes section `s1`, which it has never read or submitted. -/
def deletesUnseenSection [Runtime] (e : SqliteEvent) (s : SqliteState) : Bool :=
  (sqliteStep s e).any fun t => ((s.db .sections).get? "s1").isSome &&
    ((t.db .sections).get? "s1").isNone && (t.seen 0 .sections "s1").isNone

/-- Adapter 0 reads project `p1`; adapter 1 adds section `s1` to it; adapter 0 saves a snapshot without
`p1`, which is unchanged, and the section goes with it. -/
theorem cascade_deletes_unseen_section : ∃ s e,
    Reaches (@sqliteStep isoRuntime) (fun _ _ => True)
      (SqliteState.init projectDb fun _ => false) s ∧
    @deletesUnseenSection isoRuntime e s = true := by
  let _ := isoRuntime
  have hrun : (runEvents sqliteStep (SqliteState.init projectDb fun _ => false)
      (readAll 0 ++ [.saveData 1 projectWithSection 0 false false])).any
      (deletesUnseenSection (.saveData 0 (oneRow .areas (plainRow "a1" [])) 0 false false)) = true := by
    decide +kernel
  obtain ⟨s, hs, hlost⟩ := reaches_of_any hrun
  exact ⟨s, _, hs, hlost⟩

end Mindwtr.Store
