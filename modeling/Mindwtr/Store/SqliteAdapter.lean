import Mindwtr.Store.SqlRow
import Mindwtr.Sync.Tombstones

/-!
# Adapters on one database

`SqliteAdapter`: `getData`, `saveTask` and `saveData` of any number of adapters on one database. A
write transaction is one step; `getData` reads its tables page by page, and other adapters may commit
in between. A call that fails for any reason leaves the database to the rollback; that it may is part
of the event. Each adapter carries the fingerprints of its last save, the row versions it knows, and
the change counter of its connection.

Left out: the tables `settings` and `saved_filters`, whose rows have no revision, the search index, the
statistics, and the schema migration that every call first awaits.

`seen` is history that no step reads.
-/

namespace Mindwtr.Store

open Mindwtr.Js Mindwtr.Sync

inductive Table where
  | areas
  | projects
  | people
  | sections
  | tasks
deriving DecidableEq, Repr

def Table.kind : Table → EntityTombstoneKind
  | .areas => .area
  | .projects => .project
  | .people => .person
  | .sections => .section
  | .tasks => .task

/-- The order in which `saveData` writes the tables. -/
def upsertOrder : List Table := [.areas, .projects, .people, .sections, .tasks]

/-- The order in which it deletes what the snapshot omits. -/
def deleteOrder : List Table := [.tasks, .sections, .projects, .areas, .people]

/-- The columns of a table that refer to another table. -/
def foreignKeys : Table → List (String × Table)
  | .projects => [("areaId", .areas)]
  | .sections => [("projectId", .projects)]
  | .tasks => [("projectId", .projects), ("sectionId", .sections), ("areaId", .areas)]
  | .areas | .people => []

structure StoredRow where
  rowId : Nat
  row : SqlRow
deriving DecidableEq

/-- Each table by primary key, in `rowid` order. -/
abbrev Db := Table → JsMap StoredRow

def rowKey (row : SqlRow) : String := (row.text? "id").getD ""

/-- The revision and time of a row. -/
def rowVersion (row : SqlRow) : Option Rat × Option String := (row.num? "rev", row.text? "updatedAt")

namespace Db

/-! ### Statements -/

/-- Every reference of the row names a row. -/
def referencesHold (db : Db) (table : Table) (row : SqlRow) : Bool :=
  (foreignKeys table).all fun (column, parent) =>
    (row.text? column).all fun key => ((db parent).get? key).isSome

/-- `WHERE rev IS NULL OR rev <= excluded.rev`. -/
def acceptsRow (stored excluded : SqlRow) : Bool :=
  match stored.num? "rev", excluded.num? "rev" with
  | none, _ => true
  | some a, some b => decide (a ≤ b)
  | some _, none => false

def nextRowId (rows : JsMap StoredRow) : Nat :=
  rows.entries.foldl (fun m e => max m e.2.rowId) 0 + 1

/-- `INSERT … ON CONFLICT(id) DO UPDATE`; `none` is a constraint error. -/
def upsertRow (db : Db) (table : Table) (row : SqlRow) : Option Db :=
  let put (rowId : Nat) : Option Db :=
    if db.referencesHold table row then
      some (Function.update db table ((db table).set (rowKey row) ⟨rowId, row⟩))
    else none
  -- `projectId TEXT NOT NULL`, which is checked before the conflict
  if table = .sections ∧ row.text? "projectId" = none then none
  else match (db table).get? (rowKey row) with
  | none => put (nextRowId (db table))
  | some stored => if acceptsRow stored.row row then put stored.rowId else some db

def removeRows (table : Table) (doomed : String → StoredRow → Bool) (db : Db) : Db :=
  Function.update db table ((db table).filter fun key stored => !doomed key stored)

/-- `ON DELETE SET NULL`. -/
def clearReferences (table : Table) (column : String) (deleted : String → Bool) (db : Db) : Db :=
  Function.update db table ((db table).mapValues fun stored =>
    if (stored.row.text? column).any deleted then { stored with row := stored.row.setNull column }
    else stored)

def deleteSections (doomed : String → StoredRow → Bool) (db : Db) : Db :=
  let deleted (key : String) : Bool := ((db .sections).get? key).any (doomed key)
  (db.removeRows .sections doomed).clearReferences .tasks "sectionId" deleted

/-- The sections of a deleted project go with it. -/
def deleteProjects (doomed : String → StoredRow → Bool) (db : Db) : Db :=
  let deleted (key : String) : Bool := ((db .projects).get? key).any (doomed key)
  let db := db.removeRows .projects doomed
  let db := db.deleteSections fun _ stored => (stored.row.text? "projectId").any deleted
  db.clearReferences .tasks "projectId" deleted

def deleteAreas (doomed : String → StoredRow → Bool) (db : Db) : Db :=
  let deleted (key : String) : Bool := ((db .areas).get? key).any (doomed key)
  let db := db.removeRows .areas doomed
  let db := db.clearReferences .projects "areaId" deleted
  db.clearReferences .tasks "areaId" deleted

def deleteRows (table : Table) (doomed : String → StoredRow → Bool) (db : Db) : Db :=
  match table with
  | .areas => db.deleteAreas doomed
  | .projects => db.deleteProjects doomed
  | .people => db.removeRows .people doomed
  | .sections => db.deleteSections doomed
  | .tasks => db.removeRows .tasks doomed

end Db

/-! ### What an adapter knows -/

structure KnownRowVersion where
  rowId : Option Nat
  rev : Option Rat
  updatedAt : Option String
deriving DecidableEq

abbrev KnownRows := Table → JsMap KnownRowVersion

def knownRowVersionFromRow (stored : StoredRow) : KnownRowVersion :=
  ⟨some stored.rowId, stored.row.num? "rev", stored.row.text? "updatedAt"⟩

/-- The comparison of the compare-and-swap delete. -/
def KnownRowVersion.unchanged (known : KnownRowVersion) (stored : StoredRow) : Bool :=
  (known.rowId.all fun rowId => rowId == stored.rowId) && known.rev == stored.row.num? "rev" &&
    known.updatedAt == stored.row.text? "updatedAt"

/-- The rows of a snapshot, by table. -/
abbrev Snapshot := Table → List SqlRow

/-- `getData` between its pages. -/
structure Loading where
  rows : Table → List StoredRow
  finished : Table → Bool
  beforeEpoch : Nat

structure Adapter where
  rejectConcurrentWrites : Bool
  lastSavedFingerprints : Option (Table → JsMap SqlRow)
  lastKnownRowVersions : Option KnownRows
  lastObservedExternalChangeEpoch : Option Nat
  loading : Option Loading

def Adapter.init (rejectConcurrentWrites : Bool) : Adapter :=
  ⟨rejectConcurrentWrites, none, none, none, none⟩

def Adapter.knownRows (a : Adapter) : KnownRows := a.lastKnownRowVersions.getD fun _ => JsMap.empty

def readPageSize : Nat := 1000

/-- `assertObservedSnapshotUnchanged`, with the current epoch of the connection. -/
def Adapter.observedSnapshotUnchanged (a : Adapter) (epoch : Nat) : Bool :=
  !a.rejectConcurrentWrites ||
    (a.lastKnownRowVersions.isSome && a.lastObservedExternalChangeEpoch == some epoch)

/-! ### The transaction of `saveData` -/

/-- The rows whose fingerprint is not the one of the last save. -/
def changedRows (fingerprints : Option (Table → JsMap SqlRow)) (table : Table) (rows : List SqlRow) :
    List SqlRow :=
  rows.filter fun row => decide ((fingerprints.bind fun f => (f table).get? (rowKey row)) ≠ some row)

def upsertTable (fingerprints : Option (Table → JsMap SqlRow)) (snapshot : Snapshot) (db : Db)
    (table : Table) : Option Db :=
  (changedRows fingerprints table (snapshot table)).foldlM (fun db row => db.upsertRow table row) db

def upsertTables (fingerprints : Option (Table → JsMap SqlRow)) (snapshot : Snapshot) (db : Db) :
    Option Db :=
  upsertOrder.foldlM (upsertTable fingerprints snapshot) db

/-- A row that `syncIds` deletes: known, omitted by the snapshot and unchanged. -/
def omittedRow (known : JsMap KnownRowVersion) (rows : List SqlRow) (key : String)
    (stored : StoredRow) : Bool :=
  decide (key ∉ rows.map rowKey) && (known.get? key).any (·.unchanged stored)

def syncIds (known : KnownRows) (snapshot : Snapshot) (db : Db) (table : Table) : Db :=
  db.deleteRows table (omittedRow (known table) (snapshot table))

def deleteOmitted (known : KnownRows) (snapshot : Snapshot) (db : Db) : Db :=
  deleteOrder.foldl (syncIds known snapshot) db

/-- The versions the adapter knows after it has submitted these rows. -/
def submittedVersions (previous : JsMap KnownRowVersion) (rows : List SqlRow) :
    JsMap KnownRowVersion :=
  JsMap.ofList (rows.map fun row =>
    (rowKey row, ⟨(previous.get? (rowKey row)).bind (·.rowId), row.num? "rev", row.text? "updatedAt"⟩))

section
variable [Runtime]

def cutoffMs (now : Int) : Int := now - defaultTombstoneRetentionDays * 24 * 60 * 60 * 1000

def rowTombstoneExpired (table : Table) (row : SqlRow) (now : Int) : Bool :=
  isEntityTombstoneExpired table.kind (row.text? "deletedAt") (row.text? "purgedAt") (cutoffMs now)

/-- `proveEmptySnapshotCanPruneExpiredTombstones`: every row is an expired tombstone that the adapter
knows as it is. -/
def emptySnapshotCanPrune (known : KnownRows) (now : Int) (db : Db) : Bool :=
  upsertOrder.all fun table => (db table).entries.all fun (key, stored) =>
    (((known table).get? key).any (·.unchanged stored)) && rowTombstoneExpired table stored.row now

def isEmptySnapshot (snapshot : Snapshot) : Bool := upsertOrder.all fun table => (snapshot table).isEmpty

/-- What `saveData` commits; `none` when it throws. -/
def saveDataTransaction (a : Adapter) (epoch : Nat) (snapshot : Snapshot) (now : Int) (db : Db) :
    Option Db := do
  if !a.observedSnapshotUnchanged epoch then none
  if isEmptySnapshot snapshot && !emptySnapshotCanPrune a.knownRows now db then none
  let db ← upsertTables a.lastSavedFingerprints snapshot db
  return deleteOmitted a.knownRows snapshot db

/-- What `saveTask` commits; `none` when it throws. -/
def saveTaskTransaction (a : Adapter) (epoch : Nat) (task : SqlRow) (db : Db) : Option Db := do
  if !a.observedSnapshotUnchanged epoch then none
  db.upsertRow .tasks task

end

/-! ### The system -/

structure SqliteState where
  db : Db
  adapters : Nat → Adapter
  /-- `PRAGMA data_version` of each connection. -/
  dataVersion : Nat → Nat
  /-- The version of a row when the adapter last read it or submitted it. -/
  seen : Nat → Table → String → Option (Option Rat × Option String)

/-- An empty or existing database with adapters that have read nothing yet. -/
def SqliteState.init (db : Db) (rejectConcurrentWrites : Nat → Bool) : SqliteState :=
  { db
    adapters := fun a => Adapter.init (rejectConcurrentWrites a)
    dataVersion := fun _ => 0
    seen := fun _ _ _ => none }

inductive SqliteEvent where
  | startRead (a : Nat)
  | readPage (a : Nat) (table : Table)
  | finishRead (a : Nat)
  /-- `interrupted`: a statement fails; `begun`: after `BEGIN`; `quiet`: the commit changes no page. -/
  | saveTask (a : Nat) (task : SqlRow) (interrupted begun quiet : Bool)
  | saveData (a : Nat) (snapshot : Snapshot) (now : Int) (interrupted quiet : Bool)

namespace SqliteState

def setAdapter (s : SqliteState) (a : Nat) (adapter : Adapter) : SqliteState :=
  { s with adapters := Function.update s.adapters a adapter }

/-- The other connections see that the file changed. -/
def commit (s : SqliteState) (a : Nat) (db : Db) (quiet : Bool) : SqliteState :=
  { s with
    db
    dataVersion := fun b => if b = a || quiet then s.dataVersion b else s.dataVersion b + 1 }

/-- History: `a` has read or submitted these versions. -/
def see (s : SqliteState) (a : Nat) (versions : KnownRows) : SqliteState :=
  { s with
    seen := Function.update s.seen a fun table key =>
      match (versions table).get? key with
      | some known => some (known.rev, known.updatedAt)
      | none => s.seen a table key }

def startRead (s : SqliteState) (a : Nat) : SqliteState :=
  s.setAdapter a { s.adapters a with
    loading := some ⟨fun _ => [], fun _ => false, s.dataVersion a⟩ }

/-- The next page of a table, by `rowid`. -/
def readPage (s : SqliteState) (a : Nat) (table : Table) : Option SqliteState :=
  match (s.adapters a).loading with
  | none => none
  | some loading =>
    let lastRowId := (loading.rows table).foldl (fun m stored => max m stored.rowId) 0
    let page := (((s.db table).entries.map (·.2)).filter (lastRowId < ·.rowId)).take readPageSize
    some (s.setAdapter a { s.adapters a with
      loading := some { loading with
        rows := Function.update loading.rows table (loading.rows table ++ page)
        finished := Function.update loading.finished table (page.length < readPageSize) } })

/-- All pages are read: they are the adapter's baseline, unless it must see one state and another
connection committed in between. -/
def finishRead (s : SqliteState) (a : Nat) : Option SqliteState :=
  match (s.adapters a).loading with
  | none => none
  | some loading =>
    if !upsertOrder.all loading.finished then none
    else
      let adapter := { s.adapters a with loading := none }
      if adapter.rejectConcurrentWrites && loading.beforeEpoch != s.dataVersion a then
        some (s.setAdapter a adapter)
      else
        let versions : KnownRows := fun table => JsMap.ofList
          ((loading.rows table).map fun stored => (rowKey stored.row, knownRowVersionFromRow stored))
        some ((s.setAdapter a { adapter with
          lastKnownRowVersions := some versions
          lastObservedExternalChangeEpoch :=
            if adapter.rejectConcurrentWrites then some (s.dataVersion a)
            else adapter.lastObservedExternalChangeEpoch }).see a versions)

def saveTask (s : SqliteState) (a : Nat) (task : SqlRow) (interrupted begun quiet : Bool) :
    SqliteState :=
  let adapter := s.adapters a
  let failed := s.setAdapter a { adapter with lastSavedFingerprints := none }
  if interrupted then if begun then failed else s
  else
    match saveTaskTransaction adapter (s.dataVersion a) task s.db with
    | none => failed
    | some db =>
      let saved := ((db .tasks).get? (rowKey task)).map knownRowVersionFromRow
      let known := adapter.knownRows
      let tasks := match saved with
        | some version => (known .tasks).set (rowKey task) version
        | none => known .tasks
      ((s.commit a db quiet).setAdapter a { adapter with
        lastSavedFingerprints := adapter.lastSavedFingerprints.map fun f =>
          Function.update f .tasks ((f .tasks).set (rowKey task) task)
        lastKnownRowVersions := some (Function.update known .tasks tasks) }).see a
          (Function.update (fun _ => JsMap.empty) .tasks
            (match saved with
            | some version => JsMap.empty.set (rowKey task) version
            | none => JsMap.empty))

variable [Runtime]

def saveData (s : SqliteState) (a : Nat) (snapshot : Snapshot) (now : Int)
    (interrupted quiet : Bool) : SqliteState :=
  let adapter := s.adapters a
  let failed := s.setAdapter a { adapter with lastSavedFingerprints := none }
  if interrupted then failed
  else
    match saveDataTransaction adapter (s.dataVersion a) snapshot now s.db with
    | none => failed
    | some db =>
      let versions : KnownRows := fun table =>
        submittedVersions (adapter.knownRows table) (snapshot table)
      ((s.commit a db quiet).setAdapter a { adapter with
        lastSavedFingerprints := some fun table =>
          JsMap.ofList ((snapshot table).map fun row => (rowKey row, row))
        lastKnownRowVersions := some versions }).see a versions

end SqliteState

def sqliteStep [Runtime] (s : SqliteState) : SqliteEvent → Option SqliteState
  | .startRead a => some (s.startRead a)
  | .readPage a table => s.readPage a table
  | .finishRead a => s.finishRead a
  | .saveTask a task interrupted begun quiet => some (s.saveTask a task interrupted begun quiet)
  | .saveData a snapshot now interrupted quiet => some (s.saveData a snapshot now interrupted quiet)

end Mindwtr.Store
