import Mindwtr.Desktop.Arbitration
import Mindwtr.Sync.RemotePayload

/-!
# Saving a snapshot over the shared database

`merge_data_snapshots_at` of `storage.rs` and `buildChangedEntityBaseline` of `storage-save-baseline.ts`. A window saves
its whole snapshot. With it come the rows it last observed and has changed or left out since, and the ids of all the
rows it observed: a row that is still as it was observed is compared and swapped, any other one is arbitrated, and a
row that is no longer there comes back only if its id was never observed.
-/

namespace Mindwtr.Desktop

open Mindwtr.Js Mindwtr.Sync

inductive EntityTable where
  | tasks | projects | sections | areas | people
deriving DecidableEq, Repr

structure DataSnapshot where
  entities : EntityTable → List Json
  settings : Option Json

/-- `baselineEntities` of a save. -/
structure BaselineEntities where
  changed : EntityTable → List Json
  observedEntityIds : EntityTable → List String
  settings : Option Json

/-- The row with this id; of several the last one. -/
def entityById (id : String) (entities : List Json) : Option Json :=
  entities.reverse.find? fun entity => idOf? entity == some id

def entityIds (entities : List Json) : List String := entities.filterMap idOf?

section
variable [RustRuntime]

/-- What a save makes of a row of the database. -/
def mergeCanonicalRow (incoming changedBaseline : List Json) (mergeNow : Int) (canonical : Json) : Option Json :=
  match idOf? canonical with
  | none => some canonical
  | some id =>
    let baselineMatches := entityById id changedBaseline == some canonical
    match entityById id incoming with
    | some target =>
      if baselineMatches then
        if entityRevision canonical ≤ entityRevision target then some target else some canonical
      else if incomingEntityWinsAt canonical target mergeNow then some target
      else some canonical
    | none => if baselineMatches then none else some canonical

/-- A row of the snapshot that the database does not have and the window never observed. -/
def isCreated (current changedBaseline : List Json) (observedIds : List String) (entity : Json) : Bool :=
  match idOf? entity with
  | none => false
  | some id =>
    !(entityIds current).contains id && !observedIds.contains id && (entityById id changedBaseline).isNone

def mergeEntitySnapshots (current incoming changedBaseline : List Json) (observedIds : List String)
    (mergeNow : Int) : List Json :=
  current.filterMap (mergeCanonicalRow incoming changedBaseline mergeNow) ++
    incoming.filter (isCreated current changedBaseline observedIds)

/-- The settings are swapped where the observed ones are still there; a caller without a baseline replaces them. -/
def acceptsSettings (current incoming : DataSnapshot) (baseline : Option BaselineEntities) : Bool :=
  incoming.settings.any isObjectRecord &&
    match baseline with
    | none => true
    | some baseline => baseline.settings.isSome && baseline.settings == current.settings

def mergeDataSnapshotsAt (current incoming : DataSnapshot) (baseline : Option BaselineEntities)
    (mergeNow : Int) : DataSnapshot where
  entities table := mergeEntitySnapshots (current.entities table) (incoming.entities table)
    ((baseline.map fun b => b.changed table).getD []) ((baseline.map fun b => b.observedEntityIds table).getD [])
    mergeNow
  settings :=
    if acceptsSettings current incoming baseline then incoming.settings
    else some (current.settings.getD (.obj []))

end

/-! ### The baseline -/

section
variable [Runtime]

def sameEntitySnapshot (left right : Json) : Bool :=
  isDeepJsonEqual left right || computeStableValueFingerprint left == computeStableValueFingerprint right

/-- An observed row that the snapshot changed or left out. -/
def isChangedOrOmitted (target : List Json) (entity : Json) : Bool :=
  match (idOf? entity).bind fun id => entityById id target with
  | none => true
  | some targetEntity => !sameEntitySnapshot entity targetEntity

def sameSettings : Option Json → Option Json → Bool
  | none, none => true
  | some left, some right => sameEntitySnapshot left right
  | _, _ => false

def buildChangedEntityBaseline (baseline target : DataSnapshot) : BaselineEntities where
  changed table := (baseline.entities table).filter (isChangedOrOmitted (target.entities table))
  observedEntityIds table := entityIds (baseline.entities table)
  settings := if sameSettings baseline.settings target.settings then none else baseline.settings

@[simp] theorem sameEntitySnapshot_refl (v : Json) : sameEntitySnapshot v v = true := by
  simp [sameEntitySnapshot]

@[simp] theorem sameSettings_refl (v : Option Json) : sameSettings v v = true := by
  cases v <;> simp [sameSettings]

end

/-! ### Rows by id -/

theorem idOf?_of_entityById {id : String} {entities : List Json} {entity : Json}
    (h : entityById id entities = some entity) : idOf? entity = some id := by
  have hfound := List.find?_some h
  simpa using hfound

theorem mem_of_entityById {id : String} {entities : List Json} {entity : Json}
    (h : entityById id entities = some entity) : entity ∈ entities :=
  List.mem_reverse.1 (List.mem_of_find?_eq_some h)

theorem mem_entityIds {id : String} {entities : List Json} :
    id ∈ entityIds entities ↔ ∃ entity ∈ entities, idOf? entity = some id := List.mem_filterMap

theorem entityById_eq_none {id : String} {entities : List Json} :
    entityById id entities = none ↔ id ∉ entityIds entities := by
  rw [entityById, List.find?_eq_none, mem_entityIds]
  simp

theorem eq_of_sameId {id : String} {entities : List Json} {a b : Json} (hnodup : (entityIds entities).Nodup)
    (ha : a ∈ entities) (hb : b ∈ entities) (hida : idOf? a = some id) (hidb : idOf? b = some id) : a = b := by
  induction entities with
  | nil => cases ha
  | cons entity entities ih =>
    have hrest : (entityIds entities).Nodup := by
      rw [entityIds, List.filterMap_cons] at hnodup
      split at hnodup
      · exact hnodup
      · exact (List.nodup_cons.1 hnodup).2
    -- the id of the first row is not that of a later one
    have hfirst (x : Json) (hx : x ∈ entities) (hidx : idOf? x = some id) : idOf? entity ≠ some id := by
      intro hid
      rw [entityIds, List.filterMap_cons, hid] at hnodup
      exact (List.nodup_cons.1 hnodup).1 (mem_entityIds.2 ⟨x, hx, hidx⟩)
    rcases List.mem_cons.1 ha with hfa | ha'
    · rcases List.mem_cons.1 hb with hfb | hb'
      · rw [hfa, hfb]
      · exact absurd (hfa ▸ hida) (hfirst b hb' hidb)
    · rcases List.mem_cons.1 hb with hfb | hb'
      · exact absurd (hfb ▸ hidb) (hfirst a ha' hida)
      · exact ih hrest ha' hb'

/-- Where ids are distinct, a row is the one of its id. -/
theorem entityById_of_mem {id : String} {entities : List Json} {entity : Json}
    (hnodup : (entityIds entities).Nodup) (hmem : entity ∈ entities) (hid : idOf? entity = some id) :
    entityById id entities = some entity := by
  cases hfound : entityById id entities with
  | none => exact absurd (mem_entityIds.2 ⟨entity, hmem, hid⟩) (entityById_eq_none.1 hfound)
  | some other =>
    rw [eq_of_sameId hnodup (mem_of_entityById hfound) hmem (idOf?_of_entityById hfound) hid]

theorem nodup_filterMap_of_ids {f : Json → Option Json} (hf : ∀ a b, f a = some b → idOf? b = idOf? a)
    {entities : List Json} (h : (entityIds entities).Nodup) : (entityIds (entities.filterMap f)).Nodup := by
  have hsub : (entityIds (entities.filterMap f)).Sublist (entityIds entities) := by
    induction entities with
    | nil => exact List.Sublist.slnil
    | cons entity entities ih =>
      have hrest : (entityIds entities).Nodup := by
        rw [entityIds, List.filterMap_cons] at h
        split at h
        · exact h
        · exact (List.nodup_cons.1 h).2
      cases hfe : f entity with
      | none =>
        rw [List.filterMap_cons_none hfe]
        refine (ih hrest).trans ?_
        rw [entityIds, entityIds, List.filterMap_cons]
        split
        · exact List.Sublist.refl _
        · exact List.sublist_cons_self _ _
      | some row =>
        rw [List.filterMap_cons_some hfe, entityIds, List.filterMap_cons, entityIds, List.filterMap_cons,
          hf entity row hfe]
        split
        · exact ih hrest
        · exact (ih hrest).cons_cons _
  exact hsub.nodup h

theorem entityIds_filterMap {f : Json → Option Json} {entities : List Json}
    (hf : ∀ row, ∃ next, f row = some next ∧ idOf? next = idOf? row) :
    entityIds (entities.filterMap f) = entityIds entities := by
  induction entities with
  | nil => rfl
  | cons row entities ih =>
    obtain ⟨next, hnext, hid⟩ := hf row
    rw [List.filterMap_cons_some hnext, entityIds, entityIds, List.filterMap_cons, List.filterMap_cons, hid]
    simp only [entityIds] at ih
    rw [ih]

theorem isCreated_iff {current changedBaseline : List Json} {observedIds : List String} {entity : Json} {id : String} (hid : idOf? entity = some id) :
    isCreated current changedBaseline observedIds entity = true ↔
      id ∉ entityIds current ∧ id ∉ observedIds ∧ id ∉ entityIds changedBaseline := by
  have hbaseline : entityById id changedBaseline = none ↔ id ∉ entityIds changedBaseline := entityById_eq_none
  rw [← hbaseline]
  simp [isCreated, hid, and_assoc]

/-! ### What a save does to one row -/

section
variable [RustRuntime] {current incoming changedBaseline : List Json} {observedIds : List String} {mergeNow : Int}

/-- A row keeps its id. -/
theorem idOf?_mergeCanonicalRow {canonical row : Json}
    (h : mergeCanonicalRow incoming changedBaseline mergeNow canonical = some row) : idOf? row = idOf? canonical := by
  unfold mergeCanonicalRow at h
  cases hid : idOf? canonical with
  | none =>
    rw [hid] at h
    rw [← Option.some.inj h, hid]
  | some id =>
    simp only [hid] at h
    cases htarget : entityById id incoming with
    | none =>
      simp only [htarget] at h
      split_ifs at h
      rw [← Option.some.inj h, hid]
    | some target =>
      have htid := idOf?_of_entityById htarget
      simp only [htarget] at h
      split_ifs at h <;> rw [← Option.some.inj h] <;> assumption

/-- A row goes only with a save that leaves it out and that observed it as it is. -/
theorem mergeCanonicalRow_none {canonical : Json}
    (h : mergeCanonicalRow incoming changedBaseline mergeNow canonical = none) :
    ∃ id, idOf? canonical = some id ∧ entityById id incoming = none ∧
      entityById id changedBaseline = some canonical := by
  unfold mergeCanonicalRow at h
  cases hid : idOf? canonical with
  | none => simp [hid] at h
  | some id =>
    simp only [hid] at h
    cases htarget : entityById id incoming with
    | some target =>
      simp only [htarget] at h
      split_ifs at h
    | none =>
      simp only [htarget] at h
      split_ifs at h with hmatches
      exact ⟨id, rfl, htarget, by simpa using hmatches⟩

/-- What a row is replaced by. -/
structure ReplacedBy (incoming changedBaseline : List Json) (mergeNow : Int) (id : String) (canonical row : Json) :
    Prop where
  target : entityById id incoming = some row
  swapped : (entityById id changedBaseline = some canonical ∧ entityRevision canonical ≤ entityRevision row) ∨
    (entityById id changedBaseline ≠ some canonical ∧ incomingEntityWinsAt canonical row mergeNow = true)

theorem mergeCanonicalRow_replaced {canonical row : Json}
    (h : mergeCanonicalRow incoming changedBaseline mergeNow canonical = some row) (hne : row ≠ canonical) :
    ∃ id, idOf? canonical = some id ∧ ReplacedBy incoming changedBaseline mergeNow id canonical row := by
  unfold mergeCanonicalRow at h
  cases hid : idOf? canonical with
  | none =>
    rw [hid] at h
    exact absurd (Option.some.inj h).symm hne
  | some id =>
    simp only [hid] at h
    refine ⟨id, rfl, ?_⟩
    cases htarget : entityById id incoming with
    | none =>
      simp only [htarget] at h
      split_ifs at h
      exact absurd (Option.some.inj h).symm hne
    | some target =>
      simp only [htarget] at h
      split_ifs at h with hmatches hrev hwins
      · obtain rfl := Option.some.inj h
        exact ⟨htarget, .inl ⟨by simpa using hmatches, hrev⟩⟩
      · exact absurd (Option.some.inj h).symm hne
      · obtain rfl := Option.some.inj h
        exact ⟨htarget, .inr ⟨by simpa using hmatches, hwins⟩⟩
      · exact absurd (Option.some.inj h).symm hne

theorem mergeCanonicalRow_unmatched {row : Json}
    (h : entityIds changedBaseline = []) :
    ∃ next, mergeCanonicalRow incoming changedBaseline mergeNow row = some next ∧ idOf? next = idOf? row := by
  cases hmerged : mergeCanonicalRow incoming changedBaseline mergeNow row with
  | none =>
    obtain ⟨id, -, -, hbaseline⟩ := mergeCanonicalRow_none hmerged
    have hmem := mem_entityIds.2 ⟨row, mem_of_entityById hbaseline, idOf?_of_entityById hbaseline⟩
    rw [h] at hmem
    cases hmem
  | some next => exact ⟨next, rfl, idOf?_mergeCanonicalRow hmerged⟩

/-! ### What a save does to a list -/

/-- The ids of a saved list. -/
theorem mem_entityIds_merged {id : String} :
    id ∈ entityIds (mergeEntitySnapshots current incoming changedBaseline observedIds mergeNow) ↔
      (∃ row ∈ current, idOf? row = some id ∧
        mergeCanonicalRow incoming changedBaseline mergeNow row ≠ none) ∨
      (id ∈ entityIds incoming ∧ id ∉ entityIds current ∧ id ∉ observedIds ∧ id ∉ entityIds changedBaseline) := by
  simp only [mem_entityIds, mergeEntitySnapshots, List.mem_append, List.mem_filterMap, List.mem_filter]
  constructor
  · rintro ⟨entity, ⟨canonical, hmem, hmerged⟩ | ⟨hmem, hcreated⟩, hid⟩
    · exact .inl ⟨canonical, hmem, by rw [← idOf?_mergeCanonicalRow hmerged, hid], by simp [hmerged]⟩
    · have hparts := (isCreated_iff hid).1 hcreated
      simp only [mem_entityIds] at hparts
      exact .inr ⟨⟨entity, hmem, hid⟩, hparts⟩
  · rintro (⟨row, hmem, hid, hkept⟩ | ⟨⟨entity, hmem, hid⟩, hfresh⟩)
    · obtain ⟨entity, hmerged⟩ := Option.ne_none_iff_exists'.1 hkept
      exact ⟨entity, .inl ⟨row, hmem, hmerged⟩, by rw [idOf?_mergeCanonicalRow hmerged, hid]⟩
    · refine ⟨entity, .inr ⟨hmem, (isCreated_iff hid).2 ?_⟩, hid⟩
      simpa only [mem_entityIds] using hfresh

/-- Every id occurs at most once. -/
theorem nodup_merged (hcurrent : (entityIds current).Nodup) (hincoming : (entityIds incoming).Nodup) :
    (entityIds (mergeEntitySnapshots current incoming changedBaseline observedIds mergeNow)).Nodup := by
  rw [mergeEntitySnapshots, entityIds, List.filterMap_append, List.nodup_append]
  refine ⟨nodup_filterMap_of_ids (fun _ _ h => idOf?_mergeCanonicalRow h) hcurrent, ?_, ?_⟩
  · exact ((List.filter_sublist).filterMap idOf?).nodup hincoming
  · intro id hold other hnew heq
    subst heq
    obtain ⟨entity, hentity, hid⟩ := mem_entityIds.1 hold
    obtain ⟨canonical, hmem, hmerged⟩ := List.mem_filterMap.1 hentity
    obtain ⟨created, hcreated, hcid⟩ := mem_entityIds.1 hnew
    have hfresh := (isCreated_iff hcid).1 (List.mem_filter.1 hcreated).2
    exact hfresh.1 (mem_entityIds.2 ⟨canonical, hmem, by rw [← idOf?_mergeCanonicalRow hmerged, hid]⟩)

theorem settings_isSome_merged {current incoming : DataSnapshot} {baseline : Option BaselineEntities} :
    (mergeDataSnapshotsAt current incoming baseline mergeNow).settings.isSome = true := by
  simp only [mergeDataSnapshotsAt]
  split_ifs with haccepts
  · simp only [acceptsSettings, Bool.and_eq_true] at haccepts
    obtain ⟨settings, hsettings, -⟩ := (Option.any_eq_true _ _).1 haccepts.1
    rw [hsettings]
    rfl
  · rfl

end

end Mindwtr.Desktop
