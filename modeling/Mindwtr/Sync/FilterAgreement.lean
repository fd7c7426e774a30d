import Mindwtr.Sync.SavedFilters

/-!
# Two devices agree on the saved filters

The merge of two lists of filters is read filter by filter: each id has the filter of the side that has it, or the
one that `chooseSavedFilter` takes (`get?_mergedById`). That choice does not depend on which side merges
(`chooseSavedFilter_swap`), so the two merged lists have the same filters (`mergeSavedFiltersById_swap`). Their
order may differ, because filters of one creation time and one name stay in the order they had.
-/

namespace Mindwtr.Sync

open Mindwtr.Js

/-! ### The normal form -/

def hasText (item : Json) (key : String) : Bool := (asStr? (prop (some item) key)).any fun s => !isBlank s

/-- A filter that keeps its creation time, whenever it is read. -/
def HasCreationTime (item : Json) : Prop :=
  hasText item "id" = true → hasText item "name" = true → hasText item "createdAt" = true

def AllHaveCreationTimes (value : Option Json) : Prop :=
  ∀ items, value = some (.arr items) → ∀ item ∈ items, HasCreationTime item

structure IsNormal (filter : SavedFilter) : Prop where
  id : isBlank filter.id = false
  trimId : trim filter.id = filter.id
  name : isBlank filter.name = false
  createdAt : isBlank filter.createdAt = false

/-- Normal filters, one for each id. -/
structure IsNormalList (filters : List SavedFilter) : Prop where
  nodup : (filters.map SavedFilter.id).Nodup
  normal : ∀ filter ∈ filters, IsNormal filter

theorem text_eq {item : Json} {key : String} :
    ((asStr? (prop (some item) key)).filter fun s => !isBlank s).isSome = hasText item key := by
  unfold hasText
  cases asStr? (prop (some item) key) with
  | none => rfl
  | some s => cases hs : isBlank s <;> simp [Option.filter, hs]

theorem hasText_record {filter : SavedFilter} {key s : String} (h : lookup key filter.record = some (.str s))
    (hs : isBlank s = false) : hasText (.obj filter.record) key = true := by
  simp [hasText, h, Json.asStr?, hs]

theorem lookup_record_id (filter : SavedFilter) : lookup "id" filter.record = some (.str filter.id) := by
  simp only [SavedFilter.record, lookup_fields_cons, if_true]
  rfl

theorem lookup_record_name (filter : SavedFilter) : lookup "name" filter.record = some (.str filter.name) := by
  simp only [SavedFilter.record, lookup_fields_cons, String.reduceEq, if_false, if_true]
  rfl

theorem lookup_record_createdAt (filter : SavedFilter) :
    lookup "createdAt" filter.record = some (.str filter.createdAt) := by
  simp only [SavedFilter.record, lookup_fields_cons, String.reduceEq, if_false, if_true]
  rfl

def withId (filters : List SavedFilter) (id : String) : Option SavedFilter := filters.find? fun f => f.id == id

theorem withId_some {filters : List SavedFilter} {id : String} {filter : SavedFilter}
    (h : withId filters id = some filter) : filter ∈ filters ∧ filter.id = id :=
  ⟨List.mem_of_find?_eq_some h, by simpa using List.find?_some h⟩

theorem allHaveCreationTimes_json {filters : List SavedFilter} (h : ∀ filter ∈ filters, IsNormal filter) :
    AllHaveCreationTimes (some (savedFiltersJson filters)) := by
  intro items hitems item hitem
  simp only [savedFiltersJson, Option.some.injEq, Json.arr.injEq] at hitems
  subst hitems
  obtain ⟨filter, hfilter, rfl⟩ := List.mem_map.1 hitem
  intro _ _
  exact hasText_record (lookup_record_createdAt filter) (h filter hfilter).createdAt

section
variable [Runtime]

theorem normalizeSavedFilter_isSome {now : String} {item : Json} :
    (normalizeSavedFilter now item).isSome = (hasText item "id" && hasText item "name") := by
  rw [← text_eq, ← text_eq]
  unfold normalizeSavedFilter
  dsimp only
  cases (asStr? (prop (some item) "id")).filter fun s => !isBlank s with
  | none => rfl
  | some id =>
    cases (asStr? (prop (some item) "name")).filter fun s => !isBlank s with
    | none => rfl
    | some name => rfl

/-- With a creation time of its own, a filter does not depend on the clock. -/
theorem normalizeSavedFilter_now {item : Json} (h : HasCreationTime item) (now now' : String) :
    normalizeSavedFilter now item = normalizeSavedFilter now' item := by
  unfold HasCreationTime at h
  rw [← text_eq, ← text_eq, ← text_eq] at h
  unfold normalizeSavedFilter
  dsimp only
  cases hid : (asStr? (prop (some item) "id")).filter fun s => !isBlank s with
  | none => rfl
  | some id =>
    cases hname : (asStr? (prop (some item) "name")).filter fun s => !isBlank s with
    | none => rfl
    | some name =>
      obtain ⟨createdAt, hcreated⟩ := Option.isSome_iff_exists.1 (h (by rw [hid]; rfl) (by rw [hname]; rfl))
      rw [hcreated]
      rfl

theorem isNormal_of_normalize {now : String} {item : Json} {filter : SavedFilter} (h : HasCreationTime item)
    (hfilter : normalizeSavedFilter now item = some filter) : IsNormal filter := by
  unfold HasCreationTime at h
  rw [← text_eq, ← text_eq, ← text_eq] at h
  unfold normalizeSavedFilter at hfilter
  dsimp only at hfilter
  have hblank : ∀ {key s : String}, ((asStr? (prop (some item) key)).filter fun s => !isBlank s) = some s →
      isBlank s = false := by
    intro key s hs
    simpa using (Option.filter_eq_some_iff.1 hs).2
  cases hid : (asStr? (prop (some item) "id")).filter fun s => !isBlank s with
  | none => simp [hid] at hfilter
  | some id =>
    cases hname : (asStr? (prop (some item) "name")).filter fun s => !isBlank s with
    | none => simp [hid, hname] at hfilter
    | some name =>
      obtain ⟨createdAt, hcreated⟩ := Option.isSome_iff_exists.1 (h (by rw [hid]; rfl) (by rw [hname]; rfl))
      rw [hid, hname, hcreated] at hfilter
      simp only [Option.some.injEq] at hfilter
      subst hfilter
      constructor
      · exact trim_ne_of_isBlank (hblank hid)
      · exact trim_trim id
      · exact trim_ne_of_isBlank (hblank hname)
      · exact hblank hcreated

/-! ### Lists of filters -/

theorem normalizeSavedFilters_perm (now : String) (items : List Json) :
    (normalizeSavedFilters now (some (.arr items))).Perm
      ((JsMap.ofItems SavedFilter.id (items.filterMap (normalizeSavedFilter now))).entries.map Prod.snd) :=
  List.mergeSort_perm _ _

theorem normalizeSavedFilters_perm_of_nodup {now : String} {items : List Json} {filters : List SavedFilter}
    (hitems : items.filterMap (normalizeSavedFilter now) = filters) (hids : (filters.map SavedFilter.id).Nodup) :
    (normalizeSavedFilters now (some (.arr items))).Perm filters := by
  have hnodup : ((filters.map fun filter => (filter.id, filter)).map Prod.fst).Nodup := by rwa [List.map_map]
  have hvalues : (JsMap.ofItems SavedFilter.id filters).entries.map Prod.snd = filters := by
    rw [JsMap.ofItems, JsMap.entries_ofList _ hnodup, List.map_map]
    exact List.map_id _
  have hperm := normalizeSavedFilters_perm now items
  rwa [hitems, hvalues] at hperm

theorem nodup_normalizeSavedFilters (now : String) (value : Option Json) :
    ((normalizeSavedFilters now value).map SavedFilter.id).Nodup := by
  unfold normalizeSavedFilters
  split
  · apply ((normalizeSavedFilters_perm now _).map SavedFilter.id).nodup_iff.2
    exact JsMap.nodup_values fun _ _ hk => (JsMap.mem_of_get?_ofItems hk).2
  · exact List.nodup_nil

theorem mem_normalizeSavedFilters {now : String} {value : Option Json} {filter : SavedFilter}
    (h : filter ∈ normalizeSavedFilters now value) :
    ∃ items, value = some (.arr items) ∧ ∃ item ∈ items, normalizeSavedFilter now item = some filter := by
  unfold normalizeSavedFilters at h
  split at h
  · obtain ⟨e, he, rfl⟩ := List.mem_map.1 ((normalizeSavedFilters_perm now _).mem_iff.1 h)
    have hmem := (JsMap.mem_of_get?_ofItems ((JsMap.mem_entries_iff _ e).1 he)).1
    exact ⟨_, rfl, List.mem_filterMap.1 hmem⟩
  · cases h

theorem isNormalList_normalize {value : Option Json} (h : AllHaveCreationTimes value) (now : String) :
    IsNormalList (normalizeSavedFilters now value) := by
  refine ⟨nodup_normalizeSavedFilters now value, fun filter hfilter => ?_⟩
  obtain ⟨items, rfl, item, hitem, hnormal⟩ := mem_normalizeSavedFilters hfilter
  exact isNormal_of_normalize (h items rfl item hitem) hnormal

theorem normalizeSavedFilters_now {value : Option Json} (h : AllHaveCreationTimes value) (now now' : String) :
    normalizeSavedFilters now value = normalizeSavedFilters now' value := by
  unfold normalizeSavedFilters
  split
  · rename_i items
    have hitems : items.filterMap (normalizeSavedFilter now) = items.filterMap (normalizeSavedFilter now') := by
      apply List.filterMap_congr
      intro item hitem
      exact normalizeSavedFilter_now (h items rfl item hitem) now now'
    rw [hitems]
  · rfl

/-- A normal filter written and read again keeps its id and is a normal one. -/
theorem normalize_record {filter : SavedFilter} (h : IsNormal filter) (now : String) :
    ∃ next, normalizeSavedFilter now (.obj filter.record) = some next ∧ next.id = filter.id ∧ IsNormal next := by
  have hsome : (normalizeSavedFilter now (.obj filter.record)).isSome = true := by
    rw [normalizeSavedFilter_isSome, hasText_record (lookup_record_id filter) h.id,
      hasText_record (lookup_record_name filter) h.name]
    rfl
  obtain ⟨next, hnext⟩ := Option.isSome_iff_exists.1 hsome
  have hcreation : HasCreationTime (.obj filter.record) := fun _ _ =>
    hasText_record (lookup_record_createdAt filter) h.createdAt
  refine ⟨next, hnext, ?_, isNormal_of_normalize hcreation hnext⟩
  unfold normalizeSavedFilter at hnext
  simp only [prop_obj, lookup_record_id, lookup_record_name, asStr?_some, Json.asStr?, Option.filter, h.id, h.name,
    Bool.not_false, if_true, Option.some.injEq] at hnext
  subst hnext
  exact h.trimId

/-- The filters of a list that is written and read again. -/
def rereadFilters (now : String) (filters : List SavedFilter) : List SavedFilter :=
  filters.filterMap fun filter => normalizeSavedFilter now (.obj filter.record)

theorem map_id_reread {filters : List SavedFilter} (h : ∀ filter ∈ filters, IsNormal filter) (now : String) :
    (rereadFilters now filters).map SavedFilter.id = filters.map SavedFilter.id := by
  unfold rereadFilters
  induction filters with
  | nil => rfl
  | cons filter filters ih =>
    obtain ⟨next, hnext, hid, -⟩ := normalize_record (h filter (by simp)) now
    simp only [List.filterMap_cons, hnext, List.map_cons, hid, ih fun f hf => h f (by simp [hf])]

theorem normalize_json_reread {filters : List SavedFilter} (h : IsNormalList filters) (now : String) :
    (normalizeSavedFilters now (some (savedFiltersJson filters))).Perm (rereadFilters now filters) := by
  have hitems : (filters.map fun filter => Json.obj filter.record).filterMap (normalizeSavedFilter now) =
      rereadFilters now filters := by
    rw [List.filterMap_map]
    rfl
  exact normalizeSavedFilters_perm_of_nodup hitems (map_id_reread h.normal now ▸ h.nodup)

/-- Reading lists of the same normal filters gives the same filters, whatever their order and the clock. -/
theorem normalize_json_perm {filters filters' : List SavedFilter} (h : IsNormalList filters)
    (hperm : filters.Perm filters') (now now' : String) :
    (normalizeSavedFilters now (some (savedFiltersJson filters))).Perm
      (normalizeSavedFilters now' (some (savedFiltersJson filters'))) := by
  have h' : IsNormalList filters' :=
    ⟨(hperm.map SavedFilter.id).nodup_iff.1 h.nodup, fun filter hf => h.normal filter (hperm.mem_iff.2 hf)⟩
  rw [normalizeSavedFilters_now (allHaveCreationTimes_json h'.normal) now' now]
  apply (normalize_json_reread h now).trans
  apply List.Perm.trans _ (normalize_json_reread h' now).symm
  exact hperm.filterMap _

theorem isNormalList_json {filters : List SavedFilter} (h : IsNormalList filters) (now : String) :
    IsNormalList (normalizeSavedFilters now (some (savedFiltersJson filters))) :=
  isNormalList_normalize (allHaveCreationTimes_json h.normal) now

/-! ### The choice of one filter -/

/-- Filters that the deterministic winner cannot tell apart are the same. -/
def TellsApart (localFilters incomingFilters : List SavedFilter) : Prop :=
  ∀ l ∈ localFilters, ∀ i ∈ incomingFilters, l.id = i.id →
    toFullDeterministicSignature l.record = toFullDeterministicSignature i.record → l = i

theorem chooseDeterministicFilter_swap {l i : SavedFilter} (hl : IsNormal l) (hi : IsNormal i)
    (htell : toFullDeterministicSignature l.record = toFullDeterministicSignature i.record → l = i) :
    chooseDeterministicFilter i l = chooseDeterministicFilter l i := by
  have hsl : HasSignature l.record := hasSignature_of_id hl.id (mem_of_lookup (lookup_record_id l))
  have hsi : HasSignature i.record := hasSignature_of_id hi.id (mem_of_lookup (lookup_record_id i))
  unfold chooseDeterministicFilter
  rcases chooseDeterministicWinner_swap hsl hsi with h | h
  · rw [h, Side.pick_swap]
  · rw [htell h]

theorem chooseDeletedSavedFilter_swap {l i : SavedFilter} (h : truthy l.deletedAt ≠ truthy i.deletedAt) :
    chooseDeletedSavedFilter i l = chooseDeletedSavedFilter l i := by
  unfold chooseDeletedSavedFilter
  cases hl : truthy l.deletedAt with
  | true =>
    have hi : truthy i.deletedAt = false := by simpa [hl] using h.symm
    simp [hi]
  | false =>
    have hi : truthy i.deletedAt = true := by simpa [hl] using h.symm
    simp [hi]

/-- Which side merges does not matter. -/
theorem chooseSavedFilter_swap {l i : SavedFilter} (hl : IsNormal l) (hi : IsNormal i)
    (htell : toFullDeterministicSignature l.record = toFullDeterministicSignature i.record → l = i) (wins : Bool) :
    chooseSavedFilter i l (!wins) = chooseSavedFilter l i wins := by
  unfold chooseSavedFilter
  by_cases hdeleted : truthy l.deletedAt = truthy i.deletedAt
  · simp only [hdeleted, ne_eq, not_true_eq_false, if_false]
    cases savedFilterUpdatedAt l with
    | none =>
      cases savedFilterUpdatedAt i with
      | none => cases wins <;> rfl
      | some iAt => rfl
    | some lAt =>
      cases savedFilterUpdatedAt i with
      | none => rfl
      | some iAt =>
        dsimp only
        rcases lt_trichotomy lAt iAt with h | h | h
        · have hpos : iAt - lAt > 0 := by omega
          have hneg : ¬lAt - iAt > 0 := by omega
          have hneg' : lAt - iAt < 0 := by omega
          simp only [hpos, hneg, hneg', if_true, if_false]
        · have hzero : lAt - iAt = 0 := by omega
          have hzero' : iAt - lAt = 0 := by omega
          simp only [hzero, hzero', gt_iff_lt, lt_self_iff_false, if_false]
          exact chooseDeterministicFilter_swap hl hi htell
        · have hpos : lAt - iAt > 0 := by omega
          have hneg : ¬iAt - lAt > 0 := by omega
          have hneg' : iAt - lAt < 0 := by omega
          simp only [hpos, hneg, hneg', if_true, if_false]
  · have hdeleted' : truthy i.deletedAt ≠ truthy l.deletedAt := fun h => hdeleted h.symm
    simp only [ne_eq, hdeleted, hdeleted', not_false_eq_true, if_true]
    have hswap := chooseDeletedSavedFilter_swap hdeleted
    cases getSavedFilterOperationTime l with
    | none => cases getSavedFilterOperationTime i <;> exact hswap
    | some lAt =>
      cases getSavedFilterOperationTime i with
      | none => exact hswap
      | some iAt =>
        dsimp only
        have habs : (lAt - iAt).natAbs = (iAt - lAt).natAbs := by omega
        rw [habs, hswap]
        split
        · rfl
        · rename_i hfar
          have hne : iAt - lAt ≠ 0 := by
            intro h
            rw [h] at hfar
            exact hfar (by decide)
          by_cases hpos : iAt - lAt > 0
          · have hneg : ¬lAt - iAt > 0 := by omega
            simp only [hpos, hneg, if_true, if_false]
          · have hneg : lAt - iAt > 0 := by omega
            simp only [hpos, hneg, if_true, if_false]

theorem chooseDeterministicFilter_eq_or (l i : SavedFilter) :
    chooseDeterministicFilter l i = l ∨ chooseDeterministicFilter l i = i := by
  unfold chooseDeterministicFilter
  cases chooseDeterministicWinner l.record i.record
  · exact .inl rfl
  · exact .inr rfl

theorem chooseDeletedSavedFilter_eq_or (l i : SavedFilter) :
    chooseDeletedSavedFilter l i = l ∨ chooseDeletedSavedFilter l i = i := by
  unfold chooseDeletedSavedFilter
  split
  · exact .inl rfl
  · split
    · exact .inr rfl
    · exact chooseDeterministicFilter_eq_or l i

theorem chooseSavedFilter_eq_or (l i : SavedFilter) (wins : Bool) :
    chooseSavedFilter l i wins = l ∨ chooseSavedFilter l i wins = i := by
  unfold chooseSavedFilter
  split
  · split
    · dsimp only
      split
      · exact chooseDeletedSavedFilter_eq_or l i
      · exact (ite_eq_or_eq _ _ _).symm
    · exact chooseDeletedSavedFilter_eq_or l i
  · split
    · exact .inr rfl
    · exact .inl rfl
    · split
      · exact .inr rfl
      · split
        · exact .inl rfl
        · exact chooseDeterministicFilter_eq_or l i
    · exact (ite_eq_or_eq _ _ _).symm

end

/-! ### The two lists -/

section
variable [Runtime]

/-- The merge before its filters are put into their normal form. -/
def mergedById (localFilters incomingFilters : List SavedFilter) (incomingWins : Bool) : JsMap SavedFilter :=
  let incomingById := JsMap.ofItems SavedFilter.id incomingFilters
  let mergedById := localFilters.foldl (fun merged localFilter =>
    merged.set localFilter.id (match incomingById.get? localFilter.id with
      | some incomingFilter => chooseSavedFilter localFilter incomingFilter incomingWins
      | none => localFilter)) JsMap.empty
  incomingFilters.foldl (fun merged incomingFilter =>
    if (merged.get? incomingFilter.id).isSome then merged
    else merged.set incomingFilter.id incomingFilter) mergedById

/-- What the merge has under an id. -/
def chooseEither (l i : Option SavedFilter) (incomingWins : Bool) : Option SavedFilter :=
  match l, i with
  | some l, some i => some (chooseSavedFilter l i incomingWins)
  | some l, none => some l
  | none, i => i

theorem get?_mergedById {localFilters incomingFilters : List SavedFilter}
    (hl : (localFilters.map SavedFilter.id).Nodup) (hi : (incomingFilters.map SavedFilter.id).Nodup) (wins : Bool)
    (id : String) :
    (mergedById localFilters incomingFilters wins).get? id =
      chooseEither (withId localFilters id) (withId incomingFilters id) wins := by
  unfold mergedById
  dsimp only
  rw [JsMap.get?_foldl_add, JsMap.get?_foldl_set _ hl, JsMap.get?_empty, Option.or_none]
  change Option.or (Option.map _ (withId localFilters id)) (withId incomingFilters id) = _
  cases hlocal : withId localFilters id with
  | none => rfl
  | some l =>
    obtain ⟨-, rfl⟩ := withId_some hlocal
    have hfind : (JsMap.ofItems SavedFilter.id incomingFilters).get? l.id = withId incomingFilters l.id :=
      JsMap.get?_ofItems_find hi l.id
    rw [Option.map_some, hfind]
    cases withId incomingFilters l.id <;> rfl

theorem mem_of_chooseEither {localFilters incomingFilters : List SavedFilter} {wins : Bool} {id : String}
    {filter : SavedFilter}
    (h : chooseEither (withId localFilters id) (withId incomingFilters id) wins = some filter) :
    filter.id = id ∧ (filter ∈ localFilters ∨ filter ∈ incomingFilters) := by
  cases hlocal : withId localFilters id with
  | none =>
    rw [hlocal] at h
    obtain ⟨hmem, hid⟩ := withId_some h
    exact ⟨hid, .inr hmem⟩
  | some l =>
    obtain ⟨hlmem, hlid⟩ := withId_some hlocal
    cases hincoming : withId incomingFilters id with
    | none =>
      rw [hlocal, hincoming] at h
      obtain rfl := Option.some.inj h
      exact ⟨hlid, .inl hlmem⟩
    | some i =>
      obtain ⟨himem, hiid⟩ := withId_some hincoming
      rw [hlocal, hincoming] at h
      obtain rfl := Option.some.inj h
      rcases chooseSavedFilter_eq_or l i wins with hchosen | hchosen
      · rw [hchosen]
        exact ⟨hlid, .inl hlmem⟩
      · rw [hchosen]
        exact ⟨hiid, .inr himem⟩

theorem isNormalList_merged {localFilters incomingFilters : List SavedFilter} (hl : IsNormalList localFilters)
    (hi : IsNormalList incomingFilters) (wins : Bool) :
    IsNormalList ((mergedById localFilters incomingFilters wins).entries.map Prod.snd) := by
  have hget : ∀ id filter, (mergedById localFilters incomingFilters wins).get? id = some filter →
      filter.id = id ∧ (filter ∈ localFilters ∨ filter ∈ incomingFilters) := by
    intro id filter h
    rw [get?_mergedById hl.nodup hi.nodup] at h
    exact mem_of_chooseEither h
  constructor
  · exact JsMap.nodup_values fun id filter h => (hget id filter h).1
  · intro filter hfilter
    obtain ⟨e, he, rfl⟩ := List.mem_map.1 hfilter
    rcases (hget e.1 e.2 ((JsMap.mem_entries_iff _ e).1 he)).2 with h | h
    · exact hl.normal _ h
    · exact hi.normal _ h

theorem merged_perm {localFilters incomingFilters : List SavedFilter} (hl : IsNormalList localFilters)
    (hi : IsNormalList incomingFilters) (htell : TellsApart localFilters incomingFilters) (wins : Bool) :
    ((mergedById localFilters incomingFilters wins).entries.map Prod.snd).Perm
      ((mergedById incomingFilters localFilters (!wins)).entries.map Prod.snd) := by
  apply List.Perm.map
  apply JsMap.entries_perm
  intro id
  rw [get?_mergedById hl.nodup hi.nodup, get?_mergedById hi.nodup hl.nodup]
  cases hlocal : withId localFilters id with
  | none => cases withId incomingFilters id <;> rfl
  | some l =>
    cases hincoming : withId incomingFilters id with
    | none => rfl
    | some i =>
      obtain ⟨hlmem, hlid⟩ := withId_some hlocal
      obtain ⟨himem, hiid⟩ := withId_some hincoming
      have hsame := htell l hlmem i himem (hlid.trans hiid.symm)
      exact congrArg some (chooseSavedFilter_swap (hl.normal l hlmem) (hi.normal i himem) hsame wins).symm

/-- The merged filters are the same whichever side merges, at whatever time. -/
theorem mergeSavedFiltersById_swap {localValue incomingValue : Option Json} (hl : AllHaveCreationTimes localValue)
    (hi : AllHaveCreationTimes incomingValue) (now now' : String)
    (htell : TellsApart (normalizeSavedFilters now localValue) (normalizeSavedFilters now incomingValue))
    (wins : Bool) :
    (mergeSavedFiltersById now localValue incomingValue wins).Perm
        (mergeSavedFiltersById now' incomingValue localValue !wins) ∧
      IsNormalList (mergeSavedFiltersById now localValue incomingValue wins) := by
  have hlnormal := isNormalList_normalize hl now
  have hinormal := isNormalList_normalize hi now
  have hmerged := isNormalList_merged hlnormal hinormal wins
  constructor
  · unfold mergeSavedFiltersById
    rw [normalizeSavedFilters_now hl now' now, normalizeSavedFilters_now hi now' now]
    exact normalize_json_perm hmerged (merged_perm hlnormal hinormal htell wins) now now'
  · exact isNormalList_json hmerged now

end

end Mindwtr.Sync
