import Mindwtr.Js.Map

/-!
# Records

Reading and writing the properties of plain objects. A property whose value is `undefined` is one that is not
there, so a write of `undefined` removes it.
-/

namespace Mindwtr.Js

abbrev Record := List (String × Json)

/-- `v?.[key]`, for a name that strings and lists have no property of. -/
def prop (v : Option Json) (key : String) : Option Json :=
  match v with
  | some (.obj record) => lookup key record
  | _ => none

/-- `v ?? {}` as a record. -/
def recordOf (v : Option Json) : Record :=
  match v with
  | some (.obj record) => record
  | _ => []

def isObjectRecord (v : Json) : Bool := v.asObj?.isSome

def setProp (key : String) (value : Option Json) (record : Record) : Record :=
  match value with
  | some v => JsMap.setEntry key v record
  | none => record.filter fun e => e.1 != key

/-- Writes one property after the other. -/
def assignProps (keys : List String) (value : String → Option Json) (record : Record) : Record :=
  keys.foldl (fun record key => setProp key (value key) record) record

/-- `{ ...record, ...other }` -/
def spread (record other : Record) : Record := other.foldl (fun record e => setProp e.1 (some e.2) record) record

/-- The record of those of the keys that have a value. -/
def pickProps (keys : List String) (value : String → Option Json) : Record :=
  keys.filterMap fun key => (value key).map fun v => (key, v)

/-- An object, or nothing where it would have no property. -/
def nonEmptyRecord (record : Record) : Option Json := if record.isEmpty then none else some (.obj record)

@[simp] theorem prop_none (key : String) : prop none key = none := rfl

@[simp] theorem prop_obj (record : Record) (key : String) : prop (some (.obj record)) key = lookup key record := rfl

theorem lookup_recordOf (v : Option Json) (key : String) : lookup key (recordOf v) = prop v key := by
  unfold recordOf prop
  split <;> rfl

@[simp] theorem prop_nonEmptyRecord (record : Record) (key : String) :
    prop (nonEmptyRecord record) key = lookup key record := by
  unfold nonEmptyRecord
  cases record with
  | nil => rfl
  | cons e record => rfl

theorem lookup_eq_find (key : String) (record : Record) : lookup key record = JsMap.find key record := by
  induction record with
  | nil => rfl
  | cons e record ih => simp only [lookup, JsMap.find, ih]

theorem lookup_filter_ne (key k : String) (record : Record) :
    lookup k (record.filter fun e => e.1 != key) = if k = key then none else lookup k record := by
  induction record with
  | nil => simp [lookup]
  | cons e record ih =>
    by_cases hkey : e.1 = key
    · rw [List.filter_cons_of_neg (by simp [hkey]), ih]
      by_cases hk : k = key
      · simp [hk]
      · have hne : e.1 ≠ k := fun h => hk (h.symm.trans hkey)
        simp [hk, lookup, hne]
    · rw [List.filter_cons_of_pos (by simp [hkey])]
      by_cases hk : e.1 = k
      · have hne : k ≠ key := fun h => hkey (hk.trans h)
        simp [lookup, hk, hne]
      · simp only [lookup, if_neg hk, ih]

@[simp] theorem lookup_setProp (key k : String) (value : Option Json) (record : Record) :
    lookup k (setProp key value record) = if k = key then value else lookup k record := by
  cases value with
  | none => exact lookup_filter_ne key k record
  | some v =>
    simp only [setProp, lookup_eq_find]
    exact JsMap.find_setEntry key k v record

/-! ### One write after another -/

theorem filter_setEntry_same (key : String) (v : Json) (record : Record) :
    (JsMap.setEntry key v record).filter (fun e => e.1 != key) = record.filter fun e => e.1 != key := by
  induction record with
  | nil => simp [JsMap.setEntry]
  | cons e record ih =>
    by_cases hkey : e.1 = key
    · simp [JsMap.setEntry, hkey]
    · simp [JsMap.setEntry, hkey, ih]

theorem setProp_none_setProp (key : String) (value : Option Json) (record : Record) :
    setProp key none (setProp key value record) = setProp key none record := by
  cases value with
  | none => simp [setProp]
  | some v => exact filter_setEntry_same key v record

theorem setProp_lookup (key : String) (record : Record) : setProp key (lookup key record) record = record := by
  cases hlookup : lookup key record with
  | none =>
    rw [setProp, List.filter_eq_self]
    intro e he
    induction record with
    | nil => cases he
    | cons d record ih =>
      rw [lookup] at hlookup
      split_ifs at hlookup with hkey
      rcases List.mem_cons.1 he with rfl | he
      · simpa using hkey
      · exact ih hlookup he
  | some v =>
    rw [setProp]
    induction record with
    | nil => cases hlookup
    | cons d record ih =>
      rw [lookup] at hlookup
      split_ifs at hlookup with hkey
      · rw [JsMap.setEntry, if_pos hkey, ← Option.some.inj hlookup]
      · rw [JsMap.setEntry, if_neg hkey, ih hlookup]

theorem setProp_some_setProp_some (key : String) (v w : Json) (record : Record) :
    setProp key (some v) (setProp key (some w) record) = setProp key (some v) record := by
  simp only [setProp]
  induction record with
  | nil => simp [JsMap.setEntry]
  | cons e record ih =>
    by_cases hkey : e.1 = key
    · simp [JsMap.setEntry, hkey]
    · simp [JsMap.setEntry, hkey, ih]

theorem setProp_none_comm {key other : String} (hne : other ≠ key) (v : Json) (record : Record) :
    setProp key none (setProp other (some v) record) = setProp other (some v) (setProp key none record) := by
  simp only [setProp]
  induction record with
  | nil => simp [JsMap.setEntry, hne]
  | cons e record ih =>
    by_cases hother : e.1 = other
    · simp [JsMap.setEntry, hother, hne]
    · by_cases hkey : e.1 = key
      · have hne' : key ≠ other := Ne.symm hne
        simp [JsMap.setEntry, hkey, hne', ih]
      · simp [JsMap.setEntry, hother, hkey, ih]

theorem lookup_assignProps (keys : List String) (value : String → Option Json) (record : Record) (k : String) :
    lookup k (assignProps keys value record) = if k ∈ keys then value k else lookup k record := by
  unfold assignProps
  induction keys generalizing record with
  | nil => simp
  | cons key keys ih =>
    rw [List.foldl_cons, ih, lookup_setProp]
    by_cases hk : k = key
    · simp [hk]
    · simp [hk]

theorem lookup_pickProps (keys : List String) (value : String → Option Json) (k : String) :
    lookup k (pickProps keys value) = if k ∈ keys then value k else none := by
  unfold pickProps
  induction keys with
  | nil => rfl
  | cons key keys ih =>
    cases hv : value key with
    | none =>
      rw [List.filterMap_cons_none (by simp [hv]), ih]
      by_cases hk : k = key
      · simp [hk, hv]
      · simp [hk]
    | some v =>
      rw [List.filterMap_cons_some (b := (key, v)) (by simp [hv])]
      by_cases hk : key = k
      · subst hk
        simp [lookup, hv]
      · simp [lookup, hk, ih, Ne.symm hk]

/-- The record of those of the fields that have a value. -/
theorem lookup_fields_cons (key k : String) (value : Option Json) (fields : List (String × Option Json)) :
    lookup k (((key, value) :: fields).filterMap fun e => e.2.map fun v => (e.1, v)) =
      if key = k then value.or (lookup k (fields.filterMap fun e => e.2.map fun v => (e.1, v)))
      else lookup k (fields.filterMap fun e => e.2.map fun v => (e.1, v)) := by
  cases value with
  | none => simp
  | some v =>
    by_cases hk : key = k
    · simp [lookup, hk]
    · simp [lookup, hk]

theorem mem_of_lookup {key : String} {v : Json} {record : Record} (h : lookup key record = some v) :
    (key, v) ∈ record := by
  rw [lookup_eq_find] at h
  exact JsMap.mem_of_find h

end Mindwtr.Js
