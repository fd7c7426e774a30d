import Mindwtr.Js.Json

/-!
# Insertion-ordered maps

`Map` keyed by strings: entries keep the position of their first insertion, and a later `set` of the
same key replaces the value in place. Built from a list with distinct keys the map is that list
(`entries_ofList`), which is what lets a merge keyed by ids be read as a merge of lists.
-/

namespace Mindwtr.Js

structure JsMap (α : Type) where
  entries : List (String × α)
  nodup : (entries.map Prod.fst).Nodup

namespace JsMap

variable {α : Type}

/-- Replace the value of `key` in place, or append the new entry. -/
def setEntry (key : String) (value : α) : List (String × α) → List (String × α)
  | [] => [(key, value)]
  | (k, v) :: rest => if k = key then (k, value) :: rest else (k, v) :: setEntry key value rest

theorem mem_keys_setEntry (key k : String) (value : α) (l : List (String × α)) :
    k ∈ (setEntry key value l).map Prod.fst ↔ k = key ∨ k ∈ l.map Prod.fst := by
  induction l with
  | nil => simp [setEntry]
  | cons e l ih =>
    obtain ⟨k', v⟩ := e
    by_cases hk : k' = key
    · subst hk
      simp [setEntry]
    · simp only [setEntry, if_neg hk, List.map_cons, List.mem_cons, ih]
      tauto

theorem nodup_setEntry (key : String) (value : α) (l : List (String × α))
    (h : (l.map Prod.fst).Nodup) : ((setEntry key value l).map Prod.fst).Nodup := by
  induction l with
  | nil => simp [setEntry]
  | cons e l ih =>
    obtain ⟨k', v⟩ := e
    simp only [List.map_cons, List.nodup_cons] at h
    by_cases hk : k' = key
    · simpa [setEntry, hk] using h
    · simp only [setEntry, if_neg hk, List.map_cons, List.nodup_cons, mem_keys_setEntry]
      exact ⟨by tauto, ih h.2⟩

def empty : JsMap α := ⟨[], List.nodup_nil⟩

def set (m : JsMap α) (key : String) (value : α) : JsMap α :=
  ⟨setEntry key value m.entries, nodup_setEntry key value m.entries m.nodup⟩

def find (key : String) : List (String × α) → Option α
  | [] => none
  | (k, v) :: rest => if k = key then some v else find key rest

def get? (m : JsMap α) (key : String) : Option α := find key m.entries

def keys (m : JsMap α) : List String := m.entries.map Prod.fst

/-- `new Map(entries)`. -/
def ofList (entries : List (String × α)) : JsMap α :=
  entries.foldl (fun m e => m.set e.1 e.2) empty

/-- The members of `new Set([...m.keys(), ...n.keys()])`, in order. -/
def unionKeys {β : Type} (m : JsMap α) (n : JsMap β) : List String :=
  m.keys ++ n.keys.filter (· ∉ m.keys)

/-! ### Maps of distinct keys -/

theorem setEntry_of_notMem (key : String) (value : α) (l : List (String × α))
    (h : key ∉ l.map Prod.fst) : setEntry key value l = l ++ [(key, value)] := by
  induction l with
  | nil => rfl
  | cons e l ih =>
    obtain ⟨k, v⟩ := e
    simp only [List.map_cons, List.mem_cons, not_or] at h
    simp [setEntry, Ne.symm h.1, ih h.2]

theorem foldl_set_entries (l : List (String × α)) (m : JsMap α)
    (hl : (l.map Prod.fst).Nodup) (hdis : ∀ k ∈ l.map Prod.fst, k ∉ m.keys) :
    (l.foldl (fun m e => m.set e.1 e.2) m).entries = m.entries ++ l := by
  induction l generalizing m with
  | nil => simp
  | cons e l ih =>
    simp only [List.map_cons, List.nodup_cons] at hl
    have hset : (m.set e.1 e.2).entries = m.entries ++ [e] :=
      setEntry_of_notMem e.1 e.2 m.entries (hdis e.1 (by simp))
    rw [List.foldl_cons, ih _ hl.2, hset, List.append_assoc, List.singleton_append]
    intro k hk
    have hne : k ≠ e.1 := fun h => hl.1 (h ▸ hk)
    have hm : k ∉ m.keys := hdis k (by simp [hk])
    simp only [keys, hset, List.map_append, List.mem_append, not_or]
    exact ⟨hm, by simpa using hne⟩

/-- A map of distinct keys is its list of entries. -/
theorem entries_ofList (l : List (String × α)) (h : (l.map Prod.fst).Nodup) :
    (ofList l).entries = l := by
  have := foldl_set_entries l empty h (by simp [keys, empty])
  simpa [ofList, empty] using this

theorem keys_nodup (m : JsMap α) : m.keys.Nodup := m.nodup

theorem find_eq_some_iff {key : String} {v : α} {l : List (String × α)}
    (h : (l.map Prod.fst).Nodup) : find key l = some v ↔ (key, v) ∈ l := by
  induction l with
  | nil => simp [find]
  | cons e l ih =>
    obtain ⟨k, w⟩ := e
    simp only [List.map_cons, List.nodup_cons] at h
    by_cases hk : k = key
    · subst hk
      have hnot : ∀ u, (k, u) ∉ l := fun u hu => h.1 (List.mem_map.2 ⟨_, hu, rfl⟩)
      simp [find, hnot, eq_comm]
    · simp [find, hk, ih h.2, Ne.symm hk]

theorem find_eq_none_iff {key : String} {l : List (String × α)} :
    find key l = none ↔ key ∉ l.map Prod.fst := by
  induction l with
  | nil => simp [find]
  | cons e l ih =>
    obtain ⟨k, w⟩ := e
    by_cases hk : k = key
    · simp [find, hk]
    · simp only [find, if_neg hk, ih, List.map_cons, List.mem_cons, not_or]
      exact ⟨fun h => ⟨Ne.symm hk, h⟩, And.right⟩

theorem get?_isSome_iff (m : JsMap α) (key : String) : (m.get? key).isSome ↔ key ∈ m.keys := by
  rw [← not_iff_not, Bool.not_eq_true, Option.isSome_eq_false_iff, Option.isNone_iff_eq_none]
  exact find_eq_none_iff

theorem mem_unionKeys {β : Type} (m : JsMap α) (n : JsMap β) (k : String) :
    k ∈ unionKeys m n ↔ k ∈ m.keys ∨ k ∈ n.keys := by
  by_cases h : k ∈ m.keys <;> simp [unionKeys, h]

theorem nodup_unionKeys {β : Type} (m : JsMap α) (n : JsMap β) : (unionKeys m n).Nodup := by
  refine List.Nodup.append m.keys_nodup (n.keys_nodup.filter _) ?_
  intro k hm hn
  simp only [List.mem_filter, decide_not, Bool.not_eq_eq_eq_not, Bool.not_true,
    decide_eq_false_iff_not] at hn
  exact hn.2 hm

/-! ### Entries come from the list -/

theorem mem_setEntry {key : String} {value : α} {l : List (String × α)} {e : String × α}
    (h : e ∈ setEntry key value l) : e = (key, value) ∨ e ∈ l := by
  induction l with
  | nil => exact .inl (by simpa [setEntry] using h)
  | cons d l ih =>
    by_cases hk : d.1 = key
    · rw [setEntry, if_pos hk, hk, List.mem_cons] at h
      exact h.imp_right (List.mem_cons_of_mem _)
    · simp only [setEntry, if_neg hk, List.mem_cons] at h
      rcases h with rfl | h
      · exact .inr (by simp)
      · exact (ih h).imp_right (List.mem_cons_of_mem _)

theorem mem_foldl_set (l : List (String × α)) (m : JsMap α) {e : String × α}
    (h : e ∈ (l.foldl (fun m e => m.set e.1 e.2) m).entries) : e ∈ m.entries ∨ e ∈ l := by
  induction l generalizing m with
  | nil => exact .inl h
  | cons d l ih =>
    rcases ih (m.set d.1 d.2) h with h | h
    · rcases mem_setEntry h with rfl | h
      · exact .inr (by simp)
      · exact .inl h
    · exact .inr (List.mem_cons_of_mem _ h)

theorem mem_of_find {key : String} {v : α} {l : List (String × α)} (h : find key l = some v) :
    (key, v) ∈ l := by
  induction l with
  | nil => cases h
  | cons e l ih =>
    by_cases hk : e.1 = key
    · simp only [find, if_pos hk, Option.some.injEq] at h
      subst hk h
      simp
    · rw [find, if_neg hk] at h
      exact List.mem_cons_of_mem _ (ih h)

section items
variable (key : α → String)

/-- `new Map(items.map((item) => [key(item), item]))`. -/
def ofItems (items : List α) : JsMap α := ofList (items.map fun item => (key item, item))

variable {key}

theorem keys_ofItems {items : List α} (h : (items.map key).Nodup) :
    (ofItems key items).keys = items.map key := by
  have hk : ((items.map fun item => (key item, item)).map Prod.fst).Nodup := by
    simpa [List.map_map, Function.comp_def] using h
  simp [keys, ofItems, entries_ofList _ hk, List.map_map, Function.comp_def]

theorem get?_ofItems {items : List α} (h : (items.map key).Nodup) {k : String} {a : α} :
    (ofItems key items).get? k = some a ↔ a ∈ items ∧ key a = k := by
  have hk : ((items.map fun item => (key item, item)).map Prod.fst).Nodup := by
    simpa [List.map_map, Function.comp_def] using h
  rw [get?, ofItems, entries_ofList _ hk, find_eq_some_iff hk, List.mem_map]
  constructor
  · rintro ⟨b, hb, he⟩
    obtain ⟨rfl, rfl⟩ := Prod.mk.inj he
    exact ⟨hb, rfl⟩
  · rintro ⟨ha, rfl⟩
    exact ⟨a, ha, rfl⟩

theorem mem_of_get?_ofItems {items : List α} {k : String} {a : α}
    (h : (ofItems key items).get? k = some a) : a ∈ items ∧ key a = k := by
  rcases mem_foldl_set _ _ (mem_of_find h) with hmem | hmem
  · cases hmem
  · obtain ⟨b, hb, he⟩ := List.mem_map.1 hmem
    obtain ⟨rfl, rfl⟩ := Prod.mk.inj he
    exact ⟨hb, rfl⟩

end items

/-! ### Tables -/

theorem find_setEntry (key k : String) (value : α) (l : List (String × α)) :
    find k (setEntry key value l) = if k = key then some value else find k l := by
  induction l with
  | nil =>
    by_cases hk : key = k
    · simp [setEntry, find, hk]
    · simp [setEntry, find, hk, Ne.symm hk]
  | cons e l ih =>
    obtain ⟨k', v⟩ := e
    by_cases hk' : k' = key
    · subst hk'
      by_cases hk : k' = k
      · simp [setEntry, find, hk]
      · simp [setEntry, find, hk, Ne.symm hk]
    · by_cases hk : k' = k
      · have hne : k ≠ key := hk ▸ hk'
        simp [setEntry, find, hk, hne]
      · simp only [setEntry, if_neg hk', find, if_neg hk, ih]

@[simp] theorem get?_set (m : JsMap α) (key k : String) (value : α) :
    (m.set key value).get? k = if k = key then some value else m.get? k :=
  find_setEntry key k value m.entries

@[simp] theorem get?_empty (k : String) : (empty : JsMap α).get? k = none := rfl

/-- The entries that meet `p`. -/
def filter (p : String → α → Bool) (m : JsMap α) : JsMap α :=
  ⟨m.entries.filter fun e => p e.1 e.2, m.nodup.sublist (List.filter_sublist.map _)⟩

@[simp] theorem get?_filter (p : String → α → Bool) (m : JsMap α) (k : String) :
    (m.filter p).get? k = (m.get? k).filter (p k) := by
  have hfind : ∀ l : List (String × α), (l.map Prod.fst).Nodup →
      find k (l.filter fun e => p e.1 e.2) = (find k l).filter (p k) := by
    intro l hl
    induction l with
    | nil => rfl
    | cons e l ih =>
      obtain ⟨k', v⟩ := e
      obtain ⟨hnot, hl⟩ := List.nodup_cons.1 hl
      by_cases hk : k' = k
      · subst hk
        by_cases hp : p k' v = true
        · simp [find, hp, Option.filter]
        · have hnone : find k' l = none := find_eq_none_iff.2 hnot
          simp [find, hp, ih hl, hnone, Option.filter]
      · by_cases hp : p k' v = true
        · simp [find, hp, hk, ih hl]
        · simp [find, hp, hk, ih hl]
  exact hfind m.entries m.nodup

/-- Each value replaced by its image. -/
def mapValues {β : Type} (f : α → β) (m : JsMap α) : JsMap β :=
  ⟨m.entries.map fun e => (e.1, f e.2), by simpa [List.map_map, Function.comp_def] using m.nodup⟩

@[simp] theorem get?_mapValues {β : Type} (f : α → β) (m : JsMap α) (k : String) :
    (m.mapValues f).get? k = (m.get? k).map f := by
  show find k (m.entries.map _) = (find k m.entries).map f
  induction m.entries with
  | nil => rfl
  | cons e l ih =>
    by_cases hk : e.1 = k
    · simp [find, hk]
    · simp [find, hk, ih]

/-! ### Maps with the same entries -/

theorem entries_nodup (m : JsMap α) : m.entries.Nodup := List.Nodup.of_map _ m.nodup

theorem mem_entries_iff (m : JsMap α) (e : String × α) : e ∈ m.entries ↔ m.get? e.1 = some e.2 :=
  (find_eq_some_iff m.nodup).symm

theorem entries_perm {m n : JsMap α} (h : ∀ k, m.get? k = n.get? k) : m.entries.Perm n.entries := by
  apply (List.perm_ext_iff_of_nodup m.entries_nodup n.entries_nodup).2
  intro e
  rw [mem_entries_iff, mem_entries_iff, h]

/-- Where every value is under its own key, the values have distinct keys. -/
theorem nodup_values {key : α → String} {m : JsMap α} (h : ∀ k a, m.get? k = some a → key a = k) :
    ((m.entries.map Prod.snd).map key).Nodup := by
  have hkeys : (m.entries.map Prod.snd).map key = m.entries.map Prod.fst := by
    rw [List.map_map]
    apply List.map_congr_left
    intro e he
    exact h e.1 e.2 ((mem_entries_iff m e).1 he)
  rw [hkeys]
  exact m.nodup

theorem mem_keys_foldl_set (l : List (String × α)) (m : JsMap α) (k : String) :
    k ∈ (l.foldl (fun m e => m.set e.1 e.2) m).keys ↔ k ∈ m.keys ∨ k ∈ l.map Prod.fst := by
  induction l generalizing m with
  | nil => simp
  | cons e l ih =>
    have hset : k ∈ (m.set e.1 e.2).keys ↔ k = e.1 ∨ k ∈ m.keys := mem_keys_setEntry e.1 k e.2 m.entries
    rw [List.foldl_cons, ih, hset, List.map_cons, List.mem_cons]
    tauto

theorem entries_ofItems_ne_nil (key : α → String) {items : List α} {a : α} (h : a ∈ items) :
    (ofItems key items).entries ≠ [] := by
  have hkey : key a ∈ (ofItems key items).keys := by
    apply (mem_keys_foldl_set _ _ _).2
    exact .inr (List.mem_map.2 ⟨(key a, a), List.mem_map_of_mem h, rfl⟩)
  intro hnil
  simp [keys, hnil] at hkey

theorem find_map_key (key : α → String) (items : List α) (k : String) :
    find k (items.map fun a => (key a, a)) = items.find? fun a => key a == k := by
  induction items with
  | nil => rfl
  | cons a items ih =>
    by_cases ha : key a = k
    · simp [find, ha]
    · simp [find, ha, ih]

theorem get?_ofItems_find {key : α → String} {items : List α} (h : (items.map key).Nodup) (k : String) :
    (ofItems key items).get? k = items.find? fun a => key a == k := by
  have hk : ((items.map fun item => (key item, item)).map Prod.fst).Nodup := by
    simpa [List.map_map, Function.comp_def] using h
  rw [get?, ofItems, entries_ofList _ hk, find_map_key]

/-- Writing every item under its own key. -/
theorem get?_foldl_set {β : Type} {key : β → String} (value : β → α) {items : List β} (h : (items.map key).Nodup)
    (m : JsMap α) (k : String) :
    (items.foldl (fun m a => m.set (key a) (value a)) m).get? k =
      ((items.find? fun a => key a == k).map value).or (m.get? k) := by
  induction items generalizing m with
  | nil => rfl
  | cons a items ih =>
    obtain ⟨hnot, hrest⟩ := List.nodup_cons.1 h
    rw [List.foldl_cons, ih hrest]
    by_cases ha : key a = k
    · have hnone : (items.find? fun b => key b == k) = none := by
        rw [List.find?_eq_none]
        intro b hb hkey
        rw [beq_iff_eq] at hkey
        exact hnot (ha ▸ hkey ▸ List.mem_map_of_mem hb)
      simp [ha, hnone]
    · have hne : k ≠ key a := fun h => ha h.symm
      simp [ha, hne]

/-- Writing the items whose key is not there yet. -/
theorem get?_foldl_add {key : α → String} (items : List α) (m : JsMap α) (k : String) :
    (items.foldl (fun m a => if (m.get? (key a)).isSome then m else m.set (key a) a) m).get? k =
      (m.get? k).or (items.find? fun a => key a == k) := by
  induction items generalizing m with
  | nil => simp
  | cons a items ih =>
    rw [List.foldl_cons, ih]
    by_cases ha : key a = k
    · subst ha
      split
      · rename_i hsome
        obtain ⟨b, hb⟩ := Option.isSome_iff_exists.1 hsome
        simp [hb]
      · rename_i hnone
        rw [Option.not_isSome_iff_eq_none] at hnone
        simp [hnone]
    · have hne : k ≠ key a := fun h => ha h.symm
      split <;> simp [ha, hne]

/-- The items under the key that each has, in their order. -/
def groupBy (key : α → Option String) (items : List α) : JsMap (List α) :=
  items.foldl (fun m a =>
    match key a with
    | none => m
    | some k => m.set k ((m.get? k).getD [] ++ [a])) empty

theorem get?_groupBy (key : α → Option String) (items : List α) (k : String) :
    (groupBy key items).get? k =
      if items.filter (fun a => key a == some k) = [] then none else some (items.filter fun a => key a == some k) := by
  induction items using List.reverseRecOn with
  | nil => rfl
  | append_singleton items a ih =>
    rw [groupBy, List.foldl_concat, ← groupBy, List.filter_append]
    cases hkey : key a with
    | none => simpa [hkey] using ih
    | some own =>
      by_cases hk : k = own
      · subst hk
        rw [get?_set, if_pos rfl, ih]
        by_cases hnil : items.filter (fun a => key a == some k) = []
        · simp [hnil, hkey]
        · simp [hnil, hkey]
      · have hne : ¬own = k := fun h => hk h.symm
        simpa [hkey, hk, hne] using ih

theorem get?_groupBy_eq_some {key : α → Option String} {items group : List α} {k : String} :
    (groupBy key items).get? k = some group ↔ group = items.filter (fun a => key a == some k) ∧ group ≠ [] := by
  rw [get?_groupBy]
  split
  · rename_i hnil
    simp only [reduceCtorEq, false_iff, not_and, not_not]
    intro hgroup
    exact hgroup.trans hnil
  · rename_i hne
    constructor
    · intro h
      obtain rfl := Option.some.inj h
      exact ⟨rfl, hne⟩
    · intro h
      rw [h.1]

end JsMap

end Mindwtr.Js
