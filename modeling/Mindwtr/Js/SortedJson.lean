import Mindwtr.Js.Equality
import Mindwtr.Js.JsonText

/-!
# Values and their sorted JSON

What a variable of type `unknown` may hold, with the members that are `undefined` and those that every object inherits.
`sortedJson` is the JSON document of a value with the members of its objects in a fixed order; two values have the same
one when they read the same at every name (`lookup_sortedMembers`, `KeyOrder.eq_iff`).
-/

namespace Mindwtr.Js

inductive JsValue where
  | undefined
  | null
  | bool (b : Bool)
  | num (n : Rat)
  | str (s : String)
  | arr (items : List JsValue)
  /-- The own enumerable properties. -/
  | obj (entries : List (String × JsValue))
  /-- A function that every object inherits. -/
  | method
  /-- The object that every object inherits from. -/
  | prototype
deriving Inhabited, Repr

namespace JsValue

def isUndefined : JsValue → Bool
  | .undefined => true
  | _ => false

/-! ### Properties -/

def prototypeMethods : List String :=
  ["constructor", "__defineGetter__", "__defineSetter__", "hasOwnProperty", "__lookupGetter__", "__lookupSetter__",
    "isPrototypeOf", "propertyIsEnumerable", "toString", "valueOf", "toLocaleString"]

/-- What an object without an own property of the name has there. -/
def inherited (key : String) : JsValue :=
  if key = "__proto__" then .prototype else if key ∈ prototypeMethods then .method else .undefined

/-- `record[key]` -/
def getProperty (record : JsValue) (key : String) : JsValue :=
  match record with
  | .obj entries => (entries.lookup key).getD (inherited key)
  | .prototype => if key = "__proto__" then .null else inherited key
  | _ => .undefined

/-- `typeof value === 'object'`, where the value is neither `null` nor an array. -/
def isRecord : JsValue → Bool
  | .obj _ => true
  | .prototype => true
  | _ => false

def definedCount : JsValue → Nat
  | .obj entries => (entries.filter fun e => !e.2.isUndefined).length
  | _ => 0

/-! ### JSON-like values -/

mutual

/-- A JSON document, where a member may be `undefined` as well. -/
def JsonLike : JsValue → Prop
  | .undefined => False
  | .method => False
  | .prototype => False
  | .arr items => ItemsJsonLike items
  | .obj entries => (entries.map Prod.fst).Nodup ∧ MembersJsonLike entries
  | _ => True

def ItemsJsonLike : List JsValue → Prop
  | [] => True
  | v :: items => JsonLike v ∧ ItemsJsonLike items

def MembersJsonLike : List (String × JsValue) → Prop
  | [] => True
  | (_, v) :: entries => (v = .undefined ∨ JsonLike v) ∧ MembersJsonLike entries

end

theorem itemsJsonLike_iff {items : List JsValue} : ItemsJsonLike items ↔ ∀ v ∈ items, JsonLike v := by
  induction items with
  | nil => simp [ItemsJsonLike]
  | cons v items ih => simp [ItemsJsonLike, ih]

theorem membersJsonLike_iff {entries : List (String × JsValue)} :
    MembersJsonLike entries ↔ ∀ e ∈ entries, e.2 = .undefined ∨ JsonLike e.2 := by
  induction entries with
  | nil => simp [MembersJsonLike]
  | cons e entries ih => simp [MembersJsonLike, ih]

theorem JsonLike.not_undefined {v : JsValue} (h : v.JsonLike) : v.isUndefined = false := by
  cases v with
  | undefined => exact h.elim
  | _ => rfl

theorem eq_undefined_of_isUndefined {v : JsValue} (h : v.isUndefined = true) : v = .undefined := by
  cases v with
  | undefined => rfl
  | _ => cases h

/-- A member that is defined is a document. -/
theorem JsonLike.of_mem {entries : List (String × JsValue)} (h : (JsValue.obj entries).JsonLike)
    {e : String × JsValue} (he : e ∈ entries) (hdefined : e.2.isUndefined = false) : e.2.JsonLike := by
  refine (membersJsonLike_iff.1 h.2 e he).resolve_left fun hundefined => ?_
  rw [hundefined] at hdefined
  cases hdefined

section
variable {motive : JsValue → Prop}

mutual

/-- Arrays hold for their items, objects for their members. -/
theorem induct (leaf : ∀ v : JsValue, (∀ items, v ≠ .arr items) → (∀ entries, v ≠ .obj entries) → motive v)
    (arr : ∀ items : List JsValue, (∀ v ∈ items, motive v) → motive (.arr items))
    (obj : ∀ entries : List (String × JsValue), (∀ e ∈ entries, motive e.2) → motive (.obj entries)) :
    ∀ v : JsValue, motive v
  | .arr items => arr items (inductItems leaf arr obj items)
  | .obj entries => obj entries (inductEntries leaf arr obj entries)
  | .undefined => leaf _ nofun nofun
  | .null => leaf _ nofun nofun
  | .bool _ => leaf _ nofun nofun
  | .num _ => leaf _ nofun nofun
  | .str _ => leaf _ nofun nofun
  | .method => leaf _ nofun nofun
  | .prototype => leaf _ nofun nofun

theorem inductItems (leaf : ∀ v : JsValue, (∀ items, v ≠ .arr items) → (∀ entries, v ≠ .obj entries) → motive v)
    (arr : ∀ items : List JsValue, (∀ v ∈ items, motive v) → motive (.arr items))
    (obj : ∀ entries : List (String × JsValue), (∀ e ∈ entries, motive e.2) → motive (.obj entries)) :
    ∀ items : List JsValue, ∀ v ∈ items, motive v
  | [], _, hv => nomatch hv
  | w :: items, v, hv => (List.mem_cons.1 hv).elim (fun h => h ▸ induct leaf arr obj w)
      (inductItems leaf arr obj items v)

theorem inductEntries (leaf : ∀ v : JsValue, (∀ items, v ≠ .arr items) → (∀ entries, v ≠ .obj entries) → motive v)
    (arr : ∀ items : List JsValue, (∀ v ∈ items, motive v) → motive (.arr items))
    (obj : ∀ entries : List (String × JsValue), (∀ e ∈ entries, motive e.2) → motive (.obj entries)) :
    ∀ entries : List (String × JsValue), ∀ e ∈ entries, motive e.2
  | [], _, he => nomatch he
  | (_, w) :: entries, e, he => (List.mem_cons.1 he).elim (fun h => h ▸ induct leaf arr obj w)
      (inductEntries leaf arr obj entries e)

end

end

/-! ### JSON documents as values -/

mutual

/-- `JSON.parse` of the text of a document. -/
def ofJson : Json → JsValue
  | .null => .null
  | .bool b => .bool b
  | .num n => .num n
  | .str s => .str s
  | .arr items => .arr (ofItems items)
  | .obj entries => .obj (ofEntries entries)

def ofItems : List Json → List JsValue
  | [] => []
  | v :: items => ofJson v :: ofItems items

def ofEntries : List (String × Json) → List (String × JsValue)
  | [] => []
  | (k, v) :: entries => (k, ofJson v) :: ofEntries entries

end

theorem ofItems_eq_map (items : List Json) : ofItems items = items.map ofJson := by
  induction items with
  | nil => rfl
  | cons v items ih => rw [ofItems, ih, List.map_cons]

theorem ofEntries_eq_map (entries : List (String × Json)) :
    ofEntries entries = entries.map fun e => (e.1, ofJson e.2) := by
  induction entries with
  | nil => rfl
  | cons e entries ih => rw [ofEntries, ih, List.map_cons]

theorem isUndefined_ofJson (v : Json) : (ofJson v).isUndefined = false := by
  cases v <;> rfl

theorem lookup_ofEntries (entries : List (String × Json)) (key : String) :
    (ofEntries entries).lookup key = (Js.lookup key entries).map ofJson := by
  induction entries with
  | nil => rfl
  | cons e entries ih =>
    obtain ⟨k, v⟩ := e
    rw [ofEntries, List.lookup_cons, Js.lookup, ih]
    by_cases hkey : key = k
    · subst hkey
      rw [beq_self_eq_true, if_pos rfl]
      rfl
    · have hne : (key == k) = false := by simpa using hkey
      rw [hne, if_neg fun h => hkey h.symm]

/-! ### The JSON document of a value -/

section
variable (orderItems : List Json → List Json) (orderMembers : List (String × Json) → List (String × Json))

mutual

/-- The document with its lists and the members of its objects rearranged; a member that is `undefined` is left out. -/
def sortedJson : JsValue → Json
  | .bool b => .bool b
  | .num n => .num n
  | .str s => .str s
  | .arr items => .arr (orderItems (sortedItems items))
  | .obj entries => .obj (orderMembers (sortedMembers entries))
  | _ => .null

def sortedItems : List JsValue → List Json
  | [] => []
  | v :: items => sortedJson v :: sortedItems items

def sortedMembers : List (String × JsValue) → List (String × Json)
  | [] => []
  | (k, v) :: entries => if v.isUndefined then sortedMembers entries else (k, sortedJson v) :: sortedMembers entries

end

variable {orderItems : List Json → List Json} {orderMembers : List (String × Json) → List (String × Json)}

theorem sortedItems_eq_map (items : List JsValue) :
    sortedItems orderItems orderMembers items = items.map (sortedJson orderItems orderMembers) := by
  induction items with
  | nil => rfl
  | cons v items ih => rw [sortedItems, ih, List.map_cons]

theorem keys_sortedMembers (entries : List (String × JsValue)) :
    ((sortedMembers orderItems orderMembers entries).map Prod.fst).Sublist (entries.map Prod.fst) := by
  induction entries with
  | nil => exact List.Sublist.slnil
  | cons e entries ih =>
    obtain ⟨k, v⟩ := e
    rw [sortedMembers]
    split
    · exact ih.cons k
    · exact ih.cons_cons k

theorem nodup_sortedMembers {entries : List (String × JsValue)} (h : (entries.map Prod.fst).Nodup) :
    ((sortedMembers orderItems orderMembers entries).map Prod.fst).Nodup := h.sublist (keys_sortedMembers entries)

theorem length_sortedMembers (entries : List (String × JsValue)) :
    (sortedMembers orderItems orderMembers entries).length = definedCount (.obj entries) := by
  change _ = (entries.filter fun e => !e.2.isUndefined).length
  induction entries with
  | nil => rfl
  | cons e entries ih =>
    obtain ⟨k, v⟩ := e
    rw [sortedMembers, List.filter_cons]
    cases hv : v.isUndefined with
    | true => simpa using ih
    | false => simpa using ih

theorem lookup_sortedMembers {entries : List (String × JsValue)} (h : (entries.map Prod.fst).Nodup) (key : String) :
    lookup key (sortedMembers orderItems orderMembers entries) = (entries.lookup key).bind fun v =>
      if v.isUndefined then none else some (sortedJson orderItems orderMembers v) := by
  induction entries with
  | nil => rfl
  | cons e entries ih =>
    obtain ⟨k, v⟩ := e
    obtain ⟨hk, hrest⟩ := List.nodup_cons.1 h
    rw [sortedMembers, List.lookup_cons]
    by_cases hkey : key = k
    · subst hkey
      rw [beq_self_eq_true]
      cases hv : v.isUndefined with
      | true =>
        have hnone : lookup key (sortedMembers orderItems orderMembers entries) = none :=
          lookup_eq_none_iff.2 fun hmem => hk ((keys_sortedMembers entries).subset hmem)
        simpa [hv] using hnone
      | false => simp [lookup, hv]
    · have hne : (key == k) = false := by simpa using hkey
      have hne' : k ≠ key := fun h => hkey h.symm
      rw [hne, ← ih hrest]
      cases hv : v.isUndefined with
      | true => rfl
      | false => simp [lookup, hne']

theorem sortedMembers_append (a b : List (String × JsValue)) :
    sortedMembers orderItems orderMembers (a ++ b) =
      sortedMembers orderItems orderMembers a ++ sortedMembers orderItems orderMembers b := by
  induction a with
  | nil => rfl
  | cons e a ih =>
    obtain ⟨k, v⟩ := e
    rw [List.cons_append, sortedMembers, sortedMembers, ih]
    split <;> rfl

theorem sortedMembers_eq_map (entries : List (String × JsValue)) : sortedMembers orderItems orderMembers entries =
    (entries.filter fun e => !e.2.isUndefined).map fun e => (e.1, sortedJson orderItems orderMembers e.2) := by
  induction entries with
  | nil => rfl
  | cons e entries ih =>
    obtain ⟨k, v⟩ := e
    rw [sortedMembers, ih, List.filter_cons]
    cases hv : v.isUndefined <;> simp

theorem lookup_eq_none_of_notMem {entries : List (String × JsValue)} {key : String}
    (h : key ∉ entries.map Prod.fst) : entries.lookup key = none := by
  rw [List.lookup_eq_none_iff]
  intro e he
  rw [bne_iff_ne]
  rintro rfl
  exact h (List.mem_map_of_mem he)

theorem lookup_of_mem_entries {entries : List (String × JsValue)} (h : (entries.map Prod.fst).Nodup)
    {e : String × JsValue} (he : e ∈ entries) : entries.lookup e.1 = some e.2 := by
  induction entries with
  | nil => cases he
  | cons d entries ih =>
    obtain ⟨hk, hrest⟩ := List.nodup_cons.1 h
    rw [List.lookup_cons]
    rcases List.mem_cons.1 he with rfl | he
    · rw [beq_self_eq_true]
    · have hne : (e.1 == d.1) = false := by
        rw [beq_eq_false_iff_ne]
        intro heq
        exact hk (heq ▸ List.mem_map_of_mem he)
      rw [hne]
      exact ih hrest he

end

end JsValue

/-! ### Pairs of items -/

theorem forall₂_congr_of_mem {α β : Type} {R S : α → β → Prop} {l : List α} {l' : List β}
    (h : ∀ a ∈ l, ∀ b ∈ l', (R a b ↔ S a b)) : List.Forall₂ R l l' ↔ List.Forall₂ S l l' := by
  induction l generalizing l' with
  | nil => rw [List.forall₂_nil_left_iff, List.forall₂_nil_left_iff]
  | cons a l ih =>
    cases l' with
    | nil => simp
    | cons b l' =>
      rw [List.forall₂_cons, List.forall₂_cons, h a List.mem_cons_self b List.mem_cons_self,
        ih fun c hc d hd => h c (List.mem_cons_of_mem _ hc) d (List.mem_cons_of_mem _ hd)]

theorem exists_of_forall₂ {α β : Type} {R : α → β → Prop} {l : List α} {l' : List β} (h : List.Forall₂ R l l') {a : α}
    (ha : a ∈ l) : ∃ b ∈ l', R a b := by
  induction h with
  | nil => cases ha
  | cons hpair _ ih =>
    rcases List.mem_cons.1 ha with rfl | ha
    · exact ⟨_, List.mem_cons_self, hpair⟩
    · obtain ⟨b, hb, hpair⟩ := ih ha
      exact ⟨b, List.mem_cons_of_mem _ hb, hpair⟩

/-- Lists that differ in one place are related as their elements there. -/
theorem forall₂_replace_iff {α : Type} {R : α → α → Prop} {pre post : List α} {a b : α}
    (h : ∀ c ∈ pre ++ post, R c c) : List.Forall₂ R (pre ++ a :: post) (pre ++ b :: post) ↔ R a b := by
  induction pre with
  | nil =>
    rw [List.nil_append, List.nil_append, List.forall₂_cons]
    exact and_iff_left (List.forall₂_same.2 h)
  | cons c pre ih =>
    rw [List.cons_append, List.cons_append, List.forall₂_cons,
      ih fun d hd => h d (List.mem_cons_of_mem _ hd)]
    exact and_iff_right (h c List.mem_cons_self)

/-! ### The order of members -/

/-- An order of members that depends on their names only. -/
structure KeyOrder (orderMembers : List (String × Json) → List (String × Json)) : Prop where
  perm (l : List (String × Json)) : (orderMembers l).Perm l
  unique (a b : List (String × Json)) (h : (a.map Prod.fst).Nodup) (hab : a.Perm b) : orderMembers a = orderMembers b

theorem perm_iff_lookup {a b : List (String × Json)} (ha : (a.map Prod.fst).Nodup) (hb : (b.map Prod.fst).Nodup) :
    a.Perm b ↔ ∀ key, lookup key a = lookup key b := by
  have hmem : ∀ {l : List (String × Json)}, (l.map Prod.fst).Nodup → ∀ k v, (k, v) ∈ l ↔ lookup k l = some v :=
    fun hl k v => ⟨lookup_of_mem hl, mem_of_lookup⟩
  rw [List.perm_ext_iff_of_nodup ha.of_map hb.of_map]
  constructor
  · intro h key
    ext v
    rw [← hmem ha, ← hmem hb]
    exact h (key, v)
  · rintro h ⟨k, v⟩
    rw [hmem ha, hmem hb, h k]

theorem KeyOrder.eq_iff {orderMembers : List (String × Json) → List (String × Json)} (h : KeyOrder orderMembers)
    {a b : List (String × Json)} (ha : (a.map Prod.fst).Nodup) (hb : (b.map Prod.fst).Nodup) :
    orderMembers a = orderMembers b ↔ ∀ key, lookup key a = lookup key b := by
  rw [← perm_iff_lookup ha hb]
  constructor
  · intro heq
    exact ((h.perm a).symm.trans (heq ▸ List.Perm.refl _)).trans (h.perm b)
  · exact h.unique a b ha

theorem total_jsLt {α : Type} (key : α → String) : Std.Total fun a b => (!jsLt (key b) (key a)) = true where
  total a b := by
    rcases jsLt_trichotomy (key a) (key b) with h | h | h
    · exact .inl (by simp [jsLt_asymm h])
    · exact .inl (by simp [h, jsLt_irrefl])
    · exact .inr (by simp [jsLt_asymm h])

theorem trans_jsLt {α : Type} (key : α → String) : IsTrans α fun a b => (!jsLt (key b) (key a)) = true where
  trans a b c hab hbc := by
    rw [Bool.not_eq_true'] at hab hbc ⊢
    by_contra hca
    rw [Bool.not_eq_false] at hca
    rcases jsLt_trichotomy (key a) (key b) with h | h | h
    · rw [jsLt_trans hca h] at hbc
      cases hbc
    · rw [h] at hca
      rw [hca] at hbc
      cases hbc
    · rw [h] at hab
      cases hab

/-- Sorting by a name that tells the elements apart forgets their order. -/
theorem insertionSort_eq_of_perm {α : Type} (key : α → String) {a b : List α} (h : (a.map key).Nodup) (hab : a.Perm b) :
    a.insertionSort (fun x y => !jsLt (key y) (key x)) = b.insertionSort fun x y => !jsLt (key y) (key x) := by
  have := total_jsLt key
  have := trans_jsLt key
  refine List.Perm.eq_of_pairwise ?_ (List.pairwise_insertionSort _ a) (List.pairwise_insertionSort _ b)
    (((List.perm_insertionSort _ a).trans hab).trans (List.perm_insertionSort _ b).symm)
  intro x y hx hy hxy hyx
  rw [Bool.not_eq_true'] at hxy hyx
  have hkey : key x = key y := by
    rcases jsLt_trichotomy (key x) (key y) with h | h | h
    · rw [h] at hyx
      cases hyx
    · exact h
    · rw [h] at hxy
      cases hxy
  have hxa : x ∈ a := (List.perm_insertionSort _ a).mem_iff.1 hx
  have hya : y ∈ a := hab.mem_iff.2 ((List.perm_insertionSort _ b).mem_iff.1 hy)
  exact List.inj_on_of_nodup_map h hxa hya hkey

theorem perm_propertyOrder {α : Type} (l : List (String × α)) : (propertyOrder l).Perm l := by
  have hsplit := List.filter_append_perm (fun e : String × α => (arrayIndex? e.1).isSome) l
  have hnone : (l.filter fun e => !(arrayIndex? e.1).isSome) = l.filter fun e => (arrayIndex? e.1).isNone :=
    List.filter_congr fun e _ => by cases arrayIndex? e.1 <;> rfl
  rw [hnone] at hsplit
  exact ((List.perm_insertionSort _ _).append_right _).trans hsplit

theorem keyOrder_sortKeys : KeyOrder sortKeys where
  perm l := List.perm_insertionSort _ l
  unique _ _ h hab := insertionSort_eq_of_perm Prod.fst h hab

/-- The order in which an object enumerates members that were added in the order of their names. -/
theorem keyOrder_propertyOrder : KeyOrder fun l => propertyOrder (sortKeys l) where
  perm l := (perm_propertyOrder _).trans (keyOrder_sortKeys.perm l)
  unique a b h hab := congrArg propertyOrder (keyOrder_sortKeys.unique a b h hab)

end Mindwtr.Js
