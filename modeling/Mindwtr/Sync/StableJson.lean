import Mindwtr.Js.SortedJson
import Mindwtr.Sync.RemotePayload

/-!
# Stable JSON

`toStableSyncJson` of `sync-helpers.ts` writes a document with the members of its objects in the order of their names
and the lists of records with ids in the order of the ids. One traversal keeps the last few orders of names that it
sorted; they change nothing (`normalizeForSyncComparison_orders`).

An object that is being normalised takes a member `__proto__` as what it inherits from, and the text leaves it out. Of
documents without such members the texts are the same when the documents are (`stableText_eq_iff`).
-/

namespace Mindwtr.Sync.StableJson

open Mindwtr.Js Mindwtr.Js.JsValue

/-! ### The orders of names -/

structure SyncPropertyOrder where
  original : List String
  sorted : List String
deriving DecidableEq, Repr

/-- `properties.slice().sort()` -/
def sortNames (properties : List String) : List String := properties.insertionSort fun a b => !jsLt b a

def getSortedSyncProperties (properties : List String) (orders : List SyncPropertyOrder) :
    List String × List SyncPropertyOrder :=
  match orders.find? fun order => properties == order.original with
  | some order => (order.sorted, orders)
  | none =>
    let sorted := sortNames properties
    let kept := if orders.length = 8 then orders.tail else orders
    (sorted, kept ++ [⟨properties, sorted⟩])

/-! ### Normalising -/

mutual

/-- `item.id`; a member `__proto__` of a normalised object is what the object inherits from. -/
def readId : JsValue → JsValue
  | .obj entries => (entries.lookup "id").getD (readInheritedId entries)
  | _ => .undefined

def readInheritedId : List (String × JsValue) → JsValue
  | [] => .undefined
  | (k, v) :: entries => if k = "__proto__" then readId v else readInheritedId entries

end

def strOf? : JsValue → Option String
  | .str s => some s
  | _ => none

def idOf? (item : JsValue) : Option String := strOf? (readId item)

/-- Records of which every one has an id are sorted by it. -/
def sortIfIdKeyed (items : List JsValue) : List JsValue :=
  if 1 < items.length ∧ items.all fun item => (idOf? item).isSome then
    items.insertionSort fun left right => !jsLt ((idOf? right).getD "") ((idOf? left).getD "")
  else items

/-- What an object can inherit from. -/
def canBeInherited : JsValue → Bool
  | .null => true
  | .arr _ => true
  | .obj _ => true
  | _ => false

/-- `normalized[key] = value`, where the object has no such member yet. -/
def assign (normalized : List (String × JsValue)) (key : String) (value : JsValue) : List (String × JsValue) :=
  if key = "__proto__" ∧ canBeInherited value = false then normalized else normalized ++ [(key, value)]

/-- Normalises a value with the orders of names so far. -/
abbrev Normalizer (α : Type) := List SyncPropertyOrder → α × List SyncPropertyOrder

/-- The loop over the sorted names of an object; `members` normalise what it has under them. -/
def normalizeMembers (members : List (String × Normalizer JsValue)) :
    List String → List (String × JsValue) → Normalizer (List (String × JsValue))
  | [], normalized, orders => (normalized, orders)
  | key :: keys, normalized, orders =>
    let (value, orders) := (members.lookup key).elim (.undefined, orders) fun normalize => normalize orders
    normalizeMembers members keys (assign normalized key value) orders

mutual

def normalizeForSyncComparison : JsValue → Normalizer JsValue
  | .arr items => fun orders =>
    let (items, orders) := normalizeItems items orders
    (.arr (sortIfIdKeyed items), orders)
  | .obj entries => fun orders =>
    let (keys, orders) := getSortedSyncProperties (entries.map Prod.fst) orders
    let (normalized, orders) := normalizeMembers (normalizers entries) keys [] orders
    (.obj normalized, orders)
  | value => fun orders => (value, orders)

def normalizeItems : List JsValue → Normalizer (List JsValue)
  | [] => fun orders => ([], orders)
  | v :: items => fun orders =>
    let (v, orders) := normalizeForSyncComparison v orders
    let (items, orders) := normalizeItems items orders
    (v :: items, orders)

def normalizers : List (String × JsValue) → List (String × Normalizer JsValue)
  | [] => []
  | (k, v) :: entries => (k, normalizeForSyncComparison v) :: normalizers entries

end

/-! ### The text -/

/-- The own members of a normalised object in the order in which it enumerates them. -/
def ownMembers (members : List (String × Json)) : List (String × Json) :=
  propertyOrder (members.filter fun e => e.1 ≠ "__proto__")

/-- What is written of a normalised value. -/
def written (normalized : JsValue) : Json := sortedJson id ownMembers normalized

def toStableSyncJson [Runtime] (value : JsValue) : String := stringify (written (normalizeForSyncComparison value []).1)

/-! ### What is computed without the orders -/

/-- What a normalised object keeps of an assignment. -/
def isKept (e : String × JsValue) : Bool := e.1 != "__proto__" || canBeInherited e.2

mutual

/-- The normalised value, where every object's names are sorted afresh. -/
def normalForm : JsValue → JsValue
  | .arr items => .arr (sortIfIdKeyed (normalItems items))
  | .obj entries => .obj ((sortKeys (normalMembers entries)).filter isKept)
  | value => value

def normalItems : List JsValue → List JsValue
  | [] => []
  | v :: items => normalForm v :: normalItems items

def normalMembers : List (String × JsValue) → List (String × JsValue)
  | [] => []
  | (k, v) :: entries => (k, normalForm v) :: normalMembers entries

end

theorem normalItems_eq_map (items : List JsValue) : normalItems items = items.map normalForm := by
  induction items with
  | nil => rfl
  | cons v items ih => rw [normalItems, ih, List.map_cons]

theorem normalMembers_eq_map (entries : List (String × JsValue)) :
    normalMembers entries = entries.map fun e => (e.1, normalForm e.2) := by
  induction entries with
  | nil => rfl
  | cons e entries ih => rw [normalMembers, ih, List.map_cons]

theorem normalizers_eq_map (entries : List (String × JsValue)) :
    normalizers entries = entries.map fun e => (e.1, normalizeForSyncComparison e.2) := by
  induction entries with
  | nil => rfl
  | cons e entries ih => rw [normalizers, ih, List.map_cons]

/-- Every order that is kept is the sorted one. -/
def SoundOrders (orders : List SyncPropertyOrder) : Prop := ∀ order ∈ orders, order.sorted = sortNames order.original

theorem soundOrders_nil : SoundOrders [] := nofun

/-- A step that is not affected by the orders, and keeps them sound. -/
def Ignores {α : Type} (normalize : Normalizer α) (a : α) : Prop :=
  ∀ orders, SoundOrders orders → (normalize orders).1 = a ∧ SoundOrders (normalize orders).2

theorem getSortedSyncProperties_ignores (properties : List String) :
    Ignores (getSortedSyncProperties properties) (sortNames properties) := by
  intro orders hsound
  unfold getSortedSyncProperties
  cases hfind : orders.find? fun order => properties == order.original with
  | some order =>
    have heq : properties = order.original := by simpa using List.find?_some hfind
    refine ⟨?_, hsound⟩
    rw [heq]
    exact hsound order (List.mem_of_find?_eq_some hfind)
  | none =>
    refine ⟨rfl, fun order horder => ?_⟩
    rcases List.mem_append.1 horder with hkept | hnew
    · split at hkept
      · exact hsound order (List.mem_of_mem_tail hkept)
      · exact hsound order hkept
    · rw [List.mem_singleton.1 hnew]

theorem assign_eq (normalized : List (String × JsValue)) (key : String) (value : JsValue) :
    assign normalized key value = normalized ++ [(key, value)].filter isKept := by
  rw [assign, List.filter_singleton]
  by_cases hkey : key = "__proto__"
  · cases hvalue : canBeInherited value <;> simp [hkey, hvalue, isKept]
  · have hne : (key != "__proto__") = true := by simpa using hkey
    simp [hkey, hne, isKept]

theorem normalizeMembers_ignores {members : List (String × Normalizer JsValue)} {value : String → JsValue}
    {keys : List String}
    (h : ∀ key ∈ keys, ∃ normalize, members.lookup key = some normalize ∧ Ignores normalize (value key))
    (normalized : List (String × JsValue)) :
    Ignores (normalizeMembers members keys normalized)
      (normalized ++ (keys.map fun key => (key, value key)).filter isKept) := by
  induction keys generalizing normalized with
  | nil =>
    intro orders hsound
    rw [List.map_nil, List.filter_nil, List.append_nil]
    exact ⟨rfl, hsound⟩
  | cons key keys ih =>
    intro orders hsound
    obtain ⟨normalize, hlookup, hignores⟩ := h key List.mem_cons_self
    obtain ⟨hvalue, hsound'⟩ := hignores orders hsound
    have hrest := ih (fun k hk => h k (List.mem_cons_of_mem _ hk)) (assign normalized key (value key)) _ hsound'
    rw [normalizeMembers, hlookup, Option.elim_some]
    dsimp only
    rw [hvalue]
    refine ⟨hrest.1.trans ?_, hrest.2⟩
    rw [assign_eq, List.append_assoc, ← List.filter_append]
    rfl

/-- The sorted members of an object, read by their names. -/
theorem sortKeys_eq_map (entries : List (String × JsValue)) (h : (entries.map Prod.fst).Nodup) :
    (sortNames (entries.map Prod.fst)).map (fun key => (key, (entries.lookup key).getD .undefined)) =
      sortKeys entries := by
  have hnames : sortNames (entries.map Prod.fst) = (sortKeys entries).map Prod.fst :=
    (List.map_insertionSort _ _ Prod.fst entries fun _ _ _ _ => Iff.rfl).symm
  rw [hnames, List.map_map]
  refine (List.map_congr_left fun e he => ?_).trans (List.map_id _)
  have hmem : e ∈ entries := (List.perm_insertionSort _ entries).mem_iff.1 he
  rw [Function.comp_apply, lookup_of_mem_entries h hmem, Option.getD_some, id]

theorem lookup_normalizers (entries : List (String × JsValue)) (key : String) :
    (normalizers entries).lookup key = (entries.lookup key).map normalizeForSyncComparison := by
  induction entries with
  | nil => rfl
  | cons e entries ih =>
    obtain ⟨k, v⟩ := e
    rw [normalizers, List.lookup_cons, List.lookup_cons, ih]
    cases key == k <;> rfl

theorem lookup_normalMembers (entries : List (String × JsValue)) (key : String) :
    (normalMembers entries).lookup key = (entries.lookup key).map normalForm := by
  induction entries with
  | nil => rfl
  | cons e entries ih =>
    obtain ⟨k, v⟩ := e
    rw [normalMembers, List.lookup_cons, List.lookup_cons, ih]
    cases key == k <;> rfl

theorem keys_normalMembers (entries : List (String × JsValue)) :
    (normalMembers entries).map Prod.fst = entries.map Prod.fst := by
  rw [normalMembers_eq_map, List.map_map]
  rfl

theorem normalizeItems_ignores {items : List JsValue}
    (h : ∀ v ∈ items, Ignores (normalizeForSyncComparison v) (normalForm v)) :
    Ignores (normalizeItems items) (normalItems items) := by
  induction items with
  | nil => exact fun orders hsound => ⟨rfl, hsound⟩
  | cons v items ih =>
    intro orders hsound
    obtain ⟨hvalue, hsound'⟩ := h v List.mem_cons_self orders hsound
    obtain ⟨hrest, hsound''⟩ := ih (fun w hw => h w (List.mem_cons_of_mem _ hw)) _ hsound'
    rw [normalizeItems, normalItems, ← hvalue, ← hrest]
    exact ⟨rfl, hsound''⟩

/-- The orders of names change nothing. -/
theorem normalizeForSyncComparison_orders {value : JsValue} (h : value.JsonLike) :
    Ignores (normalizeForSyncComparison value) (normalForm value) := by
  induction value using JsValue.induct with
  | leaf value harr hobj =>
    intro orders hsound
    cases value with
    | arr items => exact absurd rfl (harr items)
    | obj entries => exact absurd rfl (hobj entries)
    | _ => exact ⟨rfl, hsound⟩
  | arr items ih =>
    intro orders hsound
    obtain ⟨hitems, hsound'⟩ :=
      normalizeItems_ignores (fun v hv => ih v hv (itemsJsonLike_iff.1 h v hv)) orders hsound
    rw [normalizeForSyncComparison, normalForm, ← hitems]
    exact ⟨rfl, hsound'⟩
  | obj entries ih =>
    obtain ⟨hnodup, hmembers⟩ := h
    intro orders hsound
    obtain ⟨hkeys, hsound'⟩ := getSortedSyncProperties_ignores (entries.map Prod.fst) orders hsound
    have hmember : ∀ key ∈ sortNames (entries.map Prod.fst), ∃ normalize,
        (normalizers entries).lookup key = some normalize ∧
          Ignores normalize (((normalMembers entries).lookup key).getD .undefined) := by
      intro key hkey
      obtain ⟨e, he, rfl⟩ := List.mem_map.1 ((List.perm_insertionSort _ _).mem_iff.1 hkey)
      rw [lookup_normalizers, lookup_normalMembers, lookup_of_mem_entries hnodup he]
      refine ⟨_, rfl, ?_⟩
      rcases membersJsonLike_iff.1 hmembers e he with hundefined | hlike
      · rw [hundefined]
        exact fun orders hsound => ⟨rfl, hsound⟩
      · exact ih e he hlike
    obtain ⟨hloop, hsound''⟩ := normalizeMembers_ignores hmember [] _ hsound'
    have hsorted := sortKeys_eq_map (normalMembers entries) (by rwa [keys_normalMembers])
    rw [keys_normalMembers] at hsorted
    rw [hsorted, List.nil_append] at hloop
    rw [normalizeForSyncComparison, normalForm, ← hloop]
    dsimp only
    rw [hkeys]
    exact ⟨rfl, hsound''⟩

/-! ### Documents that are the same -/

/-- The id of a record, where it has one. -/
def ownId? : JsValue → Option String
  | .obj entries => (entries.lookup "id").bind strOf?
  | _ => none

def IdKeyed (items : List JsValue) : Prop := ∀ item ∈ items, (ownId? item).isSome

mutual

/-- In every list of records with ids, no two have one id. -/
def UniqueIds : JsValue → Prop
  | .arr items => (IdKeyed items → (items.map ownId?).Nodup) ∧ ItemsUniqueIds items
  | .obj entries => MembersUniqueIds entries
  | _ => True

def ItemsUniqueIds : List JsValue → Prop
  | [] => True
  | v :: items => UniqueIds v ∧ ItemsUniqueIds items

def MembersUniqueIds : List (String × JsValue) → Prop
  | [] => True
  | (_, v) :: entries => UniqueIds v ∧ MembersUniqueIds entries

end

mutual

/-- No object has a defined member `__proto__`. -/
def AvoidsProto : JsValue → Prop
  | .arr items => ItemsAvoidProto items
  | .obj entries => MembersAvoidProto entries
  | _ => True

def ItemsAvoidProto : List JsValue → Prop
  | [] => True
  | v :: items => AvoidsProto v ∧ ItemsAvoidProto items

def MembersAvoidProto : List (String × JsValue) → Prop
  | [] => True
  | (k, v) :: entries => ((k = "__proto__" → v = .undefined) ∧ AvoidsProto v) ∧ MembersAvoidProto entries

end

/-- The member of an object under a name, where it is defined. -/
def member (entries : List (String × JsValue)) (key : String) : Option JsValue :=
  (entries.lookup key).bind fun v => if v.isUndefined then none else some v

mutual

/-- The documents are equal up to the order of the members of objects and of the items of lists of records with ids; a
member that is `undefined` is one that is missing. -/
def Same : JsValue → JsValue → Prop
  | .arr ls, right =>
    ∃ rs, right = .arr rs ∧ ∃ rs', (rs' = rs ∨ (IdKeyed ls ∧ IdKeyed rs ∧ rs'.Perm rs)) ∧ SameItems ls rs'
  | .obj ls, right =>
    ∃ rs, right = .obj rs ∧ SameMembers ls rs ∧ ∀ key, (member rs key).isSome → (member ls key).isSome
  | left, right => left = right

def SameItems : List JsValue → List JsValue → Prop
  | [], rs => rs = []
  | l :: ls, rs => ∃ r rs', rs = r :: rs' ∧ Same l r ∧ SameItems ls rs'

def SameMembers : List (String × JsValue) → List (String × JsValue) → Prop
  | [], _ => True
  | (key, l) :: ls, rs =>
    (if l.isUndefined then member rs key = none else ∃ r, member rs key = some r ∧ Same l r) ∧ SameMembers ls rs

end

theorem itemsUniqueIds_iff {items : List JsValue} : ItemsUniqueIds items ↔ ∀ v ∈ items, UniqueIds v := by
  induction items with
  | nil => simp [ItemsUniqueIds]
  | cons v items ih => simp [ItemsUniqueIds, ih]

theorem membersUniqueIds_iff {entries : List (String × JsValue)} :
    MembersUniqueIds entries ↔ ∀ e ∈ entries, UniqueIds e.2 := by
  induction entries with
  | nil => simp [MembersUniqueIds]
  | cons e entries ih => simp [MembersUniqueIds, ih]

theorem itemsAvoidProto_iff {items : List JsValue} : ItemsAvoidProto items ↔ ∀ v ∈ items, AvoidsProto v := by
  induction items with
  | nil => simp [ItemsAvoidProto]
  | cons v items ih => simp [ItemsAvoidProto, ih]

theorem membersAvoidProto_iff {entries : List (String × JsValue)} :
    MembersAvoidProto entries ↔ ∀ e ∈ entries, (e.1 = "__proto__" → e.2 = .undefined) ∧ AvoidsProto e.2 := by
  induction entries with
  | nil => simp [MembersAvoidProto]
  | cons e entries ih =>
    obtain ⟨k, v⟩ := e
    rw [MembersAvoidProto, ih, List.forall_mem_cons]

theorem sameItems_iff {ls rs : List JsValue} : SameItems ls rs ↔ List.Forall₂ Same ls rs := by
  induction ls generalizing rs with
  | nil => rw [SameItems, List.forall₂_nil_left_iff]
  | cons l ls ih =>
    rw [SameItems, List.forall₂_cons_left_iff]
    constructor
    · rintro ⟨r, rs', rfl, hsame, hrest⟩
      exact ⟨r, rs', hsame, ih.1 hrest, rfl⟩
    · rintro ⟨r, rs', hsame, hrest, rfl⟩
      exact ⟨r, rs', rfl, hsame, ih.2 hrest⟩

theorem sameMembers_iff {ls rs : List (String × JsValue)} : SameMembers ls rs ↔ ∀ e ∈ ls,
    if e.2.isUndefined then member rs e.1 = none else ∃ r, member rs e.1 = some r ∧ Same e.2 r := by
  induction ls with
  | nil => simp [SameMembers]
  | cons e ls ih =>
    obtain ⟨k, v⟩ := e
    rw [SameMembers, ih, List.forall_mem_cons]

/-! ### What is written of an object -/

section
variable {entries : List (String × JsValue)}

/-- The members of the normalised object, and what it inherits from. -/
def normalEntries (entries : List (String × JsValue)) : List (String × JsValue) :=
  (sortKeys (normalMembers entries)).filter isKept

theorem mem_normalEntries {e : String × JsValue} :
    e ∈ normalEntries entries ↔ (∃ d ∈ entries, (d.1, normalForm d.2) = e) ∧ isKept e = true := by
  rw [normalEntries, List.mem_filter, sortKeys, List.mem_insertionSort, normalMembers_eq_map, List.mem_map]

theorem nodup_normalEntries (h : (entries.map Prod.fst).Nodup) : ((normalEntries entries).map Prod.fst).Nodup := by
  have hperm := (List.perm_insertionSort (fun a b => !jsLt b.1 a.1) (normalMembers entries)).map Prod.fst
  rw [keys_normalMembers] at hperm
  exact (hperm.nodup_iff.2 h).sublist (List.filter_sublist.map _)

theorem isUndefined_normalForm (v : JsValue) : (normalForm v).isUndefined = v.isUndefined := by
  cases v <;> rfl

/-- The members that are written, with what is written of them. -/
def writtenMembers (entries : List (String × JsValue)) : List (String × Json) :=
  (entries.filter fun e => e.1 != "__proto__" && !e.2.isUndefined).map fun e => (e.1, written (normalForm e.2))

theorem keys_writtenMembers (entries : List (String × JsValue)) :
    ((writtenMembers entries).map Prod.fst).Sublist (entries.map Prod.fst) := by
  rw [writtenMembers, List.map_map]
  exact List.filter_sublist.map _

theorem nodup_writtenMembers (h : (entries.map Prod.fst).Nodup) : ((writtenMembers entries).map Prod.fst).Nodup :=
  h.sublist (keys_writtenMembers entries)

/-- The members that are written, in the order in which they were assigned. -/
theorem filter_sortedMembers_normalEntries :
    (sortedMembers id ownMembers (normalEntries entries)).filter (fun e => e.1 ≠ "__proto__") =
      ((sortKeys (normalMembers entries)).filter fun e => e.1 != "__proto__" && !e.2.isUndefined).map
        fun e => (e.1, written e.2) := by
  rw [sortedMembers_eq_map, List.filter_map, normalEntries, List.filter_filter, List.filter_filter]
  congr 1
  refine List.filter_congr fun e _ => ?_
  by_cases hkey : e.1 = "__proto__"
  · simp [hkey]
  · have hne : (e.1 != "__proto__") = true := by simpa using hkey
    simp [hkey, hne, isKept]

theorem written_obj (h : (entries.map Prod.fst).Nodup) :
    written (normalForm (.obj entries)) = .obj (propertyOrder (sortKeys (writtenMembers entries))) := by
  have hassigned : (sortKeys (normalMembers entries)).Pairwise fun a b => (!jsLt b.1 a.1) = true := by
    have := total_jsLt (Prod.fst (α := String) (β := JsValue))
    have := trans_jsLt (Prod.fst (α := String) (β := JsValue))
    exact List.pairwise_insertionSort _ _
  have hsorted : (((sortKeys (normalMembers entries)).filter fun e => e.1 != "__proto__" && !e.2.isUndefined).map
      fun e => (e.1, written e.2)).Pairwise fun a b => (!jsLt b.1 a.1) = true :=
    (hassigned.filter _).map _ fun _ _ hlt => hlt
  have hperm : (((sortKeys (normalMembers entries)).filter fun e => e.1 != "__proto__" && !e.2.isUndefined).map
      fun e => (e.1, written e.2)).Perm (writtenMembers entries) := by
    have hmembers : ((normalMembers entries).filter fun e => e.1 != "__proto__" && !e.2.isUndefined).map
        (fun e => (e.1, written e.2)) = writtenMembers entries := by
      rw [normalMembers_eq_map, List.filter_map, List.map_map]
      simp only [Function.comp_def, isUndefined_normalForm]
      rfl
    rw [← hmembers]
    exact ((List.perm_insertionSort _ (normalMembers entries)).filter _).map _
  change Json.obj (ownMembers (sortedMembers id ownMembers (normalEntries entries))) = _
  rw [ownMembers, filter_sortedMembers_normalEntries, ← hsorted.insertionSort_eq]
  congr 2
  exact keyOrder_sortKeys.unique _ _ (hperm.map Prod.fst |>.nodup_iff.2 (nodup_writtenMembers h)) hperm

/-! ### Ids -/

theorem lookup_id_normalEntries (h : (entries.map Prod.fst).Nodup) :
    (normalEntries entries).lookup "id" = (entries.lookup "id").map normalForm := by
  by_cases hid : "id" ∈ entries.map Prod.fst
  · obtain ⟨e, he, hkey⟩ := List.mem_map.1 hid
    have hmem : ("id", normalForm e.2) ∈ normalEntries entries :=
      mem_normalEntries.2 ⟨⟨e, he, by rw [hkey]⟩, rfl⟩
    rw [← hkey, lookup_of_mem_entries h he, hkey]
    exact lookup_of_mem_entries (nodup_normalEntries h) hmem
  · have habsent : "id" ∉ (normalEntries entries).map Prod.fst := by
      intro hmem
      obtain ⟨e, he, hkey⟩ := List.mem_map.1 hmem
      obtain ⟨⟨d, hd, rfl⟩, -⟩ := mem_normalEntries.1 he
      exact hid (List.mem_map.2 ⟨d, hd, hkey⟩)
    rw [lookup_eq_none_of_notMem hid, lookup_eq_none_of_notMem habsent]
    rfl

theorem ownId?_eq_some_iff {id : String} : ownId? (.obj entries) = some id ↔ entries.lookup "id" = some (.str id) := by
  rw [ownId?]
  cases hlookup : entries.lookup "id" with
  | none => simp
  | some v => cases v <;> simp [strOf?]

/-- An id of its own is the id of the normalised record. -/
theorem idOf?_of_ownId? {v : JsValue} (h : v.JsonLike) {id : String} (hid : ownId? v = some id) :
    idOf? (normalForm v) = some id := by
  cases v with
  | obj entries =>
    rw [ownId?_eq_some_iff] at hid
    change strOf? (((normalEntries entries).lookup "id").getD (readInheritedId (normalEntries entries))) = some id
    rw [lookup_id_normalEntries h.1, hid]
    rfl
  | _ => cases hid

theorem readInheritedId_eq_undefined {entries : List (String × JsValue)} (h : "__proto__" ∉ entries.map Prod.fst) :
    readInheritedId entries = .undefined := by
  induction entries with
  | nil => rfl
  | cons e entries ih =>
    obtain ⟨k, v⟩ := e
    rw [List.map_cons, List.mem_cons, not_or] at h
    rw [readInheritedId, if_neg fun hkey => h.1 hkey.symm, ih h.2]

/-- Without members `__proto__` a record has no other id. -/
theorem idOf?_normalForm {v : JsValue} (h : v.JsonLike) (havoids : AvoidsProto v) :
    idOf? (normalForm v) = ownId? v := by
  cases v with
  | obj entries =>
    have habsent : "__proto__" ∉ (normalEntries entries).map Prod.fst := by
      intro hmem
      obtain ⟨e, he, hkey⟩ := List.mem_map.1 hmem
      obtain ⟨⟨d, hd, rfl⟩, hkept⟩ := mem_normalEntries.1 he
      rw [isKept, hkey, ((membersAvoidProto_iff.1 havoids d hd).1 hkey)] at hkept
      cases hkept
    change strOf? (((normalEntries entries).lookup "id").getD (readInheritedId (normalEntries entries))) = _
    rw [lookup_id_normalEntries h.1, readInheritedId_eq_undefined habsent, ownId?]
    cases hlookup : entries.lookup "id" with
    | none => rfl
    | some v => cases v <;> rfl
  | _ => rfl

theorem lookup_propertyOrder {members : List (String × Json)} (h : (members.map Prod.fst).Nodup) (key : String) :
    lookup key (propertyOrder (sortKeys members)) = lookup key members := by
  have hperm := keyOrder_propertyOrder.perm members
  exact (perm_iff_lookup ((hperm.map Prod.fst).nodup_iff.2 h) h).1 hperm key

/-- The text has the id of the record. -/
theorem idOf?_written {v : JsValue} (h : v.JsonLike) : Sync.idOf? (written (normalForm v)) = ownId? v := by
  cases v with
  | obj entries =>
    obtain ⟨hnodup, hmembers⟩ := h
    rw [written_obj hnodup, ownId?, Sync.idOf?, prop, lookup_propertyOrder (nodup_writtenMembers hnodup)]
    by_cases hid : "id" ∈ entries.map Prod.fst
    · obtain ⟨e, he, hkey⟩ := List.mem_map.1 hid
      rw [← hkey, lookup_of_mem_entries hnodup he, hkey, Option.bind_some]
      rcases membersJsonLike_iff.1 hmembers e he with hundefined | hlike
      · have habsent : "id" ∉ (writtenMembers entries).map Prod.fst := by
          intro hmem
          obtain ⟨d, hd, hdkey⟩ := List.mem_map.1 hmem
          obtain ⟨c, hc, rfl⟩ := List.mem_map.1 hd
          obtain ⟨hcmem, hcdefined⟩ := List.mem_filter.1 hc
          have heq : c = e := List.inj_on_of_nodup_map hnodup hcmem he (hdkey.trans hkey.symm)
          rw [heq, hundefined] at hcdefined
          simp [isUndefined] at hcdefined
        rw [lookup_eq_none_iff.2 habsent, hundefined]
        rfl
      · have hmem : ("id", written (normalForm e.2)) ∈ writtenMembers entries := by
          refine List.mem_map.2 ⟨e, List.mem_filter.2 ⟨he, ?_⟩, by rw [hkey]⟩
          rw [hkey, hlike.not_undefined]
          rfl
        rw [lookup_of_mem (nodup_writtenMembers hnodup) hmem]
        cases hv : e.2 <;> rfl
    · have habsent : "id" ∉ (writtenMembers entries).map Prod.fst := fun hmem =>
        hid ((keys_writtenMembers entries).subset hmem)
      rw [lookup_eq_none_iff.2 habsent, lookup_eq_none_of_notMem hid]
      rfl
  | _ => rfl

end

/-! ### Lists of records -/

theorem sortById_of_idKeyed {items : List Json} (h : ∀ item ∈ items, (Sync.idOf? item).isSome) : sortById items =
    items.insertionSort fun a b => !jsLt ((Sync.idOf? b).getD "") ((Sync.idOf? a).getD "") := by
  rw [sortById, if_pos (List.all_eq_true.2 h)]

theorem sortById_of_not_idKeyed {items : List Json} (h : ¬∀ item ∈ items, (Sync.idOf? item).isSome) :
    sortById items = items := by
  rw [sortById, if_neg fun hall => h (List.all_eq_true.1 hall)]

/-- Of at most one item there is nothing to sort. -/
theorem sortIfIdKeyed_of_idKeyed {items : List JsValue} (h : ∀ v ∈ items, (idOf? v).isSome) : sortIfIdKeyed items =
    items.insertionSort fun left right => !jsLt ((idOf? right).getD "") ((idOf? left).getD "") := by
  rw [sortIfIdKeyed]
  by_cases hlength : 1 < items.length
  · rw [if_pos ⟨hlength, List.all_eq_true.2 h⟩]
  · rw [if_neg fun hand => hlength hand.1]
    rcases items with _ | ⟨v, _ | ⟨w, items⟩⟩
    · rfl
    · rfl
    · exact absurd (by simp) hlength

theorem sortIfIdKeyed_of_not_idKeyed {items : List JsValue} (h : ¬∀ v ∈ items, (idOf? v).isSome) :
    sortIfIdKeyed items = items := by
  rw [sortIfIdKeyed, if_neg fun hand => h (List.all_eq_true.1 hand.2)]

theorem perm_sortIfIdKeyed (items : List JsValue) : (sortIfIdKeyed items).Perm items := by
  unfold sortIfIdKeyed
  split
  · exact List.perm_insertionSort _ items
  · exact List.Perm.refl items

/-- Items whose texts have the same ids as they are sorted as their texts. -/
theorem map_sortIfIdKeyed {f : JsValue → Json} {items : List JsValue}
    (h : ∀ v ∈ items, Sync.idOf? (f v) = idOf? v) : (sortIfIdKeyed items).map f = sortById (items.map f) := by
  have htexts : (∀ w ∈ items.map f, (Sync.idOf? w).isSome) ↔ ∀ v ∈ items, (idOf? v).isSome := by
    rw [List.forall_mem_map]
    exact forall₂_congr fun v hv => by rw [h v hv]
  by_cases hkeyed : ∀ v ∈ items, (idOf? v).isSome
  · rw [sortById_of_idKeyed (htexts.2 hkeyed), sortIfIdKeyed_of_idKeyed hkeyed]
    exact List.map_insertionSort _ _ f items fun a ha b hb => by rw [h a ha, h b hb]
  · rw [sortById_of_not_idKeyed (mt htexts.1 hkeyed), sortIfIdKeyed_of_not_idKeyed hkeyed]

/-! ### The document of the text -/

/-- The document with the members of its objects in the order of their names and the lists of records with ids in the
order of the ids. -/
def stableDocument (value : JsValue) : Json :=
  sortedJson sortById (fun members => propertyOrder (sortKeys members)) value

theorem written_arr (items : List JsValue) :
    written (normalForm (.arr items)) = .arr ((sortIfIdKeyed (items.map normalForm)).map written) := by
  change Json.arr (sortedItems id ownMembers (sortIfIdKeyed (normalItems items))) = _
  rw [sortedItems_eq_map, normalItems_eq_map]
  rfl

/-- Without members `__proto__`, that is what is written. -/
theorem written_normalForm {value : JsValue} (h : value.JsonLike) (havoids : AvoidsProto value) :
    written (normalForm value) = stableDocument value := by
  induction value using JsValue.induct with
  | leaf value harr hobj =>
    cases value with
    | arr items => exact absurd rfl (harr items)
    | obj entries => exact absurd rfl (hobj entries)
    | _ => rfl
  | arr items ih =>
    have hitems : ∀ v ∈ items, written (normalForm v) = stableDocument v := fun v hv =>
      ih v hv (itemsJsonLike_iff.1 h v hv) (itemsAvoidProto_iff.1 havoids v hv)
    have hids : ∀ w ∈ items.map normalForm, Sync.idOf? (written w) = idOf? w := by
      intro w hw
      obtain ⟨v, hv, rfl⟩ := List.mem_map.1 hw
      have hlike := itemsJsonLike_iff.1 h v hv
      rw [idOf?_written hlike, idOf?_normalForm hlike (itemsAvoidProto_iff.1 havoids v hv)]
    rw [written_arr, map_sortIfIdKeyed hids, List.map_map, stableDocument, sortedJson, sortedItems_eq_map]
    exact congrArg (fun texts => Json.arr (sortById texts)) (List.map_congr_left hitems)
  | obj entries ih =>
    obtain ⟨hnodup, hmembers⟩ := h
    rw [written_obj hnodup, stableDocument, sortedJson, sortedMembers_eq_map, writtenMembers]
    have hfilter : (entries.filter fun e => e.1 != "__proto__" && !e.2.isUndefined) =
        entries.filter fun e => !e.2.isUndefined := by
      refine List.filter_congr fun e he => ?_
      by_cases hkey : e.1 = "__proto__"
      · rw [(membersAvoidProto_iff.1 havoids e he).1 hkey]
        simp [isUndefined]
      · have hne : (e.1 != "__proto__") = true := by simpa using hkey
        rw [hne, Bool.true_and]
    rw [hfilter]
    congr 3
    refine List.map_congr_left fun e he => ?_
    obtain ⟨hmem, hdefined⟩ := List.mem_filter.1 he
    rcases membersJsonLike_iff.1 hmembers e hmem with hundefined | hlike
    · rw [hundefined] at hdefined
      cases hdefined
    · rw [ih e hmem hlike (membersAvoidProto_iff.1 havoids e hmem).2]
      rfl

/-! ### The same documents have the same text -/

theorem perm_sortById (items : List Json) : (sortById items).Perm items := by
  unfold sortById
  split
  · exact List.perm_insertionSort _ items
  · exact List.Perm.refl items

theorem idKeyed_of_perm {items items' : List Json} (hperm : items.Perm items')
    (h : ∀ item ∈ items, (Sync.idOf? item).isSome) : ∀ item ∈ items', (Sync.idOf? item).isSome :=
  fun item hitem => h item (hperm.mem_iff.2 hitem)

theorem sortById_eq_iff {ls rs : List Json} (hunique : (∀ l ∈ ls, (Sync.idOf? l).isSome) → (ls.map Sync.idOf?).Nodup) :
    sortById ls = sortById rs ↔ ls = rs ∨
      ((∀ l ∈ ls, (Sync.idOf? l).isSome) ∧ (∀ r ∈ rs, (Sync.idOf? r).isSome) ∧ ls.Perm rs) := by
  constructor
  · intro heq
    have hperm : ls.Perm rs := (perm_sortById ls).symm.trans (heq ▸ perm_sortById rs)
    by_cases hkeyed : ∀ l ∈ ls, (Sync.idOf? l).isSome
    · exact .inr ⟨hkeyed, idKeyed_of_perm hperm hkeyed, hperm⟩
    · have hkeyed' : ¬∀ r ∈ rs, (Sync.idOf? r).isSome := fun h => hkeyed (idKeyed_of_perm hperm.symm h)
      rw [sortById_of_not_idKeyed hkeyed, sortById_of_not_idKeyed hkeyed'] at heq
      exact .inl heq
  · rintro (rfl | ⟨hl, hr, hperm⟩)
    · rfl
    · rw [sortById_of_idKeyed hl, sortById_of_idKeyed hr]
      refine insertionSort_eq_of_perm (fun item => (Sync.idOf? item).getD "") ?_ hperm
      have hids : ls.map Sync.idOf? = (ls.map fun item => (Sync.idOf? item).getD "").map some := by
        rw [List.map_map]
        refine List.map_congr_left fun l hmem => ?_
        obtain ⟨id, hid⟩ := Option.isSome_iff_exists.1 (hl l hmem)
        rw [Function.comp_apply, hid, Option.getD_some]
      have hnodup := hunique hl
      rw [hids] at hnodup
      exact hnodup.of_map

theorem idOf?_stableDocument {v : JsValue} (h : v.JsonLike) (havoids : AvoidsProto v) :
    Sync.idOf? (stableDocument v) = ownId? v := by
  rw [← written_normalForm h havoids, idOf?_written h]

/-- The stable members of an object. -/
def stableMembers (entries : List (String × JsValue)) : List (String × Json) :=
  sortedMembers sortById (fun members => propertyOrder (sortKeys members)) entries

theorem lookup_stableMembers {entries : List (String × JsValue)} (h : (entries.map Prod.fst).Nodup) (key : String) :
    lookup key (stableMembers entries) = (member entries key).map stableDocument := by
  rw [stableMembers, lookup_sortedMembers h, member]
  cases entries.lookup key with
  | none => rfl
  | some v => cases hv : v.isUndefined <;> simp [hv, stableDocument]

theorem stableDocument_obj_eq_iff {ls rs : List (String × JsValue)} (hl : (ls.map Prod.fst).Nodup)
    (hr : (rs.map Prod.fst).Nodup) : stableDocument (.obj ls) = stableDocument (.obj rs) ↔
      ∀ key, (member ls key).map stableDocument = (member rs key).map stableDocument := by
  rw [stableDocument, stableDocument, sortedJson, sortedJson, Json.obj.injEq,
    keyOrder_propertyOrder.eq_iff (nodup_sortedMembers hl) (nodup_sortedMembers hr)]
  exact forall_congr' fun key => by rw [← lookup_stableMembers hl, ← lookup_stableMembers hr]; rfl

theorem stableDocument_arr_eq_iff {ls rs : List JsValue}
    (hunique : (∀ l ∈ ls.map stableDocument, (Sync.idOf? l).isSome) → ((ls.map stableDocument).map Sync.idOf?).Nodup) :
    stableDocument (.arr ls) = stableDocument (.arr rs) ↔ ls.map stableDocument = rs.map stableDocument ∨
      ((∀ l ∈ ls.map stableDocument, (Sync.idOf? l).isSome) ∧ (∀ r ∈ rs.map stableDocument, (Sync.idOf? r).isSome) ∧
        (ls.map stableDocument).Perm (rs.map stableDocument)) := by
  rw [stableDocument, stableDocument, sortedJson, sortedJson, Json.arr.injEq, sortedItems_eq_map, sortedItems_eq_map]
  exact sortById_eq_iff hunique

theorem map_eq_map_iff_sameItems {ls rs : List JsValue}
    (ih : ∀ l ∈ ls, ∀ r ∈ rs, (stableDocument l = stableDocument r ↔ Same l r)) :
    ls.map stableDocument = rs.map stableDocument ↔ SameItems ls rs := by
  rw [sameItems_iff, ← List.forall₂_eq_eq_eq, List.forall₂_map_left_iff, List.forall₂_map_right_iff]
  exact forall₂_congr_of_mem ih

/-- A rearrangement of the texts is one of the items. -/
theorem perm_map_iff {α β : Type} {f : α → β} {ls rs : List α} :
    (ls.map f).Perm (rs.map f) ↔ ∃ rs' : List α, rs'.Perm rs ∧ ls.map f = rs'.map f := by
  constructor
  · intro h
    have htexts : List.Forall₂ (fun b a => b = f a) (rs.map f) rs := by
      rw [List.forall₂_map_left_iff, List.forall₂_same]
      exact fun _ _ => rfl
    obtain ⟨rs', hforall, hperm⟩ := List.perm_comp_forall₂ h htexts
    refine ⟨rs', hperm, ?_⟩
    rw [← List.forall₂_eq_eq_eq, List.forall₂_map_right_iff]
    exact hforall
  · rintro ⟨rs', hperm, heq⟩
    rw [heq]
    exact hperm.map f

theorem idKeyed_iff {items : List JsValue} (h : ∀ v ∈ items, v.JsonLike) (havoids : ∀ v ∈ items, AvoidsProto v) :
    (∀ w ∈ items.map stableDocument, (Sync.idOf? w).isSome) ↔ IdKeyed items := by
  rw [List.forall_mem_map]
  exact forall₂_congr fun v hv => by rw [idOf?_stableDocument (h v hv) (havoids v hv)]

theorem stableDocument_lists_iff {ls rs : List JsValue} (hl : ∀ l ∈ ls, l.JsonLike) (hr : ∀ r ∈ rs, r.JsonLike)
    (havoids : ∀ l ∈ ls, AvoidsProto l) (havoids' : ∀ r ∈ rs, AvoidsProto r)
    (hunique : IdKeyed ls → (ls.map ownId?).Nodup)
    (ih : ∀ l ∈ ls, ∀ r ∈ rs, (stableDocument l = stableDocument r ↔ Same l r)) :
    stableDocument (.arr ls) = stableDocument (.arr rs) ↔ Same (.arr ls) (.arr rs) := by
  have hids : (ls.map stableDocument).map Sync.idOf? = ls.map ownId? := by
    rw [List.map_map]
    exact List.map_congr_left fun v hv => idOf?_stableDocument (hl v hv) (havoids v hv)
  rw [stableDocument_arr_eq_iff (by rw [hids, idKeyed_iff hl havoids]; exact hunique), idKeyed_iff hl havoids,
    idKeyed_iff hr havoids', Same]
  constructor
  · rintro (heq | ⟨hkeyed, hkeyed', hperm⟩)
    · exact ⟨rs, rfl, rs, .inl rfl, (map_eq_map_iff_sameItems ih).1 heq⟩
    · obtain ⟨rs', hperm', heq⟩ := perm_map_iff.1 hperm
      exact ⟨rs, rfl, rs', .inr ⟨hkeyed, hkeyed', hperm'⟩,
        (map_eq_map_iff_sameItems fun l hmem r hmem' => ih l hmem r (hperm'.mem_iff.1 hmem')).1 heq⟩
  · rintro ⟨_, heq, rs', hrs', hsame⟩
    cases heq
    rcases hrs' with rfl | ⟨hkeyed, hkeyed', hperm'⟩
    · exact .inl ((map_eq_map_iff_sameItems ih).2 hsame)
    · exact .inr ⟨hkeyed, hkeyed', perm_map_iff.2 ⟨rs', hperm',
        (map_eq_map_iff_sameItems fun l hmem r hmem' => ih l hmem r (hperm'.mem_iff.1 hmem')).2 hsame⟩⟩

theorem member_of_mem {entries : List (String × JsValue)} (h : (entries.map Prod.fst).Nodup) {e : String × JsValue}
    (he : e ∈ entries) : member entries e.1 = if e.2.isUndefined then none else some e.2 := by
  rw [member, lookup_of_mem_entries h he, Option.bind_some]

theorem mem_of_member {entries : List (String × JsValue)} {key : String} {v : JsValue}
    (h : member entries key = some v) : (key, v) ∈ entries ∧ v.isUndefined = false := by
  rw [member, Option.bind_eq_some_iff] at h
  obtain ⟨w, hlookup, hdefined⟩ := h
  split_ifs at hdefined with hundefined
  obtain ⟨pre, post, rfl, -⟩ := List.lookup_eq_some_iff.1 hlookup
  cases hdefined
  exact ⟨by simp, by simpa using hundefined⟩

theorem stableDocument_records_iff {ls rs : List (String × JsValue)} (hl : (ls.map Prod.fst).Nodup)
    (hr : (rs.map Prod.fst).Nodup)
    (ih : ∀ e ∈ ls, e.2.isUndefined = false → ∀ r, member rs e.1 = some r →
      (stableDocument e.2 = stableDocument r ↔ Same e.2 r)) :
    stableDocument (.obj ls) = stableDocument (.obj rs) ↔ Same (.obj ls) (.obj rs) := by
  rw [stableDocument_obj_eq_iff hl hr, Same]
  constructor
  · intro h
    refine ⟨rs, rfl, sameMembers_iff.2 fun e he => ?_, fun key hkey => ?_⟩
    · have hmember := h e.1
      rw [member_of_mem hl he] at hmember
      cases hundefined : e.2.isUndefined with
      | true =>
        rw [hundefined, if_pos rfl, Option.map_none, eq_comm, Option.map_eq_none_iff] at hmember
        rw [if_pos rfl]
        exact hmember
      | false =>
        rw [hundefined, if_neg Bool.false_ne_true, Option.map_some, eq_comm, Option.map_eq_some_iff] at hmember
        obtain ⟨r, hr, heq⟩ := hmember
        rw [if_neg Bool.false_ne_true]
        exact ⟨r, hr, (ih e he hundefined r hr).1 heq.symm⟩
    · have hmember := congrArg Option.isSome (h key)
      rwa [Option.isSome_map, Option.isSome_map, hkey] at hmember
  · rintro ⟨_, heq, hsame, hdefined⟩ key
    cases heq
    cases hmember : member ls key with
    | none =>
      cases hmember' : member rs key with
      | none => rfl
      | some r =>
        have hsome := hdefined key (by rw [hmember']; rfl)
        rw [hmember] at hsome
        cases hsome
    | some l =>
      obtain ⟨hmem, hundefined⟩ := mem_of_member hmember
      have hpair := sameMembers_iff.1 hsame (key, l) hmem
      rw [if_neg (by simp [hundefined])] at hpair
      obtain ⟨r, hr, hpair⟩ := hpair
      rw [hr, Option.map_some, Option.map_some, (ih (key, l) hmem hundefined r hr).2 hpair]

/-- Without members `__proto__` the stable documents are equal exactly when the documents are the same. -/
theorem stableDocument_eq_iff {left right : JsValue} (hl : left.JsonLike) (hr : right.JsonLike)
    (havoids : AvoidsProto left) (havoids' : AvoidsProto right) (hunique : UniqueIds left) :
    stableDocument left = stableDocument right ↔ Same left right := by
  induction left using JsValue.induct generalizing right with
  | leaf left harr hobj =>
    cases left with
    | undefined => exact hl.elim
    | method => exact hl.elim
    | prototype => exact hl.elim
    | arr items => exact absurd rfl (harr items)
    | obj entries => exact absurd rfl (hobj entries)
    | _ => cases right <;> simp_all [stableDocument, sortedJson, Same, JsonLike]
  | arr ls ih =>
    cases right with
    | arr rs =>
      have hl' := itemsJsonLike_iff.1 hl
      have hr' := itemsJsonLike_iff.1 hr
      have ha := itemsAvoidProto_iff.1 havoids
      have ha' := itemsAvoidProto_iff.1 havoids'
      exact stableDocument_lists_iff hl' hr' ha ha' hunique.1 fun l hmem r hmem' =>
        ih l hmem (hl' l hmem) (hr' r hmem') (ha l hmem) (ha' r hmem') (itemsUniqueIds_iff.1 hunique.2 l hmem)
    | _ => simp [stableDocument, sortedJson, Same]
  | obj ls ih =>
    cases right with
    | obj rs =>
      refine stableDocument_records_iff hl.1 hr.1 fun e he hdefined r hmember => ?_
      obtain ⟨hmem, hdefined'⟩ := mem_of_member hmember
      refine ih e he ?_ ?_ (membersAvoidProto_iff.1 havoids e he).2 (membersAvoidProto_iff.1 havoids' _ hmem).2
        (membersUniqueIds_iff.1 hunique e he)
      · exact hl.of_mem he hdefined
      · exact hr.of_mem hmem hdefined'
    | _ => simp [stableDocument, sortedJson, Same]

/-! ### Members that are lost -/

/-- A document that is the same as one without members `__proto__` has none. -/
theorem avoidsProto_of_same {left right : JsValue} (hr : right.JsonLike) (havoids : AvoidsProto right)
    (h : Same left right) : AvoidsProto left := by
  induction left using JsValue.induct generalizing right with
  | leaf left harr hobj =>
    cases left with
    | arr items => exact absurd rfl (harr items)
    | obj entries => exact absurd rfl (hobj entries)
    | _ => trivial
  | arr ls ih =>
    obtain ⟨rs, rfl, rs', hrs', hsame⟩ := h
    have hmem : ∀ r ∈ rs', r ∈ rs := by
      rcases hrs' with rfl | ⟨-, -, hperm⟩
      · exact fun r hr => hr
      · exact fun r hr => hperm.mem_iff.1 hr
    refine itemsAvoidProto_iff.2 fun l hl => ?_
    obtain ⟨r, hr', hpair⟩ := exists_of_forall₂ (sameItems_iff.1 hsame) hl
    exact ih l hl (itemsJsonLike_iff.1 hr r (hmem r hr')) (itemsAvoidProto_iff.1 havoids r (hmem r hr')) hpair
  | obj ls ih =>
    obtain ⟨rs, rfl, hsame, -⟩ := h
    refine membersAvoidProto_iff.2 fun e he => ?_
    have hpair := sameMembers_iff.1 hsame e he
    cases hundefined : e.2.isUndefined with
    | true =>
      rw [eq_undefined_of_isUndefined hundefined]
      exact ⟨fun _ => rfl, trivial⟩
    | false =>
      rw [hundefined, if_neg Bool.false_ne_true] at hpair
      obtain ⟨r, hmember, hpair⟩ := hpair
      obtain ⟨hmem, hdefined⟩ := mem_of_member hmember
      obtain ⟨hproto, hinner⟩ := membersAvoidProto_iff.1 havoids _ hmem
      refine ⟨fun hkey => ?_, ih e he ?_ hinner hpair⟩
      · cases (show r = .undefined from hproto hkey)
        cases hdefined
      · exact hr.of_mem hmem hdefined

theorem ownId?_ofJson (v : Json) : ownId? (ofJson v) = Sync.idOf? v := by
  cases v with
  | obj entries =>
    rw [ofJson, ownId?, lookup_ofEntries, Sync.idOf?, prop]
    cases lookup "id" entries with
    | none => rfl
    | some v => cases v <;> rfl
  | _ => rfl

theorem sortById_sortById (items : List Json) : sortById (sortById items) = sortById items := by
  by_cases hkeyed : ∀ item ∈ items, (Sync.idOf? item).isSome
  · rw [sortById_of_idKeyed (idKeyed_of_perm (perm_sortById items).symm hkeyed), sortById_of_idKeyed hkeyed]
    have := total_jsLt fun item => (Sync.idOf? item).getD ""
    have := trans_jsLt fun item => (Sync.idOf? item).getD ""
    exact (List.pairwise_insertionSort _ items).insertionSort_eq
  · rw [sortById_of_not_idKeyed hkeyed, sortById_of_not_idKeyed hkeyed]

/-- What is written of a document can be read, is written as it is, and has no member `__proto__`. -/
structure Settled (v : Json) : Prop where
  like : (ofJson v).JsonLike
  unique : UniqueIds (ofJson v)
  avoids : AvoidsProto (ofJson v)
  stable : stableDocument (ofJson v) = v

/-- The texts of a list that was sorted are in order. -/
theorem sortById_written {items : List JsValue} (h : ∀ v ∈ items, v.JsonLike) :
    sortById ((sortIfIdKeyed (items.map normalForm)).map written) =
      (sortIfIdKeyed (items.map normalForm)).map written := by
  by_cases hkeyed : ∀ w ∈ (sortIfIdKeyed (items.map normalForm)).map written, (Sync.idOf? w).isSome
  · have hids : ∀ w ∈ items.map normalForm, Sync.idOf? (written w) = idOf? w := by
      intro w hw
      have hsome := hkeyed _ (List.mem_map_of_mem ((perm_sortIfIdKeyed _).mem_iff.2 hw))
      obtain ⟨v, hv, rfl⟩ := List.mem_map.1 hw
      rw [idOf?_written (h v hv)] at hsome ⊢
      obtain ⟨id, hid⟩ := Option.isSome_iff_exists.1 hsome
      rw [hid, idOf?_of_ownId? (h v hv) hid]
    rw [map_sortIfIdKeyed hids, sortById_sortById]
  · exact sortById_of_not_idKeyed hkeyed

theorem settled_arr {texts : List Json} (hsettled : ∀ v ∈ texts, Settled v)
    (hunique : (∀ v ∈ texts, (Sync.idOf? v).isSome) → (texts.map Sync.idOf?).Nodup)
    (hsorted : sortById texts = texts) : Settled (.arr texts) where
  like := by
    rw [ofJson, JsonLike, itemsJsonLike_iff, ofItems_eq_map, List.forall_mem_map]
    exact fun v hv => (hsettled v hv).like
  unique := by
    rw [ofJson, UniqueIds, itemsUniqueIds_iff, ofItems_eq_map, IdKeyed, List.forall_mem_map, List.forall_mem_map,
      List.map_map]
    simp only [Function.comp_def, ownId?_ofJson]
    exact ⟨hunique, fun v hv => (hsettled v hv).unique⟩
  avoids := by
    rw [ofJson, AvoidsProto, itemsAvoidProto_iff, ofItems_eq_map, List.forall_mem_map]
    exact fun v hv => (hsettled v hv).avoids
  stable := by
    have hstable : (texts.map ofJson).map stableDocument = texts := by
      rw [List.map_map]
      exact (List.map_congr_left fun v hv => (hsettled v hv).stable).trans (List.map_id' texts)
    rw [stableDocument, ofJson, sortedJson, sortedItems_eq_map, ofItems_eq_map]
    exact congrArg Json.arr ((congrArg sortById hstable).trans hsorted)

theorem settled_obj {members : List (String × Json)} (hnodup : (members.map Prod.fst).Nodup)
    (hsettled : ∀ e ∈ members, e.1 ≠ "__proto__" ∧ Settled e.2)
    (hsorted : propertyOrder (sortKeys members) = members) : Settled (.obj members) where
  like := by
    rw [ofJson, JsonLike, membersJsonLike_iff, ofEntries_eq_map, List.forall_mem_map, List.map_map]
    exact ⟨hnodup, fun e he => .inr (hsettled e he).2.like⟩
  unique := by
    rw [ofJson, UniqueIds, membersUniqueIds_iff, ofEntries_eq_map, List.forall_mem_map]
    exact fun e he => (hsettled e he).2.unique
  avoids := by
    rw [ofJson, AvoidsProto, membersAvoidProto_iff, ofEntries_eq_map, List.forall_mem_map]
    exact fun e he => ⟨fun hkey => absurd hkey (hsettled e he).1, (hsettled e he).2.avoids⟩
  stable := by
    have hstable : stableMembers (ofEntries members) = members := by
      rw [stableMembers, sortedMembers_eq_map, ofEntries_eq_map, List.filter_eq_self.2, List.map_map]
      · refine (List.map_congr_left fun e he => ?_).trans (List.map_id members)
        exact Prod.ext rfl (hsettled e he).2.stable
      · rw [List.forall_mem_map]
        exact fun e _ => by rw [isUndefined_ofJson, Bool.not_false]
    rw [stableDocument, ofJson, sortedJson]
    exact congrArg Json.obj ((congrArg (fun l => propertyOrder (sortKeys l)) hstable).trans hsorted)

/-- What is written of a document is settled. -/
theorem settled_written {value : JsValue} (h : value.JsonLike) (hunique : UniqueIds value) :
    Settled (written (normalForm value)) := by
  induction value using JsValue.induct with
  | leaf value harr hobj =>
    cases value with
    | undefined => exact h.elim
    | method => exact h.elim
    | prototype => exact h.elim
    | arr items => exact absurd rfl (harr items)
    | obj entries => exact absurd rfl (hobj entries)
    | _ => exact ⟨trivial, trivial, trivial, rfl⟩
  | arr items ih =>
    have hlike := itemsJsonLike_iff.1 h
    have hperm : ((sortIfIdKeyed (items.map normalForm)).map written).Perm
        (items.map fun v => written (normalForm v)) := by
      have hmap := (perm_sortIfIdKeyed (items.map normalForm)).map written
      rwa [List.map_map] at hmap
    rw [written_arr]
    refine settled_arr (fun w hw => ?_) (fun hkeyed => ?_) (sortById_written hlike)
    · obtain ⟨v, hv, rfl⟩ := List.mem_map.1 (hperm.mem_iff.1 hw)
      exact ih v hv (hlike v hv) (itemsUniqueIds_iff.1 hunique.2 v hv)
    · have hids : (items.map fun v => written (normalForm v)).map Sync.idOf? = items.map ownId? := by
        rw [List.map_map]
        exact List.map_congr_left fun v hv => idOf?_written (hlike v hv)
      rw [(hperm.map Sync.idOf?).nodup_iff, hids]
      refine hunique.1 fun v hv => ?_
      rw [← idOf?_written (hlike v hv)]
      exact hkeyed _ (hperm.mem_iff.2 (List.mem_map_of_mem hv))
  | obj entries ih =>
    have hperm := keyOrder_propertyOrder.perm (writtenMembers entries)
    have hnodup : ((propertyOrder (sortKeys (writtenMembers entries))).map Prod.fst).Nodup :=
      (hperm.map Prod.fst).nodup_iff.2 (nodup_writtenMembers h.1)
    rw [written_obj h.1]
    refine settled_obj hnodup (fun e he => ?_) (keyOrder_propertyOrder.unique _ _ hnodup hperm)
    obtain ⟨d, hd, rfl⟩ := List.mem_map.1 (hperm.mem_iff.1 he)
    obtain ⟨hmem, hkept⟩ := List.mem_filter.1 hd
    rw [Bool.and_eq_true, bne_iff_ne, Bool.not_eq_true'] at hkept
    exact ⟨hkept.1, ih d hmem (h.of_mem hmem hkept.2) (membersUniqueIds_iff.1 hunique d hmem)⟩

/-! ### The documents of the sync cycle -/

mutual

/-- The normalisation of documents without members `__proto__`, which only has their own members to look at. -/
theorem normalizeForSyncComparison_eq : ∀ v : Json, AvoidsProto (ofJson v) →
    Sync.normalizeForSyncComparison v = stableDocument (ofJson v)
  | .null, _ => rfl
  | .bool _, _ => rfl
  | .num _, _ => rfl
  | .str _, _ => rfl
  | .arr items, h => by
    rw [Sync.normalizeForSyncComparison, normalizeItems_eq items h, stableDocument, ofJson, sortedJson]
  | .obj entries, h => by
    rw [Sync.normalizeForSyncComparison, normalizeEntries_eq entries h, stableDocument, ofJson, sortedJson,
      stableMembers]

theorem normalizeItems_eq : ∀ items : List Json, ItemsAvoidProto (ofItems items) →
    Sync.normalizeItems items = sortedItems sortById (fun members => propertyOrder (sortKeys members)) (ofItems items)
  | [], _ => rfl
  | v :: items, h => by
    rw [Sync.normalizeItems, normalizeForSyncComparison_eq v h.1, normalizeItems_eq items h.2, ofItems, sortedItems]
    rfl

theorem normalizeEntries_eq : ∀ entries : List (String × Json), MembersAvoidProto (ofEntries entries) →
    Sync.normalizeEntries entries = stableMembers (ofEntries entries)
  | [], _ => rfl
  | (k, v) :: entries, h => by
    have hkey : k ≠ "__proto__" := by
      intro hkey
      have hdefined := isUndefined_ofJson v
      rw [h.1.1 hkey] at hdefined
      cases hdefined
    rw [Sync.normalizeEntries, if_neg hkey, normalizeForSyncComparison_eq v h.1.2, normalizeEntries_eq entries h.2]
    change _ = sortedMembers _ _ ((k, ofJson v) :: ofEntries entries)
    rw [sortedMembers, isUndefined_ofJson, if_neg Bool.false_ne_true]
    rfl

end

/-! ### The text -/

section
variable [Runtime]

theorem toStableSyncJson_eq {value : JsValue} (h : value.JsonLike) :
    toStableSyncJson value = stringify (written (normalForm value)) := by
  rw [toStableSyncJson, (normalizeForSyncComparison_orders h [] soundOrders_nil).1]

/-- Of documents without members `__proto__` the texts are the same when the documents are. -/
theorem stableText_eq_iff [NumberTextLaws] {left right : JsValue} (hl : left.JsonLike) (hr : right.JsonLike)
    (havoids : AvoidsProto left) (havoids' : AvoidsProto right) (hunique : UniqueIds left) :
    toStableSyncJson left = toStableSyncJson right ↔ Same left right := by
  rw [toStableSyncJson_eq hl, toStableSyncJson_eq hr, written_normalForm hl havoids, written_normalForm hr havoids',
    ← stableDocument_eq_iff hl hr havoids havoids' hunique]
  exact ⟨stringify_injective, congrArg stringify⟩

/-- The stable text is canonical for a document exactly when no object of it has a defined member `__proto__`; the
orders of names that are kept change nothing. -/
theorem toStableSyncJson_canonical [NumberTextLaws] {left : JsValue} (hl : left.JsonLike) (hunique : UniqueIds left) :
    ((∀ right : JsValue, right.JsonLike → UniqueIds right → AvoidsProto right →
      (toStableSyncJson left = toStableSyncJson right ↔ Same left right)) ↔ AvoidsProto left) ∧
    ∀ orders, SoundOrders orders →
      (normalizeForSyncComparison left orders).1 = normalForm left ∧
      SoundOrders (normalizeForSyncComparison left orders).2 := by
  refine ⟨⟨fun h => ?_, fun havoids right hr _ havoids' => stableText_eq_iff hl hr havoids havoids' hunique⟩,
    normalizeForSyncComparison_orders hl⟩
  obtain ⟨hlike, hunique', havoids, hstable⟩ := settled_written hl hunique
  refine avoidsProto_of_same hlike havoids ((h _ hlike hunique' havoids).mp ?_)
  rw [toStableSyncJson_eq hl, toStableSyncJson_eq hlike, written_normalForm hlike havoids, hstable]

theorem toStableSyncJson_ofJson {v : Json} (h : (ofJson v).JsonLike) (havoids : AvoidsProto (ofJson v)) :
    toStableSyncJson (ofJson v) = Sync.toStableSyncJson v := by
  rw [toStableSyncJson_eq h, written_normalForm h havoids, Sync.toStableSyncJson,
    normalizeForSyncComparison_eq v havoids]

end

section
attribute [local instance] isoRuntime

/-- A document with a list of two records. -/
def twoTasks : JsValue :=
  .obj [("tasks", .arr [.obj [("id", .str "b"), ("done", .undefined)], .obj [("title", .str "x"), ("id", .str "a")]])]

theorem toStableSyncJson_canonical_twoTasks :
    (∀ right : JsValue, right.JsonLike → UniqueIds right → AvoidsProto right →
      (toStableSyncJson twoTasks = toStableSyncJson right ↔ Same twoTasks right)) ↔ AvoidsProto twoTasks :=
  (@toStableSyncJson_canonical isoRuntime numberTextLaws_isoRuntime twoTasks
    (by simp [twoTasks, JsonLike, MembersJsonLike, ItemsJsonLike])
    (by simp [twoTasks, UniqueIds, MembersUniqueIds, ItemsUniqueIds, ownId?, strOf?, List.lookup])).1

/-- A member `__proto__` is left out of the text. -/
theorem toStableSyncJson_proto :
    toStableSyncJson (.obj [("__proto__", .obj [("theme", .str "dark")])]) = toStableSyncJson (.obj []) ∧
    ¬Same (.obj [("__proto__", .obj [("theme", .str "dark")])]) (.obj []) := by
  refine ⟨by decide +kernel, fun h => ?_⟩
  obtain ⟨rs, heq, hsame, -⟩ := h
  cases heq
  obtain ⟨r, hr, -⟩ := sameMembers_iff.mp hsame _ List.mem_cons_self
  cases hr

end

end Mindwtr.Sync.StableJson
