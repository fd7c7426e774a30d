import Mindwtr.Js.SortedJson

/-!
# Equality of documents

`isDeepJsonEqual` of `sync-helpers.ts` reads the members of the right record by name, so it also sees what every object
inherits. It agrees with the equality of key-sorted texts on documents whose members it cannot mistake
(`isDeepJsonEqual_iff`), and on no others.
-/

namespace Mindwtr.Sync.DeepEquality

open Mindwtr.Js Mindwtr.Js.JsValue

/-! ### The comparison -/

/-- `left === right` of values that are not arrays or objects of a document. -/
def strictlyEqual : JsValue → JsValue → Bool
  | .undefined, .undefined => true
  | .null, .null => true
  | .bool a, .bool b => a == b
  | .num a, .num b => a == b
  | .str a, .str b => a == b
  | .method, .method => true
  | .prototype, .prototype => true
  | _, _ => false

mutual

/-- A record is compared with itself as with a copy of it. -/
def isDeepJsonEqual : JsValue → JsValue → Bool
  | .arr ls, right =>
    match right with
    | .arr rs => ls.length == rs.length && itemsEqual ls rs
    | _ => false
  | .obj ls, right =>
    right.isRecord && membersEqual ls right && definedCount (.obj ls) == definedCount right
  | left, right => strictlyEqual left right

def itemsEqual : List JsValue → List JsValue → Bool
  | l :: ls, r :: rs => isDeepJsonEqual l r && itemsEqual ls rs
  | _, _ => true

/-- The loop over the keys of the left record. -/
def membersEqual : List (String × JsValue) → JsValue → Bool
  | [], _ => true
  | (key, leftValue) :: ls, right =>
    (if leftValue.isUndefined then (getProperty right key).isUndefined
      else isDeepJsonEqual leftValue (getProperty right key)) && membersEqual ls right

end

/-! ### Persisting -/

def syncStatusBookkeepingSettingsKeys : List String :=
  ["lastSyncAt", "lastSyncStatus", "lastSyncError", "pendingRemoteWriteAt", "pendingRemoteWriteRetryAt",
    "pendingRemoteWriteAttempts", "lastSyncStats", "lastSyncHistory"]

/-- `{ ...(settings ?? {}) }`; the settings of a document are a record. -/
def spreadSettings (settings : JsValue) : List (String × JsValue) :=
  match settings with
  | .obj entries => entries
  | _ => []

def withoutSyncStatusBookkeeping (settings : JsValue) : JsValue :=
  .obj ((spreadSettings settings).filter fun e => e.1 ∉ syncStatusBookkeepingSettingsKeys)

/-- `{ ...data, settings }` -/
def withSettings (settings : JsValue) : List (String × JsValue) → List (String × JsValue)
  | [] => [("settings", settings)]
  | (k, v) :: data => if k = "settings" then (k, settings) :: data else (k, v) :: withSettings settings data

/-- The properties of two documents. A document is compared with itself as with a copy of it. -/
def isLocalPersistEquivalent (candidate stored : List (String × JsValue)) : Bool :=
  isDeepJsonEqual (withoutSyncStatusBookkeeping (getProperty (.obj candidate) "settings"))
      (withoutSyncStatusBookkeeping (getProperty (.obj stored) "settings")) &&
    isDeepJsonEqual (.obj (withSettings .undefined candidate)) (.obj (withSettings .undefined stored))

/-! ### Texts -/

/-- The document with the members of its objects sorted by their names. -/
def keySorted (v : JsValue) : Json := sortedJson id sortKeys v

def keySortedText [Runtime] (v : JsValue) : String := stringify (keySorted v)

mutual

/-- No object has an `undefined` member that every object inherits, or a member `__proto__` that is an object without
any defined member. -/
def AvoidsInherited : JsValue → Prop
  | .arr items => ItemsAvoidInherited items
  | .obj entries => MembersAvoidInherited entries
  | _ => True

def ItemsAvoidInherited : List JsValue → Prop
  | [] => True
  | v :: items => AvoidsInherited v ∧ ItemsAvoidInherited items

def MembersAvoidInherited : List (String × JsValue) → Prop
  | [] => True
  | (k, v) :: entries =>
    ((v.isUndefined = true → (inherited k).isUndefined = true) ∧
      (k = "__proto__" → v.isRecord = true → definedCount v ≠ 0) ∧ AvoidsInherited v) ∧ MembersAvoidInherited entries

end

theorem itemsAvoidInherited_iff {items : List JsValue} :
    ItemsAvoidInherited items ↔ ∀ v ∈ items, AvoidsInherited v := by
  induction items with
  | nil => simp [ItemsAvoidInherited]
  | cons v items ih => simp [ItemsAvoidInherited, ih]

/-- What a member must be like. -/
def MemberAvoidsInherited (e : String × JsValue) : Prop :=
  (e.2.isUndefined = true → (inherited e.1).isUndefined = true) ∧
    (e.1 = "__proto__" → e.2.isRecord = true → definedCount e.2 ≠ 0) ∧ AvoidsInherited e.2

theorem membersAvoidInherited_iff {entries : List (String × JsValue)} :
    MembersAvoidInherited entries ↔ ∀ e ∈ entries, MemberAvoidsInherited e := by
  induction entries with
  | nil => simp [MembersAvoidInherited]
  | cons e entries ih =>
    obtain ⟨k, v⟩ := e
    rw [MembersAvoidInherited, ih, List.forall_mem_cons]
    rfl

/-! ### The comparison of two documents -/

section
variable {left right : JsValue} {ls rs : List (String × JsValue)}

theorem membersEqual_iff : membersEqual ls right = true ↔ ∀ e ∈ ls,
    (if e.2.isUndefined then (getProperty right e.1).isUndefined
      else isDeepJsonEqual e.2 (getProperty right e.1)) = true := by
  induction ls with
  | nil => simp [membersEqual]
  | cons e ls ih =>
    obtain ⟨k, v⟩ := e
    rw [membersEqual, Bool.and_eq_true, ih, List.forall_mem_cons]

theorem itemsEqual_iff {ls rs : List JsValue} (hlength : ls.length = rs.length) :
    itemsEqual ls rs = true ↔ List.Forall₂ (fun l r => isDeepJsonEqual l r = true) ls rs := by
  induction ls generalizing rs with
  | nil =>
    cases rs with
    | nil => simp [itemsEqual]
    | cons r rs => cases hlength
  | cons l ls ih =>
    cases rs with
    | nil => cases hlength
    | cons r rs =>
      rw [itemsEqual, Bool.and_eq_true, ih (by simpa using hlength), List.forall₂_cons]

theorem isDeepJsonEqual_arr_iff {ls rs : List JsValue} :
    isDeepJsonEqual (.arr ls) (.arr rs) = true ↔ List.Forall₂ (fun l r => isDeepJsonEqual l r = true) ls rs := by
  rw [isDeepJsonEqual, Bool.and_eq_true, beq_iff_eq]
  constructor
  · rintro ⟨hlength, hitems⟩
    exact (itemsEqual_iff hlength).1 hitems
  · intro h
    exact ⟨h.length_eq, (itemsEqual_iff h.length_eq).2 h⟩

theorem isDeepJsonEqual_obj_iff : isDeepJsonEqual (.obj ls) (.obj rs) = true ↔
    membersEqual ls (.obj rs) = true ∧ definedCount (.obj ls) = definedCount (.obj rs) := by
  rw [isDeepJsonEqual, Bool.and_eq_true, Bool.and_eq_true, beq_iff_eq]
  exact and_congr_left fun _ => and_iff_right rfl

theorem isDeepJsonEqual_undefined (h : left.JsonLike) : isDeepJsonEqual left .undefined = false := by
  cases left with
  | undefined => exact h.elim
  | method => exact h.elim
  | prototype => exact h.elim
  | _ => rfl

theorem isDeepJsonEqual_method (h : left.JsonLike) : isDeepJsonEqual left .method = false := by
  cases left with
  | undefined => exact h.elim
  | method => exact h.elim
  | prototype => exact h.elim
  | _ => rfl

/-- What every object inherits from looks like an object without members. -/
theorem eq_obj_of_isDeepJsonEqual_prototype (h : left.JsonLike) (heq : isDeepJsonEqual left .prototype = true) :
    left.isRecord = true ∧ definedCount left = 0 := by
  cases left with
  | undefined => exact h.elim
  | method => exact h.elim
  | prototype => exact h.elim
  | obj entries =>
    rw [isDeepJsonEqual, Bool.and_eq_true, beq_iff_eq] at heq
    exact ⟨rfl, heq.2⟩
  | _ => cases heq

/-! ### Agreement with the texts -/

/-- The members of the document of a record. -/
def members (entries : List (String × JsValue)) : List (String × Json) := sortedMembers id sortKeys entries

/-- Of a member of the left record: it is equal to what the right one has there where their documents agree. -/
theorem memberEqual_iff (hr : (JsValue.obj rs).JsonLike) {e : String × JsValue}
    (he : e.2 = .undefined ∨ e.2.JsonLike) (havoids : MemberAvoidsInherited e)
    (ih : e.2.JsonLike → ∀ right : JsValue, right.JsonLike →
      (isDeepJsonEqual e.2 right = true ↔ keySorted e.2 = keySorted right)) :
    (if e.2.isUndefined then (getProperty (.obj rs) e.1).isUndefined
      else isDeepJsonEqual e.2 (getProperty (.obj rs) e.1)) = true ↔
      (if e.2.isUndefined then none else some (keySorted e.2)) = lookup e.1 (members rs) := by
  obtain ⟨hnodup, hmembers⟩ := hr
  have hdefined : e.2.isUndefined = false → e.2.JsonLike := by
    intro hundefined
    rcases he with h | h
    · rw [h] at hundefined
      cases hundefined
    · exact h
  rw [members, lookup_sortedMembers hnodup, getProperty]
  cases hlookup : rs.lookup e.1 with
  | none =>
    rw [Option.getD_none, Option.bind_none]
    cases hundefined : e.2.isUndefined with
    | true => simpa using havoids.1 hundefined
    | false =>
      have hlike := hdefined hundefined
      have hfalse : isDeepJsonEqual e.2 (inherited e.1) = false := by
        unfold inherited
        split_ifs with hproto hmethod
        · by_contra htrue
          rw [Bool.not_eq_false] at htrue
          obtain ⟨hrecord, hcount⟩ := eq_obj_of_isDeepJsonEqual_prototype hlike htrue
          exact havoids.2.1 hproto hrecord hcount
        · exact isDeepJsonEqual_method hlike
        · exact isDeepJsonEqual_undefined hlike
      simp [hfalse]
  | some w =>
    have hw : w = .undefined ∨ w.JsonLike :=
      membersJsonLike_iff.1 hmembers (e.1, w) (List.lookup_eq_some_iff.1 hlookup |>.elim fun pre h => by
        obtain ⟨post, hsplit, -⟩ := h
        rw [hsplit]
        simp)
    rw [Option.getD_some, Option.bind_some]
    rcases hw with rfl | hlike
    · cases hundefined : e.2.isUndefined with
      | true => simp [isUndefined]
      | false => simp [isDeepJsonEqual_undefined (hdefined hundefined), isUndefined]
    · rw [hlike.not_undefined]
      cases hundefined : e.2.isUndefined with
      | true => simp
      | false =>
        rw [if_neg Bool.false_ne_true, if_neg Bool.false_ne_true, if_neg Bool.false_ne_true,
          ih (hdefined hundefined) w hlike, Option.some.injEq]
        rfl

theorem lookup_members (h : (ls.map Prod.fst).Nodup) {e : String × JsValue} (he : e ∈ ls) :
    lookup e.1 (members ls) = if e.2.isUndefined then none else some (keySorted e.2) := by
  rw [members, lookup_sortedMembers h, lookup_of_mem_entries h he, Option.bind_some]
  rfl

theorem nodup_members (h : (ls.map Prod.fst).Nodup) : ((members ls).map Prod.fst).Nodup := nodup_sortedMembers h

theorem length_members (entries : List (String × JsValue)) : (members entries).length = definedCount (.obj entries) :=
  length_sortedMembers entries

/-- Records are equal where their documents read the same at every name. -/
theorem records_iff (hl : (JsValue.obj ls).JsonLike) (hr : (JsValue.obj rs).JsonLike)
    (havoids : AvoidsInherited (.obj ls))
    (ih : ∀ e ∈ ls, e.2.JsonLike → AvoidsInherited e.2 → ∀ right : JsValue, right.JsonLike →
      (isDeepJsonEqual e.2 right = true ↔ keySorted e.2 = keySorted right)) :
    isDeepJsonEqual (.obj ls) (.obj rs) = true ↔ ∀ key, lookup key (members ls) = lookup key (members rs) := by
  have hmember : ∀ e ∈ ls, ((if e.2.isUndefined then (getProperty (.obj rs) e.1).isUndefined
      else isDeepJsonEqual e.2 (getProperty (.obj rs) e.1)) = true ↔
      lookup e.1 (members ls) = lookup e.1 (members rs)) := by
    intro e he
    have hmemberAvoids := membersAvoidInherited_iff.1 havoids e he
    rw [lookup_members hl.1 he]
    exact memberEqual_iff hr (membersJsonLike_iff.1 hl.2 e he) hmemberAvoids fun hlike right hright =>
      ih e he hlike hmemberAvoids.2.2 right hright
  rw [isDeepJsonEqual_obj_iff, membersEqual_iff, ← length_members, ← length_members]
  constructor
  · rintro ⟨hall, hlength⟩ key
    have hsame : ∀ k ∈ (members ls).map Prod.fst, lookup k (members ls) = lookup k (members rs) := by
      intro k hk
      obtain ⟨e, he, rfl⟩ := List.mem_map.1 ((keys_sortedMembers ls).subset hk)
      exact (hmember e he).1 (hall e he)
    have hsub : (members ls).map Prod.fst ⊆ (members rs).map Prod.fst := by
      intro k hk
      by_contra hnot
      have hnone := hsame k hk
      rw [lookup_eq_none_iff.2 hnot, lookup_eq_none_iff] at hnone
      exact hnone hk
    have hperm := keys_perm (nodup_members hl.1) hsub (by simp [hlength])
    by_cases hk : key ∈ (members ls).map Prod.fst
    · exact hsame key hk
    · rw [lookup_eq_none_iff.2 hk, lookup_eq_none_iff.2 fun h => hk (hperm.mem_iff.2 h)]
  · intro h
    exact ⟨fun e he => (hmember e he).2 (h e.1),
      ((perm_iff_lookup (nodup_members hl.1) (nodup_members hr.1)).2 h).length_eq⟩

theorem isDeepJsonEqual_iff {left : JsValue} (hl : left.JsonLike) (havoids : AvoidsInherited left) {right : JsValue}
    (hr : right.JsonLike) : isDeepJsonEqual left right = true ↔ keySorted left = keySorted right := by
  induction left using JsValue.induct generalizing right with
  | leaf left harr hobj =>
    cases left with
    | undefined => exact hl.elim
    | method => exact hl.elim
    | prototype => exact hl.elim
    | arr items => exact absurd rfl (harr items)
    | obj entries => exact absurd rfl (hobj entries)
    | _ => cases right <;> simp_all [isDeepJsonEqual, strictlyEqual, keySorted, sortedJson, JsonLike]
  | arr items ih =>
    cases right with
    | arr items' =>
      rw [isDeepJsonEqual_arr_iff, keySorted, keySorted, sortedJson, sortedJson, Json.arr.injEq, id, id,
        sortedItems_eq_map, sortedItems_eq_map, ← List.forall₂_eq_eq_eq, List.forall₂_map_left_iff,
        List.forall₂_map_right_iff]
      exact forall₂_congr_of_mem fun l hmem r hmem' =>
        ih l hmem (itemsJsonLike_iff.1 hl l hmem) (itemsAvoidInherited_iff.1 havoids l hmem)
          (itemsJsonLike_iff.1 hr r hmem')
    | undefined => exact hr.elim
    | method => exact hr.elim
    | prototype => exact hr.elim
    | _ => simp [isDeepJsonEqual, keySorted, sortedJson]
  | obj entries ih =>
    cases right with
    | obj entries' =>
      rw [records_iff hl hr havoids fun e he hlike hmember right hright => ih e he hlike hmember hright, keySorted, keySorted,
        sortedJson, sortedJson, Json.obj.injEq]
      exact (keyOrder_sortKeys.eq_iff (nodup_members hl.1) (nodup_members hr.1)).symm
    | undefined => exact hr.elim
    | method => exact hr.elim
    | prototype => exact hr.elim
    | _ => simp [isDeepJsonEqual, isRecord, keySorted, sortedJson]

/-! ### Where it does not agree -/

theorem isDeepJsonEqual_refl {v : JsValue} (h : v.JsonLike) : isDeepJsonEqual v v = true := by
  induction v using JsValue.induct with
  | leaf v harr hobj =>
    cases v with
    | arr items => exact absurd rfl (harr items)
    | obj entries => exact absurd rfl (hobj entries)
    | _ => simp [isDeepJsonEqual, strictlyEqual]
  | arr items ih =>
    rw [isDeepJsonEqual_arr_iff, List.forall₂_same]
    exact fun v hv => ih v hv (itemsJsonLike_iff.1 h v hv)
  | obj entries ih =>
    rw [isDeepJsonEqual_obj_iff, membersEqual_iff]
    refine ⟨fun e he => ?_, rfl⟩
    rw [getProperty, lookup_of_mem_entries h.1 he, Option.getD_some]
    rcases membersJsonLike_iff.1 h.2 e he with hundefined | hlike
    · rw [hundefined]
      rfl
    · rw [hlike.not_undefined]
      exact ih e he hlike

/-- A record against one that holds the other members as they are. -/
theorem membersEqual_replace_iff {pre post : List (String × JsValue)} {e : String × JsValue}
    (hlike : ∀ d ∈ pre ++ post, d.2 = .undefined ∨ d.2.JsonLike) (hnodup : (rs.map Prod.fst).Nodup)
    (hmem : ∀ d ∈ pre ++ post, d ∈ rs) : membersEqual (pre ++ e :: post) (.obj rs) = true ↔
      (if e.2.isUndefined then (getProperty (.obj rs) e.1).isUndefined
        else isDeepJsonEqual e.2 (getProperty (.obj rs) e.1)) = true := by
  have hothers : ∀ d ∈ pre ++ post, (if d.2.isUndefined then (getProperty (.obj rs) d.1).isUndefined
      else isDeepJsonEqual d.2 (getProperty (.obj rs) d.1)) = true := by
    intro d hd
    rw [getProperty, lookup_of_mem_entries hnodup (hmem d hd), Option.getD_some]
    rcases hlike d hd with hundefined | hlike
    · rw [hundefined]
      rfl
    · rw [hlike.not_undefined]
      exact isDeepJsonEqual_refl hlike
  rw [membersEqual_iff]
  constructor
  · intro h
    exact h e (by simp)
  · intro h d hd
    rcases List.mem_append.1 hd with hpre | hpost
    · exact hothers d (List.mem_append_left _ hpre)
    · rcases List.mem_cons.1 hpost with rfl | hpost
      · exact h
      · exact hothers d (List.mem_append_right _ hpost)

theorem keySorted_obj_iff (hl : (ls.map Prod.fst).Nodup) (hr : (rs.map Prod.fst).Nodup) :
    keySorted (.obj ls) = keySorted (.obj rs) ↔ ∀ key, lookup key (members ls) = lookup key (members rs) := by
  rw [keySorted, keySorted, sortedJson, sortedJson, Json.obj.injEq]
  exact keyOrder_sortKeys.eq_iff (nodup_members hl) (nodup_members hr)

theorem definedCount_replace (pre post : List (String × JsValue)) {d e : String × JsValue}
    (h : d.2.isUndefined = e.2.isUndefined) :
    definedCount (.obj (pre ++ d :: post)) = definedCount (.obj (pre ++ e :: post)) := by
  change ((pre ++ d :: post).filter _).length = ((pre ++ e :: post).filter _).length
  rw [List.filter_append, List.filter_append, List.filter_cons, List.filter_cons, h]
  cases e.2.isUndefined <;> simp

/-- What a document is misjudged against. -/
def Misjudged (left : JsValue) : Prop :=
  ∃ right : JsValue, right.JsonLike ∧ ¬(isDeepJsonEqual left right = true ↔ keySorted left = keySorted right)

section
variable {pre post : List (String × JsValue)} {e : String × JsValue}

theorem misjudged_member (hl : (JsValue.obj (pre ++ e :: post)).JsonLike) (hlike : e.2.JsonLike)
    (h : Misjudged e.2) : Misjudged (.obj (pre ++ e :: post)) := by
  obtain ⟨right, hright, hwrong⟩ := h
  obtain ⟨k, v⟩ := e
  obtain ⟨hnodup, hmembers⟩ := hl
  rw [membersJsonLike_iff] at hmembers
  have hkeys : ((pre ++ (k, right) :: post).map Prod.fst).Nodup := by simpa using hnodup
  refine ⟨.obj (pre ++ (k, right) :: post), ⟨hkeys, membersJsonLike_iff.2 fun d hd => ?_⟩, fun hiff => hwrong ?_⟩
  · rcases List.mem_append.1 hd with hpre | hpost
    · exact hmembers d (List.mem_append_left _ hpre)
    · rcases List.mem_cons.1 hpost with rfl | hpost
      · exact .inr hright
      · exact hmembers d (List.mem_append_right _ (List.mem_cons_of_mem _ hpost))
  · have hdeep : isDeepJsonEqual (.obj (pre ++ (k, v) :: post)) (.obj (pre ++ (k, right) :: post)) = true ↔
        isDeepJsonEqual v right = true := by
      rw [isDeepJsonEqual_obj_iff, membersEqual_replace_iff (fun d hd => hmembers d ?_) hkeys fun d hd => ?_,
        and_iff_left (definedCount_replace pre post (hlike.not_undefined.trans hright.not_undefined.symm)), getProperty,
        lookup_of_mem_entries hkeys (show (k, right) ∈ _ by simp), Option.getD_some, hlike.not_undefined]
      · rfl
      all_goals
        rcases List.mem_append.1 hd with h | h
        · exact List.mem_append_left _ h
        · exact List.mem_append_right _ (List.mem_cons_of_mem _ h)
    have hsorted : keySorted (.obj (pre ++ (k, v) :: post)) = keySorted (.obj (pre ++ (k, right) :: post)) ↔
        keySorted v = keySorted right := by
      rw [keySorted_obj_iff hnodup hkeys]
      constructor
      · intro hall
        have hk := hall k
        rw [show k = (k, v).1 from rfl, lookup_members hnodup (by simp), show (k, v).1 = (k, right).1 from rfl,
          lookup_members hkeys (by simp), if_neg (by simp [hlike.not_undefined]),
          if_neg (by simp [hright.not_undefined])] at hk
        exact Option.some.inj hk
      · intro heq key
        unfold keySorted at heq
        rw [members, members, sortedMembers_append, sortedMembers_append, sortedMembers, sortedMembers,
          if_neg (by simp [hlike.not_undefined]), if_neg (by simp [hright.not_undefined]), heq]
    rw [← hdeep, ← hsorted]
    exact hiff

/-- An `undefined` member that every object inherits is missed in a record without it. -/
theorem misjudged_undefined (hl : (JsValue.obj (pre ++ e :: post)).JsonLike) (hundefined : e.2.isUndefined = true)
    (hinherited : (inherited e.1).isUndefined = false) : Misjudged (.obj (pre ++ e :: post)) := by
  obtain ⟨k, v⟩ := e
  obtain ⟨hnodup, hmembers⟩ := hl
  rw [membersJsonLike_iff] at hmembers
  have hkeys : (((pre ++ post).map Prod.fst)).Nodup ∧ k ∉ (pre ++ post).map Prod.fst := by
    rw [List.map_append, List.map_cons, List.nodup_middle, List.nodup_cons, ← List.map_append] at hnodup
    exact ⟨hnodup.2, hnodup.1⟩
  have hmem : ∀ d ∈ pre ++ post, d ∈ pre ++ (k, v) :: post := by
    intro d hd
    rcases List.mem_append.1 hd with h | h
    · exact List.mem_append_left _ h
    · exact List.mem_append_right _ (List.mem_cons_of_mem _ h)
  refine ⟨.obj (pre ++ post), ⟨hkeys.1, membersJsonLike_iff.2 fun d hd => hmembers d (hmem d hd)⟩, fun hiff => ?_⟩
  have hsorted : keySorted (.obj (pre ++ (k, v) :: post)) = keySorted (.obj (pre ++ post)) := by
    rw [keySorted_obj_iff hnodup hkeys.1]
    intro key
    rw [members, members, sortedMembers_append, sortedMembers_append, sortedMembers, if_pos hundefined]
  have hdeep := (isDeepJsonEqual_obj_iff.1 (hiff.2 hsorted)).1
  rw [membersEqual_replace_iff (fun d hd => hmembers d (hmem d hd)) hkeys.1 fun d hd => hd, if_pos hundefined, getProperty,
    lookup_eq_none_of_notMem hkeys.2, Option.getD_none, hinherited] at hdeep
  cases hdeep

theorem isDeepJsonEqual_prototype {entries : List (String × JsValue)} (hcount : definedCount (.obj entries) = 0)
    (havoids : AvoidsInherited (.obj entries)) : isDeepJsonEqual (.obj entries) .prototype = true := by
  rw [isDeepJsonEqual, Bool.and_eq_true, Bool.and_eq_true, beq_iff_eq, membersEqual_iff]
  refine ⟨⟨rfl, fun d hd => ?_⟩, hcount⟩
  have hundefined : d.2.isUndefined = true := by
    have hnone := List.eq_nil_of_length_eq_zero hcount
    rw [List.filter_eq_nil_iff] at hnone
    simpa using hnone d hd
  have hinherited := (membersAvoidInherited_iff.1 havoids d hd).1 hundefined
  have hproto : d.1 ≠ "__proto__" := by
    intro h
    rw [h] at hinherited
    cases hinherited
  rw [if_pos hundefined, getProperty, if_neg hproto]
  exact hinherited

/-- A member `__proto__` that is an object without defined members is found in a record without it, which may hold
another member instead. -/
theorem misjudged_proto (hl : (JsValue.obj (pre ++ e :: post)).JsonLike) (hkey : e.1 = "__proto__")
    {entries : List (String × JsValue)} (hvalue : e.2 = .obj entries) (hcount : definedCount (.obj entries) = 0)
    (havoids : AvoidsInherited (.obj entries)) : Misjudged (.obj (pre ++ e :: post)) := by
  obtain ⟨k, v⟩ := e
  dsimp only at hkey hvalue
  subst hkey hvalue
  obtain ⟨hnodup, hmembers⟩ := hl
  rw [membersJsonLike_iff] at hmembers
  obtain ⟨fresh, hfresh⟩ := Infinite.exists_notMem_finset
    ((pre ++ ("__proto__", JsValue.obj entries) :: post).map Prod.fst).toFinset
  rw [List.mem_toFinset] at hfresh
  have hothers : ((pre ++ post).map Prod.fst).Nodup ∧ "__proto__" ∉ (pre ++ post).map Prod.fst ∧
      fresh ∉ (pre ++ post).map Prod.fst ∧ fresh ≠ "__proto__" := by
    rw [List.map_append, List.map_cons, List.nodup_middle, List.nodup_cons, ← List.map_append] at hnodup
    refine ⟨hnodup.2, hnodup.1, fun h => hfresh ?_, fun h => hfresh ?_⟩
    · rw [List.map_append, List.mem_append] at h
      rw [List.map_append, List.map_cons, List.mem_append]
      exact h.imp id (List.mem_cons_of_mem _)
    · rw [h]
      simp
  have hkeys : ((pre ++ (fresh, JsValue.null) :: post).map Prod.fst).Nodup := by
    rw [List.map_append, List.map_cons, List.nodup_middle, List.nodup_cons, ← List.map_append]
    exact ⟨hothers.2.2.1, hothers.1⟩
  have hmem : ∀ f : String × JsValue, ∀ d ∈ pre ++ post, d ∈ pre ++ f :: post := by
    intro f d hd
    rcases List.mem_append.1 hd with h | h
    · exact List.mem_append_left _ h
    · exact List.mem_append_right _ (List.mem_cons_of_mem _ h)
  refine ⟨.obj (pre ++ (fresh, .null) :: post), ⟨hkeys, membersJsonLike_iff.2 fun d hd => ?_⟩, fun hiff => ?_⟩
  · rcases List.mem_append.1 hd with hpre | hpost
    · exact hmembers d (List.mem_append_left _ hpre)
    · rcases List.mem_cons.1 hpost with rfl | hpost
      · exact .inr trivial
      · exact hmembers d (List.mem_append_right _ (List.mem_cons_of_mem _ hpost))
  · have habsent : "__proto__" ∉ (pre ++ (fresh, JsValue.null) :: post).map Prod.fst := by
      intro h
      rw [List.map_append, List.map_cons, List.mem_append, List.mem_cons] at h
      rcases h with h | h | h
      · exact hothers.2.1 (by rw [List.map_append]; exact List.mem_append_left _ h)
      · exact hothers.2.2.2 h.symm
      · exact hothers.2.1 (by rw [List.map_append]; exact List.mem_append_right _ h)
    have hdeep : isDeepJsonEqual (.obj (pre ++ ("__proto__", .obj entries) :: post))
        (.obj (pre ++ (fresh, .null) :: post)) = true := by
      rw [isDeepJsonEqual_obj_iff, membersEqual_replace_iff (fun d hd => hmembers d (hmem _ d hd)) hkeys (hmem _)]
      refine ⟨?_, definedCount_replace pre post rfl⟩
      rw [getProperty, lookup_eq_none_of_notMem habsent]
      exact isDeepJsonEqual_prototype hcount havoids
    have hsorted := (keySorted_obj_iff hnodup hkeys).1 (hiff.1 hdeep) fresh
    have hnone : lookup fresh (members (pre ++ ("__proto__", JsValue.obj entries) :: post)) = none :=
      lookup_eq_none_iff.2 fun h => hfresh ((keys_sortedMembers _).subset h)
    have hsome := lookup_members hkeys (show (fresh, JsValue.null) ∈ _ by simp)
    rw [hnone, hsome] at hsorted
    cases hsorted

end

theorem misjudged_of_not_avoidsInherited {left : JsValue} (hl : left.JsonLike) (h : ¬AvoidsInherited left) :
    Misjudged left := by
  induction left using JsValue.induct with
  | leaf left harr hobj =>
    cases left with
    | arr items => exact absurd rfl (harr items)
    | obj entries => exact absurd rfl (hobj entries)
    | _ => exact absurd trivial h
  | arr items ih =>
    have hexists : ∃ v ∈ items, ¬AvoidsInherited v := by
      by_contra hnone
      push Not at hnone
      exact h (itemsAvoidInherited_iff.2 hnone)
    obtain ⟨v, hv, hnot⟩ := hexists
    have hitems := itemsJsonLike_iff.1 hl
    obtain ⟨right, hright, hwrong⟩ := ih v hv (hitems v hv) hnot
    obtain ⟨pre, post, rfl⟩ := List.append_of_mem hv
    have hmem : ∀ w ∈ pre ++ post, w.JsonLike := by
      intro w hw
      rcases List.mem_append.1 hw with hpre | hpost
      · exact hitems w (List.mem_append_left _ hpre)
      · exact hitems w (List.mem_append_right _ (List.mem_cons_of_mem _ hpost))
    refine ⟨.arr (pre ++ right :: post), itemsJsonLike_iff.2 fun w hw => ?_, fun hiff => hwrong ?_⟩
    · rcases List.mem_append.1 hw with hpre | hpost
      · exact hmem w (List.mem_append_left _ hpre)
      · rcases List.mem_cons.1 hpost with rfl | hpost
        · exact hright
        · exact hmem w (List.mem_append_right _ hpost)
    · rw [isDeepJsonEqual_arr_iff, forall₂_replace_iff fun w hw => isDeepJsonEqual_refl (hmem w hw)] at hiff
      rw [hiff, keySorted, keySorted, sortedJson, sortedJson, id, id, sortedItems_eq_map, sortedItems_eq_map]
      simp [keySorted]
  | obj entries ih =>
    have hexists : ∃ e ∈ entries, ¬MemberAvoidsInherited e := by
      by_contra hnone
      push Not at hnone
      exact h (membersAvoidInherited_iff.2 hnone)
    obtain ⟨e, he, hnot⟩ := hexists
    have hmember := membersJsonLike_iff.1 hl.2 e he
    have hinner := ih e he
    obtain ⟨pre, post, rfl⟩ := List.append_of_mem he
    by_cases havoids : AvoidsInherited e.2
    · by_cases hundefined : e.2.isUndefined = true ∧ (inherited e.1).isUndefined = false
      · exact misjudged_undefined hl hundefined.1 hundefined.2
      · have hproto : e.1 = "__proto__" ∧ e.2.isRecord = true ∧ definedCount e.2 = 0 := by
          unfold MemberAvoidsInherited at hnot
          by_contra hno
          refine hnot ⟨fun hu => ?_, fun hk hr hc => hno ⟨hk, hr, hc⟩, havoids⟩
          by_contra hi
          exact hundefined ⟨hu, by simpa using hi⟩
        obtain ⟨entries, hentries⟩ : ∃ entries, e.2 = .obj entries := by
          rcases hmember with hu | hlike
          · rw [hu] at hproto
            cases hproto.2.1
          · cases hv : e.2 with
            | obj entries => exact ⟨entries, rfl⟩
            | prototype =>
              rw [hv] at hlike
              exact hlike.elim
            | _ =>
              rw [hv] at hproto
              cases hproto.2.1
        rw [hentries] at havoids hproto
        exact misjudged_proto hl hproto.1 hentries hproto.2.2 havoids
    · have hlike : e.2.JsonLike := by
        rcases hmember with hu | hlike
        · rw [hu] at havoids
          exact absurd trivial havoids
        · exact hlike
      exact misjudged_member hl hlike (hinner hlike havoids)

end

/-! ### Persisting what differs -/

/-- The document without the settings that the sync cycle keeps for itself. -/
def withoutBookkeeping (data : List (String × JsValue)) : JsValue :=
  .obj (withSettings (withoutSyncStatusBookkeeping (getProperty (.obj data) "settings")) data)

section
variable {data : List (String × JsValue)} {settings : JsValue}

theorem lookup_withSettings (key : String) :
    (withSettings settings data).lookup key = if key = "settings" then some settings else data.lookup key := by
  induction data with
  | nil =>
    rw [withSettings, List.lookup_cons]
    by_cases hkey : key = "settings"
    · simp [hkey]
    · have hne : (key == "settings") = false := by simpa using hkey
      rw [hne, if_neg hkey]
  | cons e data ih =>
    obtain ⟨k, v⟩ := e
    rw [withSettings]
    by_cases hk : k = "settings"
    · subst hk
      rw [if_pos rfl, List.lookup_cons, List.lookup_cons]
      by_cases hkey : key = "settings"
      · simp [hkey]
      · have hne : (key == "settings") = false := by simpa using hkey
        rw [hne, if_neg hkey]
    · rw [if_neg hk, List.lookup_cons, List.lookup_cons, ih]
      by_cases hkey : key = k
      · subst hkey
        simp [hk]
      · have hne : (key == k) = false := by simpa using hkey
        rw [hne]

theorem mem_withSettings {e : String × JsValue} (h : e ∈ withSettings settings data) :
    e = ("settings", settings) ∨ e ∈ data := by
  induction data with
  | nil => exact .inl (List.mem_singleton.1 h)
  | cons d data ih =>
    obtain ⟨k, v⟩ := d
    rw [withSettings] at h
    split_ifs at h with hk
    · rcases List.mem_cons.1 h with rfl | h
      · rw [hk]
        exact .inl rfl
      · exact .inr (List.mem_cons_of_mem _ h)
    · rcases List.mem_cons.1 h with rfl | h
      · exact .inr List.mem_cons_self
      · exact (ih h).imp id (List.mem_cons_of_mem _)

theorem nodup_withSettings (h : (data.map Prod.fst).Nodup) : ((withSettings settings data).map Prod.fst).Nodup := by
  induction data with
  | nil => simp [withSettings]
  | cons e data ih =>
    obtain ⟨k, v⟩ := e
    obtain ⟨hk, hrest⟩ := List.nodup_cons.1 h
    rw [withSettings]
    split_ifs with hsettings
    · exact h
    · refine List.nodup_cons.2 ⟨fun hmem => ?_, ih hrest⟩
      obtain ⟨d, hd, hdk⟩ := List.mem_map.1 hmem
      rcases mem_withSettings hd with rfl | hd
      · exact hsettings hdk.symm
      · exact hk (hdk ▸ List.mem_map_of_mem hd)

theorem jsonLike_withSettings (h : (JsValue.obj data).JsonLike) (hsettings : settings = .undefined ∨ settings.JsonLike) :
    (JsValue.obj (withSettings settings data)).JsonLike := by
  refine ⟨nodup_withSettings h.1, membersJsonLike_iff.2 fun e he => ?_⟩
  rcases mem_withSettings he with rfl | he
  · exact hsettings
  · exact membersJsonLike_iff.1 h.2 e he

theorem avoidsInherited_withSettings (h : AvoidsInherited (.obj data)) (hsettings : AvoidsInherited settings) :
    AvoidsInherited (.obj (withSettings settings data)) := by
  refine membersAvoidInherited_iff.2 fun e he => ?_
  rcases mem_withSettings he with rfl | he
  · have hname : "settings" ≠ "__proto__" := by decide
    exact ⟨fun _ => rfl, fun h => absurd h hname, hsettings⟩
  · exact membersAvoidInherited_iff.1 h e he

theorem settings_member (h : (JsValue.obj data).JsonLike) :
    getProperty (.obj data) "settings" = .undefined ∨ ("settings", getProperty (.obj data) "settings") ∈ data := by
  rw [getProperty]
  cases hlookup : data.lookup "settings" with
  | none => exact .inl rfl
  | some v =>
    obtain ⟨pre, post, rfl, -⟩ := List.lookup_eq_some_iff.1 hlookup
    exact .inr (by simp)

theorem jsonLike_withoutSyncStatusBookkeeping (h : (JsValue.obj data).JsonLike) :
    (withoutSyncStatusBookkeeping (getProperty (.obj data) "settings")).JsonLike := by
  have hsettings : getProperty (.obj data) "settings" = .undefined ∨ (getProperty (.obj data) "settings").JsonLike := by
    rcases settings_member h with hundefined | hmem
    · exact .inl hundefined
    · exact membersJsonLike_iff.1 h.2 _ hmem
  unfold withoutSyncStatusBookkeeping spreadSettings
  cases hvalue : getProperty (.obj data) "settings" with
  | obj entries =>
    rw [hvalue] at hsettings
    obtain ⟨hnodup, hmembers⟩ := hsettings.resolve_left nofun
    exact ⟨hnodup.sublist (List.filter_sublist.map _), membersJsonLike_iff.2 fun e he =>
      membersJsonLike_iff.1 hmembers e (List.mem_of_mem_filter he)⟩
  | _ => exact ⟨List.nodup_nil, trivial⟩

theorem avoidsInherited_withoutSyncStatusBookkeeping (h : (JsValue.obj data).JsonLike)
    (havoids : AvoidsInherited (.obj data)) :
    AvoidsInherited (withoutSyncStatusBookkeeping (getProperty (.obj data) "settings")) := by
  have hsettings : AvoidsInherited (getProperty (.obj data) "settings") := by
    rcases settings_member h with hundefined | hmem
    · rw [hundefined]
      trivial
    · exact (membersAvoidInherited_iff.1 havoids _ hmem).2.2
  unfold withoutSyncStatusBookkeeping spreadSettings
  cases hvalue : getProperty (.obj data) "settings" with
  | obj entries =>
    rw [hvalue] at hsettings
    exact membersAvoidInherited_iff.2 fun e he =>
      membersAvoidInherited_iff.1 hsettings e (List.mem_of_mem_filter he)
  | _ => exact trivial

theorem lookup_members_withSettings (h : (data.map Prod.fst).Nodup) (key : String) :
    lookup key (members (withSettings settings data)) =
      if key = "settings" then (if settings.isUndefined then none else some (keySorted settings))
      else lookup key (members data) := by
  rw [members, lookup_sortedMembers (nodup_withSettings h), lookup_withSettings, members, lookup_sortedMembers h]
  by_cases hkey : key = "settings"
  · rw [if_pos hkey, if_pos hkey, Option.bind_some]
    rfl
  · rw [if_neg hkey, if_neg hkey]

end

theorem isLocalPersistEquivalent_iff {candidate stored : List (String × JsValue)}
    (hcandidate : (JsValue.obj candidate).JsonLike) (hstored : (JsValue.obj stored).JsonLike)
    (havoids : AvoidsInherited (.obj candidate)) : isLocalPersistEquivalent candidate stored = true ↔
      keySorted (withoutBookkeeping candidate) = keySorted (withoutBookkeeping stored) := by
  have hsettings := jsonLike_withoutSyncStatusBookkeeping hcandidate
  have hsettings' := jsonLike_withoutSyncStatusBookkeeping hstored
  rw [isLocalPersistEquivalent, Bool.and_eq_true,
    isDeepJsonEqual_iff hsettings (avoidsInherited_withoutSyncStatusBookkeeping hcandidate havoids) hsettings',
    isDeepJsonEqual_iff (jsonLike_withSettings hcandidate (.inl rfl)) (avoidsInherited_withSettings havoids trivial)
      (jsonLike_withSettings hstored (.inl rfl)),
    withoutBookkeeping, withoutBookkeeping, keySorted_obj_iff (nodup_withSettings hcandidate.1) (nodup_withSettings hstored.1),
    keySorted_obj_iff (nodup_withSettings hcandidate.1) (nodup_withSettings hstored.1)]
  simp only [lookup_members_withSettings hcandidate.1, lookup_members_withSettings hstored.1, hsettings.not_undefined,
    hsettings'.not_undefined, Bool.false_eq_true, if_false]
  constructor
  · rintro ⟨hsame, hothers⟩ key
    have hkey := hothers key
    by_cases hname : key = "settings"
    · rw [if_pos hname, if_pos hname, hsame]
    · rw [if_neg hname, if_neg hname] at hkey ⊢
      exact hkey
  · intro h
    refine ⟨by simpa using h "settings", fun key => ?_⟩
    have hkey := h key
    by_cases hname : key = "settings"
    · rw [if_pos hname, if_pos hname]
    · rw [if_neg hname, if_neg hname] at hkey ⊢
      exact hkey

/-! ### Soundness -/

section
variable [Runtime] [NumberTextLaws]

theorem keySortedText_eq_iff {left right : JsValue} :
    keySortedText left = keySortedText right ↔ keySorted left = keySorted right :=
  ⟨stringify_injective, congrArg stringify⟩

/-- The documents that the comparison does not mistake. -/
def PlainDocument : Type := { v : JsValue // v.JsonLike ∧ AvoidsInherited v }

omit [Runtime] [NumberTextLaws] in
theorem equivalence_isDeepJsonEqual :
    Equivalence fun left right : PlainDocument => isDeepJsonEqual left.1 right.1 = true where
  refl v := isDeepJsonEqual_refl v.2.1
  symm {left right} h := by
    rw [isDeepJsonEqual_iff left.2.1 left.2.2 right.2.1] at h
    exact (isDeepJsonEqual_iff right.2.1 right.2.2 left.2.1).2 h.symm
  trans {left middle right} h h' := by
    rw [isDeepJsonEqual_iff left.2.1 left.2.2 middle.2.1] at h
    rw [isDeepJsonEqual_iff middle.2.1 middle.2.2 right.2.1] at h'
    exact (isDeepJsonEqual_iff left.2.1 left.2.2 right.2.1).2 (h.trans h')

/-- A document is compared with every other one as the key-sorted texts are exactly where it avoids what is inherited;
among such documents the comparison is an equivalence, and a local write is skipped only between documents that differ in
nothing but the bookkeeping of the sync cycle. -/
theorem isDeepJsonEqual_sound :
    (∀ left : JsValue, left.JsonLike →
      ((∀ right : JsValue, right.JsonLike →
        (isDeepJsonEqual left right = true ↔ keySortedText left = keySortedText right)) ↔ AvoidsInherited left)) ∧
    (Equivalence fun left right : PlainDocument => isDeepJsonEqual left.1 right.1 = true) ∧
    ∀ candidate stored : List (String × JsValue), (JsValue.obj candidate).JsonLike → (JsValue.obj stored).JsonLike →
      AvoidsInherited (.obj candidate) → (isLocalPersistEquivalent candidate stored = true ↔
        keySortedText (withoutBookkeeping candidate) = keySortedText (withoutBookkeeping stored)) := by
  refine ⟨fun left hl => ⟨fun h => ?_, fun havoids right hr => ?_⟩, equivalence_isDeepJsonEqual,
    fun candidate stored hcandidate hstored havoids => ?_⟩
  · by_contra havoids
    obtain ⟨right, hr, hwrong⟩ := misjudged_of_not_avoidsInherited hl havoids
    rw [← keySortedText_eq_iff] at hwrong
    exact hwrong (h right hr)
  · rw [keySortedText_eq_iff]
    exact isDeepJsonEqual_iff hl havoids hr
  · rw [keySortedText_eq_iff]
    exact isLocalPersistEquivalent_iff hcandidate hstored havoids

end

section
attribute [local instance] isoRuntime

theorem isDeepJsonEqual_sound_note :
    (∀ right : JsValue, right.JsonLike → (isDeepJsonEqual (.obj [("note", .str "a"), ("done", .undefined)]) right = true ↔
      keySortedText (.obj [("note", .str "a"), ("done", .undefined)]) = keySortedText right)) ↔
    AvoidsInherited (.obj [("note", .str "a"), ("done", .undefined)]) :=
  (@isDeepJsonEqual_sound isoRuntime numberTextLaws_isoRuntime).1 (.obj [("note", .str "a"), ("done", .undefined)])
    ⟨by decide, .inr trivial, .inl rfl, trivial⟩

/-- A member `toString` that is `undefined` differs from a missing one in one direction only, and a member `__proto__` that
is an empty object passes for any other member, also in the settings of a document. -/
theorem isDeepJsonEqual_inherited :
    isDeepJsonEqual (.obj [("toString", .undefined)]) (.obj []) = false ∧
    isDeepJsonEqual (.obj []) (.obj [("toString", .undefined)]) = true ∧
    keySortedText (.obj [("toString", .undefined)]) = keySortedText (.obj []) ∧
    isDeepJsonEqual (.obj [("__proto__", .obj [])]) (.obj [("theme", .str "dark")]) = true ∧
    keySortedText (.obj [("__proto__", .obj [])]) ≠ keySortedText (.obj [("theme", .str "dark")]) ∧
    isLocalPersistEquivalent [("settings", .obj [("__proto__", .obj [])])]
      [("settings", .obj [("theme", .str "dark")])] = true := by
  decide +kernel

end

end Mindwtr.Sync.DeepEquality
