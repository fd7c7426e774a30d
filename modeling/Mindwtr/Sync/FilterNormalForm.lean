import Mindwtr.Js.Equality
import Mindwtr.Sync.FilterAgreement

/-!
# The normal form of a saved filter

Writing a normalised filter and reading it again gives the same filter (`normalizeSavedFilter_record`): tokens are
trimmed and carry their prefix, options are among the allowed ones, and each of these stays as it is. A list of
normalised filters, one for each id, is read again as the same filters (`normalizeSavedFilters_json_perm`).
-/

namespace Mindwtr.Sync

open Mindwtr.Js

/-! ### Tokens -/

/-- A text that `normalizeTokens` leaves as it is. -/
structure IsToken (pre token : String) : Prop where
  nonBlank : isBlank token = false
  trimmed : trim token = token
  prefixed : normalizePrefixedToken pre token = token

theorem startsWith_append (pre s : String) : (pre ++ s).startsWith pre = true := by
  rw [String.startsWith_string_iff, String.toList_append]
  exact List.prefix_append _ _

theorem normalizePrefixedToken_idem (pre s : String) :
    normalizePrefixedToken pre (normalizePrefixedToken pre s) = normalizePrefixedToken pre s := by
  unfold normalizePrefixedToken
  by_cases h : s.startsWith pre = true
  · simp [h]
  · simp [h, startsWith_append]

/-- A prefix of visible characters does not change where a text ends. -/
theorem trim_append {pre s : String} (hpre : ∀ c ∈ pre.toList, isTrimmed c = false) (hs : isBlank s = false)
    (htrim : trim s = s) : trim (pre ++ s) = pre ++ s := by
  have hlist : (s.toList.dropWhile isTrimmed).rdropWhile isTrimmed = s.toList := by
    rw [trim] at htrim
    rw [← String.toList_inj, String.toList_ofList] at htrim
    exact htrim
  have hright : s.toList.rdropWhile isTrimmed = s.toList := by
    rw [← hlist, List.rdropWhile_idempotent]
  have hne : s.toList ≠ [] := by
    intro hnil
    have hempty : s = "" := by rw [← String.toList_inj, hnil]; rfl
    rw [hempty] at hs
    exact absurd hs (by decide +kernel)
  have hleft : (pre.toList ++ s.toList).dropWhile isTrimmed = pre.toList ++ s.toList := by
    cases hp : pre.toList with
    | nil =>
      have hprefix := List.rdropWhile_prefix isTrimmed (l := s.toList.dropWhile isTrimmed)
      rw [hlist] at hprefix
      have hsuffix := List.dropWhile_suffix isTrimmed (l := s.toList)
      rw [List.nil_append]
      exact hsuffix.eq_of_length_le hprefix.length_le
    | cons c pre' =>
      rw [List.cons_append, List.dropWhile_cons_of_neg]
      simp [hpre c (by simp [hp])]
  have hlast : (pre.toList ++ s.toList).rdropWhile isTrimmed = pre.toList ++ s.toList := by
    rw [List.rdropWhile_eq_self_iff]
    intro hne'
    rw [List.getLast_append_of_ne_nil _ hne]
    exact List.rdropWhile_eq_self_iff.1 hright hne
  rw [trim, String.toList_append, hleft, hlast, ← String.toList_append, String.ofList_toList]

theorem isToken_normalized {pre s : String} (hpre : ∀ c ∈ pre.toList, isTrimmed c = false) (hs : isBlank s = false) :
    IsToken pre (normalizePrefixedToken pre (trim s)) := by
  have htrim : trim (normalizePrefixedToken pre (trim s)) = normalizePrefixedToken pre (trim s) := by
    unfold normalizePrefixedToken
    split
    · exact trim_trim s
    · exact trim_append hpre (trim_ne_of_isBlank hs) (trim_trim s)
  refine ⟨?_, htrim, normalizePrefixedToken_idem pre (trim s)⟩
  rw [isBlank, htrim, beq_eq_false_iff_ne]
  intro hempty
  unfold normalizePrefixedToken at hempty
  split at hempty
  · rw [isBlank, hempty] at hs
    exact absurd hs (by decide)
  · have happend := congrArg String.toList hempty
    rw [String.toList_append] at happend
    have hnil := (List.append_eq_nil_iff.1 happend).2
    have htrimmed : trim s = "" := by rw [← String.toList_inj, hnil]; rfl
    rw [isBlank, htrimmed] at hs
    exact absurd hs (by decide)

section
variable [Runtime]

/-- Tokens of which no two differ in case only. -/
def AreTokens (pre : String) (tokens : List String) : Prop :=
  (∀ token ∈ tokens, IsToken pre token) ∧ (tokens.map Runtime.toLowerCase).Nodup

/-- One item of `normalizeTokens`. -/
def addToken (pre : String) (next : List String) (item : Json) : List String :=
  match item.asStr? with
  | none => next
  | some s =>
    if isBlank s then next
    else
      let normalized := normalizePrefixedToken pre (trim s)
      if next.any fun t => Runtime.toLowerCase t == Runtime.toLowerCase normalized then next
      else next ++ [normalized]

theorem areTokens_addToken {pre : String} (hpre : ∀ c ∈ pre.toList, isTrimmed c = false) {next : List String}
    (h : AreTokens pre next) (item : Json) : AreTokens pre (addToken pre next item) := by
  unfold addToken
  split
  · exact h
  · rename_i s hs
    split
    · exact h
    · rename_i hblank
      dsimp only
      split
      · exact h
      · rename_i hnew
        have hblank' : isBlank s = false := by simpa using hblank
        constructor
        · intro token htoken
          rcases List.mem_append.1 htoken with htoken | htoken
          · exact h.1 token htoken
          · rw [List.mem_singleton.1 htoken]
            exact isToken_normalized hpre hblank'
        · rw [List.map_append, List.nodup_append]
          refine ⟨h.2, List.nodup_singleton _, ?_⟩
          intro a ha b hb heq
          obtain ⟨t, ht, rfl⟩ := List.mem_map.1 ha
          rw [List.map_singleton, List.mem_singleton] at hb
          apply hnew
          rw [List.any_eq_true]
          exact ⟨t, ht, by rw [heq, hb]; simp⟩

theorem areTokens_normalizeTokens {pre : String} (hpre : ∀ c ∈ pre.toList, isTrimmed c = false) (items : List Json) :
    AreTokens pre (normalizeTokens pre items) := by
  have hfold : ∀ (next : List String), AreTokens pre next → AreTokens pre (items.foldl (addToken pre) next) := by
    induction items with
    | nil => exact fun _ h => h
    | cons item items ih => exact fun next h => ih _ (areTokens_addToken hpre h item)
  exact hfold [] ⟨by simp, by simp⟩

theorem normalizeTokens_of_areTokens {pre : String} {tokens : List String} (h : AreTokens pre tokens) :
    normalizeTokens pre (tokens.map Json.str) = tokens := by
  have hfold : ∀ (next rest : List String), AreTokens pre (next ++ rest) →
      (rest.map Json.str).foldl (addToken pre) next = next ++ rest := by
    intro next rest
    induction rest generalizing next with
    | nil => simp
    | cons token rest ih =>
      intro h
      have htoken := h.1 token (by simp)
      have hnew : (next.any fun t => Runtime.toLowerCase t == Runtime.toLowerCase token) = false := by
        rw [List.any_eq_false]
        intro t ht heq
        have hnodup := h.2
        rw [List.map_append, List.nodup_append] at hnodup
        exact hnodup.2.2 _ (List.mem_map_of_mem ht) _ (List.mem_map_of_mem List.mem_cons_self) (by simpa using heq)
      have hstep : addToken pre next (.str token) = next ++ [token] := by
        simp only [addToken, Json.asStr?, htoken.nonBlank, htoken.trimmed, htoken.prefixed, hnew, Bool.false_eq_true,
          if_false]
      rw [List.map_cons, List.foldl_cons, hstep, ih (next ++ [token]) (by simpa using h)]
      simp
  exact hfold [] tokens h

/-! ### Values that stay as they are -/

omit [Runtime] in
theorem nonEmptyStrings_some {list list' : List String} (h : nonEmptyStrings list = some list') :
    list' = list ∧ list ≠ [] := by
  unfold nonEmptyStrings at h
  split at h
  · cases h
  · rename_i hne
    exact ⟨(Option.some.inj h).symm, by simpa using hne⟩

/-- Tokens as `normalizeStringTokens` gives them. -/
def AreOptionalTokens (pre : String) (tokens : Option (List String)) : Prop :=
  ∀ list, tokens = some list → AreTokens pre list ∧ list ≠ []

theorem normalizeStringTokens_stringList {pre : String} {tokens : Option (List String)}
    (h : AreOptionalTokens pre tokens) : normalizeStringTokens pre (stringList tokens) = tokens := by
  cases tokens with
  | none => rfl
  | some list =>
    obtain ⟨hlist, hne⟩ := h list rfl
    simp [normalizeStringTokens, stringList, Json.asArr?, normalizeTokens_of_areTokens hlist, nonEmptyStrings, hne]

theorem areOptionalTokens_normalize {pre : String} (hpre : ∀ c ∈ pre.toList, isTrimmed c = false)
    (value : Option Json) : AreOptionalTokens pre (normalizeStringTokens pre value) := by
  intro list h
  unfold normalizeStringTokens at h
  cases hitems : value.bind Json.asArr? with
  | none =>
    rw [hitems] at h
    cases h
  | some items =>
    rw [hitems] at h
    obtain ⟨rfl, hne⟩ := nonEmptyStrings_some h
    exact ⟨areTokens_normalizeTokens hpre items, hne⟩

theorem areOptionalTokens_subtract {pre : String} {tokens : Option (List String)} (h : AreOptionalTokens pre tokens)
    (remove : Option (List String)) : AreOptionalTokens pre (subtractTokens tokens remove) := by
  intro list hlist
  unfold subtractTokens at hlist
  cases tokens with
  | none => cases hlist
  | some tokens =>
    obtain ⟨htokens, hne⟩ := h tokens rfl
    cases remove with
    | none =>
      obtain rfl := Option.some.inj hlist
      exact ⟨htokens, hne⟩
    | some remove =>
      obtain ⟨rfl, hne'⟩ := nonEmptyStrings_some hlist
      refine ⟨⟨?_, ?_⟩, hne'⟩
      · intro token htoken
        exact htokens.1 token (List.mem_filter.1 htoken).1
      · exact htokens.2.sublist (List.filter_sublist.map _)

/-- What was taken away before is not there to be taken away again. -/
theorem subtractTokens_idem (tokens remove : Option (List String)) :
    subtractTokens (subtractTokens tokens remove) remove = subtractTokens tokens remove := by
  cases tokens with
  | none => rfl
  | some tokens =>
    cases remove with
    | none => rfl
    | some remove =>
      simp only [subtractTokens, Option.bind_some]
      cases hkept : nonEmptyStrings
          (tokens.filter fun token => !(remove.map Runtime.toLowerCase).contains (Runtime.toLowerCase token)) with
      | none => rfl
      | some kept =>
        obtain ⟨rfl, hne⟩ := nonEmptyStrings_some hkept
        rw [Option.bind_some, List.filter_filter]
        simp only [Bool.and_self]
        exact hkept

omit [Runtime] in
theorem normalizeEnumArray_stringList (allowed : List String) (value : Option Json) :
    normalizeEnumArray allowed (stringList (normalizeEnumArray allowed value)) = normalizeEnumArray allowed value := by
  unfold normalizeEnumArray
  cases value.bind Json.asArr? with
  | none => rfl
  | some items =>
    simp only [Option.bind_some]
    cases hlist : nonEmptyStrings ((items.filterMap Json.asStr?).filter allowed.contains).reverse.dedup.reverse with
    | none => rfl
    | some list =>
      obtain ⟨rfl, hne⟩ := nonEmptyStrings_some hlist
      generalize hl : ((items.filterMap Json.asStr?).filter allowed.contains).reverse.dedup.reverse = list at hne hlist
      have hnodup : list.reverse.Nodup := by
        rw [← hl, List.reverse_reverse]
        exact List.nodup_dedup _
      have hallowed : list.filter allowed.contains = list := by
        rw [List.filter_eq_self]
        intro v hv
        rw [← hl, List.mem_reverse, List.mem_dedup, List.mem_reverse] at hv
        exact (List.mem_filter.1 hv).2
      have hstrings : (list.map Json.str).filterMap Json.asStr? = list := by
        rw [List.filterMap_map]
        exact List.filterMap_some
      simp only [stringList, Option.map_some, Option.bind_some, Json.asArr?, hstrings, hallowed, hnodup.dedup,
        List.reverse_reverse]
      exact hlist

omit [Runtime] in
theorem optionOf_idem (values : List String) (v : Option Json) :
    optionOf values (optionOf values v) = optionOf values v := by
  simp [optionOf, Option.filter_filter]

omit [Runtime] in
theorem booleanOf_idem (v : Option Json) : booleanOf (booleanOf v) = booleanOf v := by
  simp [booleanOf, Option.filter_filter]

omit [Runtime] in
theorem trimmedString_idem (v : Option Json) : trimmedString (trimmedString v) = trimmedString v := by
  unfold trimmedString
  cases hs : (asStr? v).filter fun s => !isBlank s with
  | none => rfl
  | some s =>
    have hblank : isBlank s = false := by simpa using (Option.filter_eq_some_iff.1 hs).2
    simp [Json.asStr?, Option.filter, trim_ne_of_isBlank hblank, trim_trim]

omit [Runtime] in
theorem lookup_fields {fields : List (String × Option Json)} {key : String} {v : Option Json}
    (hnodup : (fields.map Prod.fst).Nodup) (hmem : (key, v) ∈ fields) :
    lookup key (fields.filterMap fun e => e.2.map fun v => (e.1, v)) = v := by
  induction fields with
  | nil => cases hmem
  | cons e fields ih =>
    obtain ⟨k, w⟩ := e
    rw [List.map_cons, List.nodup_cons] at hnodup
    rw [lookup_fields_cons]
    rcases List.mem_cons.1 hmem with heq | hmem
    · obtain ⟨rfl, rfl⟩ := Prod.mk.inj heq
      rw [if_pos rfl]
      cases v with
      | some v => rfl
      | none =>
        apply lookup_eq_none_iff.2
        intro hkey
        obtain ⟨e, he, hek⟩ := List.mem_map.1 hkey
        obtain ⟨e', he', hmap⟩ := List.mem_filterMap.1 he
        obtain ⟨v', -, rfl⟩ := Option.map_eq_some_iff.1 hmap
        exact hnodup.1 (List.mem_map.2 ⟨e', he', hek⟩)
    · have hne : k ≠ key := by
        rintro rfl
        exact hnodup.1 (List.mem_map.2 ⟨_, hmem, rfl⟩)
      rw [if_neg hne, ih hnodup.2 hmem]

omit [Runtime] in
theorem normalizeDateRange_preset {range : Record} {preset : Json}
    (h : optionOf datePresetValues (lookup "preset" range) = some preset) :
    normalizeDateRange (some (.obj range)) = some (.obj [("preset", preset)]) := by
  simp [normalizeDateRange, h]

omit [Runtime] in
theorem normalizeDateRange_dates {range : Record} (h : optionOf datePresetValues (lookup "preset" range) = none) :
    normalizeDateRange (some (.obj range)) =
      nonEmptyRecord (pickProps ["from", "to"] fun key => trimmedString (lookup key range)) := by
  simp [normalizeDateRange, h]

omit [Runtime] in
theorem normalizeDateRange_idem (v : Option Json) :
    normalizeDateRange (normalizeDateRange v) = normalizeDateRange v := by
  have hrecord : ∀ range : Record,
      normalizeDateRange (normalizeDateRange (some (.obj range))) = normalizeDateRange (some (.obj range)) := by
    intro range
    cases hpreset : optionOf datePresetValues (lookup "preset" range) with
    | some preset =>
      have hstays : optionOf datePresetValues (lookup "preset" [("preset", preset)]) = some preset := by
        rw [show lookup "preset" [("preset", preset)] = some preset from rfl, ← hpreset, optionOf_idem]
      rw [normalizeDateRange_preset hpreset, normalizeDateRange_preset hstays]
    | none =>
      rw [normalizeDateRange_dates hpreset]
      generalize hdates : pickProps ["from", "to"] (fun key => trimmedString (lookup key range)) = dates
      have hnone : lookup "preset" dates = none := by
        rw [← hdates, lookup_pickProps, if_neg (by decide)]
      have hsame : (pickProps ["from", "to"] fun key => trimmedString (lookup key dates)) = dates := by
        conv_rhs => rw [← hdates]
        apply List.filterMap_congr
        intro key hkey
        dsimp only
        rw [← hdates, lookup_pickProps, if_pos hkey, trimmedString_idem]
      cases hempty : dates.isEmpty with
      | true => simp [nonEmptyRecord, hempty, normalizeDateRange]
      | false =>
        have hnext : nonEmptyRecord dates = some (.obj dates) := by simp [nonEmptyRecord, hempty]
        rw [hnext, normalizeDateRange_dates (by rw [hnone]; rfl), hsame, hnext]
  cases v with
  | none => rfl
  | some v =>
    cases v with
    | obj range => exact hrecord range
    | _ => rfl

omit [Runtime] in
theorem wholeMinutes_idem (v : Option Json) : wholeMinutes (wholeMinutes v) = wholeMinutes v := by
  unfold wholeMinutes
  cases asNum? v with
  | none => rfl
  | some n =>
    simp only [Option.map_some, asNum?_some, Json.asNum?, Option.some.injEq, Json.num.injEq]
    have hfloor : ((max 0 n.floor : Int) : Rat).floor = max 0 n.floor := Rat.floor_intCast _
    push_cast at hfloor ⊢
    rw [hfloor]
    simp

omit [Runtime] in
theorem normalizeTimeEstimateRange_idem (v : Option Json) :
    normalizeTimeEstimateRange (normalizeTimeEstimateRange v) = normalizeTimeEstimateRange v := by
  have hsame : pickProps ["min", "max"] (fun key => wholeMinutes (prop (normalizeTimeEstimateRange v) key)) =
      pickProps ["min", "max"] fun key => wholeMinutes (prop v key) := by
    apply List.filterMap_congr
    intro key hkey
    dsimp only
    rw [normalizeTimeEstimateRange, prop_nonEmptyRecord, lookup_pickProps, if_pos hkey, wholeMinutes_idem]
  rw [normalizeTimeEstimateRange, hsame, normalizeTimeEstimateRange]

/-! ### The criteria -/

/-- The criteria with those that are not there. -/
def criteriaFields (value : Option Json) : List (String × Option Json) :=
  let contexts := normalizeStringTokens "@" (prop value "contexts")
  let tags := normalizeStringTokens "#" (prop value "tags")
  let matchMode (tokens : Option (List String)) (key : String) : Option Json :=
    if tokens.isSome then optionOf matchModeValues (prop value key) else none
  [("contexts", stringList contexts),
    ("contextMatchMode", matchMode contexts "contextMatchMode"),
    ("excludedContexts",
      stringList (subtractTokens (normalizeStringTokens "@" (prop value "excludedContexts")) contexts)),
    ("areas", stringList (normalizeStringTokens "" (prop value "areas"))),
    ("projects", stringList (normalizeStringTokens "" (prop value "projects"))),
    ("tags", stringList tags),
    ("tagMatchMode", matchMode tags "tagMatchMode"),
    ("excludedTags", stringList (subtractTokens (normalizeStringTokens "#" (prop value "excludedTags")) tags)),
    ("energy", stringList (normalizeEnumArray taskEnergyValues (prop value "energy"))),
    ("priority", stringList (normalizeEnumArray filterPriorityValues (prop value "priority"))),
    ("statuses", stringList (normalizeEnumArray filterStatusValues (prop value "statuses"))),
    ("assignedTo", stringList (normalizeStringTokens "" (prop value "assignedTo"))),
    ("locations", stringList (normalizeStringTokens "" (prop value "locations"))),
    ("timeEstimates", stringList (normalizeEnumArray timeEstimateValues (prop value "timeEstimates"))),
    ("dueDateRange", normalizeDateRange (prop value "dueDateRange")),
    ("startDateRange", normalizeDateRange (prop value "startDateRange")),
    ("timeEstimateRange", normalizeTimeEstimateRange (prop value "timeEstimateRange")),
    ("hasDescription", booleanOf (prop value "hasDescription")),
    ("isStarred", booleanOf (prop value "isStarred"))]

theorem normalizeFilterCriteria_eq (value : Option Json) :
    normalizeFilterCriteria value = (criteriaFields value).filterMap fun e => e.2.map fun v => (e.1, v) := rfl

theorem lookup_criteria {value : Option Json} (i : Nat) {key : String} {v : Option Json}
    (h : (criteriaFields value)[i]? = some (key, v)) : lookup key (normalizeFilterCriteria value) = v := by
  have hkeys : ((criteriaFields value).map Prod.fst).Nodup := by
    simp [criteriaFields]
  exact lookup_fields hkeys (List.mem_of_getElem? h)

theorem areOptionalTokens_context (value : Option Json) : AreOptionalTokens "@" (normalizeStringTokens "@" value) := by
  apply areOptionalTokens_normalize
  intro c hc
  obtain rfl : c = '@' := by simpa using hc
  decide

theorem areOptionalTokens_tag (value : Option Json) : AreOptionalTokens "#" (normalizeStringTokens "#" value) := by
  apply areOptionalTokens_normalize
  intro c hc
  obtain rfl : c = '#' := by simpa using hc
  decide

theorem areOptionalTokens_plain (value : Option Json) : AreOptionalTokens "" (normalizeStringTokens "" value) := by
  apply areOptionalTokens_normalize
  simp

/-- Normal criteria are read again as they are. -/
theorem normalizeFilterCriteria_idem (value : Option Json) :
    normalizeFilterCriteria (some (.obj (normalizeFilterCriteria value))) = normalizeFilterCriteria value := by
  have hmode : ∀ (tokens : Option (List String)) (v : Option Json),
      (if tokens.isSome then optionOf matchModeValues (if tokens.isSome then optionOf matchModeValues v else none)
        else none) = if tokens.isSome then optionOf matchModeValues v else none := by
    intro tokens v
    cases tokens with
    | none => rfl
    | some tokens => exact optionOf_idem _ _
  have hfields : criteriaFields (some (.obj (normalizeFilterCriteria value))) = criteriaFields value := by
    have hread := @lookup_criteria _ value
    generalize normalizeFilterCriteria value = written at hread
    simp only [criteriaFields, prop_obj, hread 0 rfl, hread 1 rfl, hread 2 rfl, hread 3 rfl, hread 4 rfl, hread 5 rfl,
      hread 6 rfl, hread 7 rfl, hread 8 rfl, hread 9 rfl, hread 10 rfl, hread 11 rfl, hread 12 rfl, hread 13 rfl,
      hread 14 rfl, hread 15 rfl, hread 16 rfl, hread 17 rfl, hread 18 rfl,
      normalizeStringTokens_stringList (areOptionalTokens_context _),
      normalizeStringTokens_stringList (areOptionalTokens_tag _),
      normalizeStringTokens_stringList (areOptionalTokens_plain _),
      normalizeStringTokens_stringList (areOptionalTokens_subtract (areOptionalTokens_context _) _),
      normalizeStringTokens_stringList (areOptionalTokens_subtract (areOptionalTokens_tag _) _),
      normalizeEnumArray_stringList, subtractTokens_idem, hmode, normalizeDateRange_idem,
      normalizeTimeEstimateRange_idem, booleanOf_idem]
  rw [normalizeFilterCriteria_eq (some _), hfields, ← normalizeFilterCriteria_eq]

/-! ### The filter -/

/-- A filter with its fields that are not there. -/
def filterFields (filter : SavedFilter) : List (String × Option Json) :=
  [("id", some (.str filter.id)), ("name", some (.str filter.name)), ("icon", filter.icon),
    ("view", some filter.view), ("criteria", some (.obj filter.criteria)), ("sortBy", filter.sortBy),
    ("sortOrder", filter.sortOrder), ("groupBy", filter.groupBy), ("createdAt", some (.str filter.createdAt)),
    ("updatedAt", some (.str filter.updatedAt)), ("deletedAt", filter.deletedAt)]

omit [Runtime] in
theorem lookup_filter {filter : SavedFilter} (i : Nat) {key : String} {v : Option Json}
    (h : (filterFields filter)[i]? = some (key, v)) : lookup key filter.record = v := by
  have hkeys : ((filterFields filter).map Prod.fst).Nodup := by
    simp [filterFields]
  exact lookup_fields hkeys (List.mem_of_getElem? h)

/-- A text that is not blank. -/
def nonBlankText (v : Option Json) : Option String := (asStr? v).filter fun s => !isBlank s

omit [Runtime] in
theorem nonBlankText_str {s : String} (h : isBlank s = false) : nonBlankText (some (.str s)) = some s := by
  simp [nonBlankText, Json.asStr?, Option.filter, h]

omit [Runtime] in
theorem isBlank_of_nonBlankText {v : Option Json} {s : String} (h : nonBlankText v = some s) : isBlank s = false := by
  simpa using (Option.filter_eq_some_iff.1 h).2

omit [Runtime] in
/-- A time that falls back to another one is read again as it is. -/
theorem nonBlankText_getD (v : Option Json) (fallback : String) :
    (nonBlankText (some (.str ((nonBlankText v).getD fallback)))).getD fallback = (nonBlankText v).getD fallback := by
  cases hv : nonBlankText v with
  | some s => rw [Option.getD_some, nonBlankText_str (isBlank_of_nonBlankText hv), Option.getD_some]
  | none =>
    rw [Option.getD_none]
    cases hblank : isBlank fallback with
    | false => rw [nonBlankText_str hblank, Option.getD_some]
    | true => simp [nonBlankText, Json.asStr?, Option.filter, hblank]

omit [Runtime] in
theorem optionOf_focus (v : Option Json) : (optionOf savedFilterViewValues (some
    ((optionOf savedFilterViewValues v).getD (.str "focus")))).getD (.str "focus") =
      (optionOf savedFilterViewValues v).getD (.str "focus") := by
  cases hv : optionOf savedFilterViewValues v with
  | some view =>
    have hstays : optionOf savedFilterViewValues (some view) = some view := by
      rw [← hv, optionOf_idem]
    rw [Option.getD_some, hstays, Option.getD_some]
  | none => decide +kernel

/-- A normalised filter that is written and read again is the same. -/
theorem normalizeSavedFilter_record {now : String} {item : Json} {filter : SavedFilter}
    (h : normalizeSavedFilter now item = some filter) : normalizeSavedFilter now (.obj filter.record) = some filter := by
  have hread := @lookup_filter filter
  generalize filter.record = written at hread
  unfold normalizeSavedFilter at h ⊢
  have htext : ∀ v : Option Json, ((asStr? v).filter fun s => !isBlank s) = nonBlankText v := fun _ => rfl
  simp only [htext] at h ⊢
  cases hid : nonBlankText (prop (some item) "id") with
  | none => simp [hid] at h
  | some id =>
    cases hname : nonBlankText (prop (some item) "name") with
    | none => simp [hid, hname] at h
    | some name =>
      have hidText := nonBlankText_str (trim_ne_of_isBlank (isBlank_of_nonBlankText hid))
      have hnameText := nonBlankText_str (trim_ne_of_isBlank (isBlank_of_nonBlankText hname))
      simp only [hid, hname, Option.some.injEq] at h
      subst h
      simp only [prop_obj, hread 0 rfl, hread 1 rfl, hread 2 rfl, hread 3 rfl, hread 4 rfl, hread 5 rfl, hread 6 rfl,
        hread 7 rfl, hread 8 rfl, hread 9 rfl, hread 10 rfl, hidText, hnameText, trim_trim, trimmedString_idem,
        optionOf_idem, optionOf_focus, normalizeFilterCriteria_idem, nonBlankText_getD]

/-! ### Lists of filters -/

/-- Filters in their normal form, one for each id. -/
structure AreNormalised (now : String) (filters : List SavedFilter) : Prop where
  nodup : (filters.map SavedFilter.id).Nodup
  normal : ∀ filter ∈ filters, normalizeSavedFilter now (.obj filter.record) = some filter

theorem AreNormalised.perm {now : String} {filters filters' : List SavedFilter} (h : AreNormalised now filters)
    (hperm : filters.Perm filters') : AreNormalised now filters' :=
  ⟨(hperm.map SavedFilter.id).nodup_iff.1 h.nodup, fun filter hf => h.normal filter (hperm.mem_iff.2 hf)⟩

theorem areNormalised_normalize (now : String) (value : Option Json) :
    AreNormalised now (normalizeSavedFilters now value) := by
  refine ⟨nodup_normalizeSavedFilters now value, fun filter hfilter => ?_⟩
  obtain ⟨_, -, _, -, hnormal⟩ := mem_normalizeSavedFilters hfilter
  exact normalizeSavedFilter_record hnormal

/-- Normalised filters that are written and read again are the same, up to their order. -/
theorem normalizeSavedFilters_json {now : String} {filters : List SavedFilter} (h : AreNormalised now filters) :
    (normalizeSavedFilters now (some (savedFiltersJson filters))).Perm filters := by
  have hitems : (filters.map fun filter => Json.obj filter.record).filterMap (normalizeSavedFilter now) = filters := by
    have hall := h.normal
    rw [List.filterMap_map]
    clear h
    induction filters with
    | nil => rfl
    | cons filter filters ih =>
      have hfilter : (normalizeSavedFilter now ∘ fun filter => Json.obj filter.record) filter = some filter :=
        hall filter (by simp)
      rw [List.filterMap_cons_some hfilter, ih fun f hf => hall f (by simp [hf])]
  exact normalizeSavedFilters_perm_of_nodup hitems h.nodup

omit [Runtime] in
theorem withId_eq_some {filters : List SavedFilter} (h : (filters.map SavedFilter.id).Nodup) {id : String}
    {filter : SavedFilter} : withId filters id = some filter ↔ filter ∈ filters ∧ filter.id = id := by
  constructor
  · exact withId_some
  · intro hfilter
    rw [withId, ← JsMap.get?_ofItems_find h, JsMap.get?_ofItems h]
    exact hfilter

omit [Runtime] in
theorem withId_perm {filters filters' : List SavedFilter} (h : (filters.map SavedFilter.id).Nodup)
    (hperm : filters.Perm filters') (id : String) : withId filters id = withId filters' id := by
  have h' := (hperm.map SavedFilter.id).nodup_iff.1 h
  apply Option.ext
  intro filter
  rw [withId_eq_some h, withId_eq_some h', hperm.mem_iff]

/-- Of each id, the merge holds the filter that the two lists give it. -/
theorem withId_mergeSavedFiltersById (now : String) (localValue incomingValue : Option Json) (wins : Bool) :
    AreNormalised now (mergeSavedFiltersById now localValue incomingValue wins) ∧
      ∀ id, withId (mergeSavedFiltersById now localValue incomingValue wins) id =
        chooseEither (withId (normalizeSavedFilters now localValue) id)
          (withId (normalizeSavedFilters now incomingValue) id) wins := by
  have hl := areNormalised_normalize now localValue
  have hi := areNormalised_normalize now incomingValue
  have hget := fun id => get?_mergedById hl.nodup hi.nodup wins id
  generalize hmap : mergedById (normalizeSavedFilters now localValue) (normalizeSavedFilters now incomingValue) wins =
    merged at hget
  have hmem : ∀ id filter, merged.get? id = some filter → filter.id = id ∧
      (filter ∈ normalizeSavedFilters now localValue ∨ filter ∈ normalizeSavedFilters now incomingValue) := by
    intro id filter h
    rw [hget] at h
    exact mem_of_chooseEither h
  have hvalues : AreNormalised now (merged.entries.map Prod.snd) := by
    constructor
    · exact JsMap.nodup_values fun id filter h => (hmem id filter h).1
    · intro filter hfilter
      obtain ⟨e, he, rfl⟩ := List.mem_map.1 hfilter
      rcases (hmem e.1 e.2 ((JsMap.mem_entries_iff _ e).1 he)).2 with h | h
      · exact hl.normal _ h
      · exact hi.normal _ h
  have hperm : (mergeSavedFiltersById now localValue incomingValue wins).Perm (merged.entries.map Prod.snd) := by
    rw [← hmap] at hvalues ⊢
    exact normalizeSavedFilters_json hvalues
  refine ⟨hvalues.perm hperm.symm, ?_⟩
  intro id
  rw [withId_perm (hvalues.perm hperm.symm).nodup hperm, ← hget]
  apply Option.ext
  intro filter
  rw [withId_eq_some hvalues.nodup]
  constructor
  · intro h
    obtain ⟨hfilter, rfl⟩ := h
    obtain ⟨e, he, rfl⟩ := List.mem_map.1 hfilter
    have hentry := (JsMap.mem_entries_iff _ e).1 he
    rw [(hmem e.1 e.2 hentry).1]
    exact hentry
  · intro h
    exact ⟨List.mem_map.2 ⟨(id, filter), (JsMap.mem_entries_iff _ (id, filter)).2 h, rfl⟩, (hmem id filter h).1⟩

theorem chooseEither_self (l : Option SavedFilter) (wins : Bool) : chooseEither l l wins = l := by
  cases l with
  | none => rfl
  | some l =>
    rcases chooseSavedFilter_eq_or l l wins with h | h
    · exact congrArg some h
    · exact congrArg some h

end

end Mindwtr.Sync
