import Mindwtr.Entity.Recurrence
import Mindwtr.Js.Throw
import Mindwtr.Js.Uri
import Mindwtr.Lib.StableSort

/-!
# Loading a recurrence again

`normalizeRecurrenceForLoad` reads every field of its own result as it wrote it, with three exceptions
(`load_twice_iff`): the text form does not look for a series id, a count that rounds to 0 hides the one of the fragment
for one pass only, and taking the series id out of the front of a fragment may leave it with a space before it.
-/

namespace Mindwtr

open Mindwtr.Js Mindwtr.Lib

/-- What loading a recurrence twice uses of the language. -/
class RuleTextLaws [Runtime] : Prop where
  toUpperCase_ascii (s : String) (h : ∀ c ∈ s.toList, c.toNat < 128) :
    Runtime.toUpperCase s = String.ofList (s.toList.map Char.toUpper)
  toUpperCase_trim (s : String) : Runtime.toUpperCase (trim s) = trim (Runtime.toUpperCase s)
  toNumber_numberToString {s : String} {n : Rat} (h : Runtime.toNumber s = some n) :
    Runtime.toNumber (Runtime.numberToString n) = some n
  encodeURIComponent_plain (s : String) : ∀ c ∈ (Runtime.encodeURIComponent s).toList, isTrimmed c = false ∧ c ≠ ';'
  numberToString_plain (n : Rat) : ';' ∉ (Runtime.numberToString n).toList
  toISOString_text (t : Int) : isBlank (Runtime.toISOString t) = false
  formatLocal_text (t : Int) : isBlank (Runtime.formatLocal t) = false

section
variable [Runtime]

/-- `normalizeRecurrenceForLoad`, which throws where a day of `byDay` is not a text. -/
def loadRecurrence (value : Option Json) : Except JsError (Option Json) :=
  let loaded := normalizeRecurrenceForLoad value
  let days := ((value.bind Json.asObj?).bind fun entries => (lookup "byDay" entries).bind Json.asArr?).getD []
  if loaded.isSome ∧ days.any (fun day => day.asStr?.isNone) = true then
    .error (.typeError "token.toUpperCase is not a function")
  else .ok loaded

/-! ### Lists of days -/

theorem toUpperCase_of_upper [RuleTextLaws] {s : String} (h : s.toList.all fun c => c.toNat < 128 && c.toUpper == c) :
    Runtime.toUpperCase s = s := by
  simp only [List.all_eq_true, Bool.and_eq_true, decide_eq_true_eq, beq_iff_eq] at h
  rw [RuleTextLaws.toUpperCase_ascii s fun c hc => (h c hc).1, List.map_congr_left fun c hc => (h c hc).2, List.map_id',
    String.ofList_toList]

def byDayTokens : List String := ["", "-1", "1", "2", "3", "4"].flatMap fun ordinal => weekdayOrder.map (ordinal ++ ·)

theorem mem_byDayTokens_of_parse {token day : String} (h : parseByDayToken token = some day) : day ∈ byDayTokens := by
  simp only [parseByDayToken] at h
  split at h
  · next hmem => exact Option.some.inj h ▸ List.contains_iff_mem.1 hmem
  · cases h

theorem parseByDayToken_of_mem [RuleTextLaws] {day : String} (h : day ∈ byDayTokens) : parseByDayToken day = some day := by
  have hall : byDayTokens.all fun day =>
      (day.toList.all fun c => c.toNat < 128 && c.toUpper == c) && trim day == day := by decide +kernel
  obtain ⟨hupper, htrim⟩ := Bool.and_eq_true_iff.1 (List.all_eq_true.1 hall day h)
  simp only [parseByDayToken, toUpperCase_of_upper hupper, beq_iff_eq.1 htrim]
  exact if_pos (List.contains_iff_mem.2 h)

theorem normalizeWeekdays_again [RuleTextLaws] {days normalized : List String}
    (h : normalizeWeekdays days = some normalized) : normalizeWeekdays normalized = some normalized := by
  obtain ⟨hkept, hne⟩ : (days.filterMap parseByDayToken).eraseDups = normalized ∧ normalized ≠ [] := by
    unfold normalizeWeekdays at h
    split at h
    · cases h
    · next hne => exact ⟨Option.some.inj h, fun hnil => hne (Option.some.inj h ▸ hnil)⟩
  have hparsed : normalized.filterMap parseByDayToken = normalized := by
    refine (List.filterMap_congr fun day hday => ?_).trans List.filterMap_some
    rw [← hkept, List.mem_eraseDups, List.mem_filterMap] at hday
    obtain ⟨token, -, htoken⟩ := hday
    exact parseByDayToken_of_mem (mem_byDayTokens_of_parse htoken)
  have hnodup : normalized.Nodup := hkept ▸ nodup_eraseDups _
  unfold normalizeWeekdays
  rw [hparsed, eraseDups_of_nodup hnodup]
  obtain ⟨day, rest, rfl⟩ := List.exists_cons_of_ne_nil hne
  rfl

theorem normalizeWeekStart_none [RuleTextLaws] : normalizeWeekStart none = none := by
  have hparse : parseByDayToken "" = none := by
    simp only [parseByDayToken, toUpperCase_of_upper (s := "") rfl]
    exact if_neg (by decide +kernel)
  simp [normalizeWeekStart, hparse]

theorem normalizeWeekStart_again [RuleTextLaws] {value : Option Json} {day : String}
    (h : normalizeWeekStart value = some day) : normalizeWeekStart (some (.str day)) = some day := by
  obtain ⟨hparsed, hday⟩ := Option.filter_eq_some_iff.1 h
  have hmem := mem_byDayTokens_of_parse hparsed
  have hne : day ≠ "" := by
    rintro rfl
    exact absurd hday (by decide +kernel)
  simp only [normalizeWeekStart, truthy_some, Json.truthy_str, hne, ne_eq, not_false_eq_true, decide_true, if_true,
    Option.map_some, Option.getD_some, toStr, parseByDayToken_of_mem hmem]
  exact Option.filter_eq_some_iff.2 ⟨rfl, hday⟩

theorem normalizeMonthDays_again [RuleTextLaws] {days : List String} {normalized : List Rat}
    (h : normalizeMonthDays days = some normalized) :
    normalizeMonthDays (normalized.map Runtime.numberToString) = some normalized := by
  obtain ⟨hkept, hne⟩ : (((days.filterMap Runtime.toNumber).filter fun day =>
      decide (1 ≤ day ∧ day ≤ 31 ∨ day = -1)).eraseDups.insertionSort (· ≤ ·)) = normalized ∧ normalized ≠ [] := by
    unfold normalizeMonthDays at h
    dsimp only at h
    split at h
    · cases h
    · next hne => exact ⟨Option.some.inj h, fun hnil => hne (Option.some.inj h ▸ hnil)⟩
  have hmem : ∀ day ∈ normalized, (∃ s, Runtime.toNumber s = some day) ∧ decide (1 ≤ day ∧ day ≤ 31 ∨ day = -1) = true := by
    intro day hday
    rw [← hkept, List.mem_insertionSort, List.mem_eraseDups, List.mem_filter, List.mem_filterMap] at hday
    obtain ⟨⟨s, -, hs⟩, hvalid⟩ := hday
    exact ⟨⟨s, hs⟩, hvalid⟩
  have hread : (normalized.map Runtime.numberToString).filterMap Runtime.toNumber = normalized := by
    rw [List.filterMap_map]
    refine (List.filterMap_congr fun day hday => ?_).trans List.filterMap_some
    obtain ⟨⟨s, hs⟩, -⟩ := hmem day hday
    exact RuleTextLaws.toNumber_numberToString hs
  have hvalid : normalized.filter (fun day => decide (1 ≤ day ∧ day ≤ 31 ∨ day = -1)) = normalized :=
    List.filter_eq_self.2 fun day hday => (hmem day hday).2
  have hsorted : normalized.Pairwise (· ≤ ·) := hkept ▸ List.pairwise_insertionSort _ _
  have hnodup : normalized.Nodup := hkept ▸ (List.perm_insertionSort _ _).nodup_iff.2 (nodup_eraseDups _)
  unfold normalizeMonthDays
  dsimp only
  rw [hread, hvalid, eraseDups_of_nodup hnodup, List.Pairwise.insertionSort_eq hsorted]
  obtain ⟨day, rest, rfl⟩ := List.exists_cons_of_ne_nil hne
  rfl

/-! ### The series id in a fragment -/

omit [Runtime] in
theorem isBlank_of_mem {s : String} {c : Char} (hmem : c ∈ s.toList) (hc : isTrimmed c = false) : isBlank s = false := by
  refine Bool.eq_false_iff.2 fun hblank => ?_
  have hnil : (s.toList.dropWhile isTrimmed).rdropWhile isTrimmed = [] := by
    have htrim := congrArg String.toList (beq_iff_eq.1 hblank)
    simpa [trim] using htrim
  rw [← List.takeWhile_append_dropWhile (p := isTrimmed) (l := s.toList), List.mem_append] at hmem
  rcases hmem with hmem | hmem
  · rw [List.mem_takeWhile_imp hmem] at hc
    cases hc
  · rw [List.rdropWhile_eq_nil_iff.1 hnil c hmem] at hc
    cases hc

omit [Runtime] in
theorem isBlank_eq_false {s : String} (h : trim s ≠ "") : isBlank s = false := by
  simpa [isBlank] using h

theorem getSeriesIdFromRRule_text {rrule : Option String} {s : String} (h : getSeriesIdFromRRule rrule = some s) :
    trim s = s ∧ isBlank s = false := by
  unfold getSeriesIdFromRRule at h
  split at h
  · cases h
  · split at h
    · cases h
    · next token _ =>
      dsimp only at h
      split at h
      · cases h
      · next hraw =>
        split at h
        · split at h
          · cases h
          · next hdecoded =>
            obtain rfl := Option.some.inj h
            exact ⟨trim_trim _, isBlank_eq_false (by rw [trim_trim]; exact hdecoded)⟩
        · obtain rfl := Option.some.inj h
          exact ⟨trim_trim _, isBlank_eq_false (by rw [trim_trim]; exact hraw)⟩

/-- One part of a fragment, read. -/
def addToken (acc : List (String × String)) (part : String) : List (String × String) :=
  match splitOn '=' part with
  | key :: value :: _ =>
    if key = "" ∨ value = "" then acc
    else (Runtime.toUpperCase key, value) :: acc.filter (·.1 != Runtime.toUpperCase key)
  | _ => acc

theorem rruleTokens_eq (rrule : String) : rruleTokens rrule = (splitOn ';' rrule).foldl addToken [] := rfl

omit [Runtime] in
theorem lookup_filter_bne {key name : String} (h : name ≠ key) (acc : List (String × String)) :
    (acc.filter (·.1 != key)).lookup name = acc.lookup name := by
  induction acc with
  | nil => rfl
  | cons entry acc ih =>
    obtain ⟨k, v⟩ := entry
    by_cases hk : k = key
    · subst hk
      rw [List.filter_cons_of_neg (by simp), ih, List.lookup_cons, beq_false_of_ne h]
    · rw [List.filter_cons_of_pos (by simpa using hk), List.lookup_cons, List.lookup_cons, ih]

/-- A part sets the token of its own name only. -/
theorem lookup_addToken (part name : String) :
    (∃ value, ∀ acc, (addToken acc part).lookup name = some value) ∨
      ∀ acc, (addToken acc part).lookup name = acc.lookup name := by
  unfold addToken
  split
  · next key value _ _ =>
    split
    · exact .inr fun _ => rfl
    · by_cases hname : name = Runtime.toUpperCase key
      · refine .inl ⟨value, fun acc => ?_⟩
        rw [List.lookup_cons, beq_iff_eq.2 hname]
      · refine .inr fun acc => ?_
        rw [List.lookup_cons, beq_false_of_ne hname, lookup_filter_bne hname]
  · exact .inr fun _ => rfl

omit [Runtime] in
theorem tokenName_of_splitOn {part key value : String} {rest : List String}
    (h : splitOn '=' part = key :: value :: rest) : tokenName part = key := by
  have hmem : '=' ∈ part.toList := by
    by_contra hnone
    rw [splitOn, List.splitOn_eq_singleton hnone] at h
    cases h
  have hname : '=' ∉ part.toList.takeWhile (· != '=') := by
    intro hin
    have hne := List.mem_takeWhile_imp hin
    simp at hne
  obtain ⟨after, hafter⟩ : ∃ after, part.toList.dropWhile (· != '=') = '=' :: after := by
    cases hdrop : part.toList.dropWhile (· != '=') with
    | nil =>
      have hall := List.dropWhile_eq_nil_iff.1 hdrop '=' hmem
      simp at hall
    | cons c after =>
      have hhead := List.head_dropWhile_not (fun c => c != '=') (by rw [hdrop]; simp)
      simp only [hdrop, List.head_cons, bne_eq_false_iff_eq] at hhead
      exact ⟨after, by rw [hhead]⟩
  have hparts : part.toList = part.toList.takeWhile (· != '=') ++ '=' :: after := by
    rw [← hafter, List.takeWhile_append_dropWhile]
  rw [splitOn, hparts, List.splitOn_append_cons_self_of_not_mem hname, List.map_cons] at h
  rw [tokenName, if_pos hmem]
  exact (List.cons.inj h).1

omit [Runtime] in
theorem tokenName_token {key : String} (h : '=' ∉ key.toList) (value : String) : tokenName (key ++ "=" ++ value) = key := by
  have hlist : (key ++ "=" ++ value).toList = key.toList ++ '=' :: value.toList := by simp
  have hplain : ∀ c ∈ key.toList, (c != '=') = true := by
    intro c hc
    simpa using fun heq : c = '=' => h (heq ▸ hc)
  rw [tokenName, hlist, if_pos (by simp), List.takeWhile_append_of_pos hplain, List.takeWhile_cons_of_neg (by simp),
    List.append_nil, String.ofList_toList]

theorem lookup_addToken_series [RuleTextLaws] {part name : String} (hpart : isSeriesIdToken part = true)
    (hname : trim name ≠ rruleSeriesIdKey) (acc : List (String × String)) :
    (addToken acc part).lookup name = acc.lookup name := by
  unfold addToken
  split
  · next key value rest hsplit =>
    split
    · rfl
    · have hkey : tokenName part = key := tokenName_of_splitOn hsplit
      have hne : name ≠ Runtime.toUpperCase key := by
        rintro rfl
        rw [← RuleTextLaws.toUpperCase_trim, ← hkey] at hname
        exact hname (beq_iff_eq.1 hpart)
      rw [List.lookup_cons, beq_false_of_ne hne, lookup_filter_bne hne]
  · rfl

omit [Runtime] in
theorem splitOn_intercalate {parts : List String} (hne : parts ≠ []) (h : ∀ part ∈ parts, ';' ∉ part.toList) :
    splitOn ';' (";".intercalate parts) = parts := by
  have hsep : ";".toList = [';'] := rfl
  rw [splitOn, String.toList_intercalate, hsep, List.splitOn_intercalate ';' (by simpa using h) (by simpa using hne),
    List.map_map]
  exact (List.map_congr_left fun part _ => String.ofList_toList).trans (List.map_id _)

omit [Runtime] in
theorem not_mem_part {rrule part : String} (h : part ∈ splitOn ';' rrule) : ';' ∉ part.toList := by
  obtain ⟨cs, hcs, rfl⟩ := List.mem_map.1 h
  rw [List.splitOn_eq_splitOnP] at hcs
  rw [String.toList_ofList]
  intro hmem
  simpa using (mem_splitOnP hcs ';' hmem).1

/-- The part that carries the series id. -/
def seriesIdToken (seriesId : String) : String := rruleSeriesIdKey ++ "=" ++ Runtime.encodeURIComponent seriesId

def otherParts (rrule : String) : List String := (splitOn ';' rrule).filter fun part => !isSeriesIdToken part

variable [RuleTextLaws]

theorem isSeriesIdToken_seriesIdToken (seriesId : String) : isSeriesIdToken (seriesIdToken seriesId) = true := by
  have hplain : '=' ∉ rruleSeriesIdKey.toList := by decide +kernel
  have hname : tokenName (seriesIdToken seriesId) = rruleSeriesIdKey := tokenName_token hplain _
  have hkey : trim rruleSeriesIdKey = rruleSeriesIdKey := by decide +kernel
  have hupper : rruleSeriesIdKey.toList.all fun c => c.toNat < 128 && c.toUpper == c := by decide +kernel
  rw [isSeriesIdToken, hname, hkey, toUpperCase_of_upper hupper, beq_self_eq_true]

theorem parts_withSeriesId (rrule seriesId : String) :
    splitOn ';' (withSeriesIdInRRule rrule seriesId) = otherParts rrule ++ [seriesIdToken seriesId] := by
  refine splitOn_intercalate (by simp) ?_
  simp only [List.mem_append, List.mem_singleton]
  rintro part (hpart | rfl)
  · exact not_mem_part (List.mem_filter.1 hpart).1
  · have hkey : ';' ∉ (rruleSeriesIdKey ++ "=").toList := by decide +kernel
    rw [String.toList_append, List.mem_append, not_or]
    exact ⟨hkey, fun hmem => (RuleTextLaws.encodeURIComponent_plain seriesId ';' hmem).2 rfl⟩

theorem otherParts_withSeriesId (rrule seriesId : String) :
    otherParts (withSeriesIdInRRule rrule seriesId) = otherParts rrule := by
  rw [otherParts, parts_withSeriesId, List.filter_append, List.filter_cons_of_neg (by simp [isSeriesIdToken_seriesIdToken]),
    List.filter_nil, List.append_nil]
  exact List.filter_eq_self.2 fun part hpart => (List.mem_filter.1 hpart).2

/-- A fragment takes the series id once. -/
theorem withSeriesId_again (rrule seriesId : String) :
    withSeriesIdInRRule (withSeriesIdInRRule rrule seriesId) seriesId = withSeriesIdInRRule rrule seriesId := by
  have hparts := otherParts_withSeriesId rrule seriesId
  unfold otherParts at hparts
  unfold withSeriesIdInRRule at hparts ⊢
  dsimp only at hparts ⊢
  rw [hparts]

theorem isBlank_withSeriesId (rrule seriesId : String) : isBlank (withSeriesIdInRRule rrule seriesId) = false := by
  have hlast : seriesIdToken seriesId ∈ splitOn ';' (withSeriesIdInRRule rrule seriesId) := by
    rw [parts_withSeriesId]
    exact List.mem_append_right _ (List.mem_singleton_self _)
  obtain ⟨cs, hcs, htoken⟩ := List.mem_map.1 hlast
  rw [List.splitOn_eq_splitOnP] at hcs
  have hmem : 'X' ∈ cs := by
    have hlist := congrArg String.toList htoken
    rw [String.toList_ofList] at hlist
    simp [hlist, seriesIdToken, rruleSeriesIdKey]
  exact isBlank_of_mem (mem_splitOnP hcs 'X' hmem).2 (by decide)

theorem lookup_tokens_otherParts {name : String} (hname : trim name ≠ rruleSeriesIdKey) (parts : List String)
    {acc acc' : List (String × String)} (hacc : acc.lookup name = acc'.lookup name) :
    ((parts.filter fun part => !isSeriesIdToken part).foldl addToken acc).lookup name =
      (parts.foldl addToken acc').lookup name := by
  induction parts generalizing acc acc' with
  | nil => exact hacc
  | cons part parts ih =>
    cases hpart : isSeriesIdToken part with
    | true =>
      rw [List.filter_cons_of_neg (by simp [hpart]), List.foldl_cons]
      exact ih (hacc.trans (lookup_addToken_series hpart hname acc').symm)
    | false =>
      rw [List.filter_cons_of_pos (by simp [hpart]), List.foldl_cons, List.foldl_cons]
      refine ih ?_
      rcases lookup_addToken part name with ⟨value, hvalue⟩ | hsame
      · rw [hvalue, hvalue]
      · rw [hsame, hsame, hacc]

/-- The other tokens of the fragment are those it had. -/
theorem parse_withSeriesId (rrule seriesId : String) :
    parseRRuleString (withSeriesIdInRRule rrule seriesId) = parseRRuleString rrule := by
  have hlookup (name : String) (hname : trim name ≠ rruleSeriesIdKey) :
      (rruleTokens (withSeriesIdInRRule rrule seriesId)).lookup name = (rruleTokens rrule).lookup name := by
    rw [rruleTokens_eq, rruleTokens_eq, parts_withSeriesId, List.foldl_append, List.foldl_cons, List.foldl_nil,
      lookup_addToken_series (isSeriesIdToken_seriesIdToken seriesId) hname]
    exact lookup_tokens_otherParts hname _ rfl
  simp only [parseRRuleString, hlookup "FREQ" (by decide +kernel), hlookup "BYDAY" (by decide +kernel),
    hlookup "BYMONTHDAY" (by decide +kernel), hlookup "INTERVAL" (by decide +kernel),
    hlookup "WKST" (by decide +kernel), hlookup "COUNT" (by decide +kernel),
    hlookup "UNTIL" (by decide +kernel)]

/-- The fragment starts with a part that is kept, and not with white space. -/
def PlainStart (rrule : String) : Prop :=
  ((otherParts rrule).head?.bind fun part => part.toList.head?).all (fun c => !isTrimmed c) = true

instance (rrule : String) : Decidable (PlainStart rrule) := inferInstanceAs (Decidable (_ = true))

omit [Runtime] [RuleTextLaws] in
theorem trim_eq_self_iff {s : String} {first last : Char} (hfirst : s.toList.head? = some first)
    (hlast : s.toList.getLast? = some last) (hplain : isTrimmed last = false) :
    trim s = s ↔ isTrimmed first = false := by
  obtain ⟨rest, hs⟩ : ∃ rest, s.toList = first :: rest := List.head?_eq_some_iff.1 hfirst
  obtain ⟨before, hbefore⟩ : ∃ before, s.toList = before ++ [last] := List.getLast?_eq_some_iff.1 hlast
  constructor
  · intro htrim
    refine Bool.eq_false_iff.2 fun hspace => ?_
    have hlist := congrArg String.toList htrim
    rw [trim, String.toList_ofList, hs, List.dropWhile_cons_of_pos hspace] at hlist
    have hle := (List.rdropWhile_prefix isTrimmed (l := rest.dropWhile isTrimmed)).length_le
    have hle' := (List.dropWhile_sublist isTrimmed (l := rest)).length_le
    rw [hlist, List.length_cons] at hle
    omega
  · intro hspace
    rw [trim, hs, List.dropWhile_cons_of_neg (by simp [hspace]), ← hs, hbefore,
      List.rdropWhile_concat_neg _ _ _ (by simp [hplain]), ← hbefore, String.ofList_toList]

omit [Runtime] [RuleTextLaws] in
theorem getLast?_intercalate {last : List Char} (hlast : last ≠ []) (parts : List (List Char)) :
    ([';'].intercalate (parts ++ [last])).getLast? = last.getLast? := by
  induction parts with
  | nil => rw [List.nil_append, List.intercalate_singleton]
  | cons part parts ih =>
    rw [List.cons_append, List.intercalate_cons_of_ne_nil (by simp), List.getLast?_append, ih,
      List.getLast?_eq_some_getLast hlast, Option.some_or]

omit [Runtime] [RuleTextLaws] in
theorem head?_intercalate (part : List Char) {parts : List (List Char)} (hparts : parts ≠ []) :
    ([';'].intercalate (part :: parts)).head? = some (part.head?.getD ';') := by
  rw [List.intercalate_cons_of_ne_nil hparts]
  cases part with
  | nil => rfl
  | cons c part => rfl

omit [RuleTextLaws] in
theorem toList_withSeriesId (rrule seriesId : String) : (withSeriesIdInRRule rrule seriesId).toList =
    [';'].intercalate ((otherParts rrule).map String.toList ++ [(seriesIdToken seriesId).toList]) := by
  have hparts : withSeriesIdInRRule rrule seriesId = ";".intercalate (otherParts rrule ++ [seriesIdToken seriesId]) := rfl
  have hsep : ";".toList = [';'] := rfl
  rw [hparts, String.toList_intercalate, hsep, List.map_append, List.map_singleton]

theorem getLast?_withSeriesId (rrule seriesId : String) :
    ∃ last, (withSeriesIdInRRule rrule seriesId).toList.getLast? = some last ∧ isTrimmed last = false := by
  have htoken : (seriesIdToken seriesId).toList =
      rruleSeriesIdKey.toList ++ '=' :: (Runtime.encodeURIComponent seriesId).toList := by
    simp [seriesIdToken]
  rw [toList_withSeriesId, getLast?_intercalate (by simp [htoken]), htoken, List.getLast?_append, List.getLast?_cons,
    Option.some_or]
  refine ⟨_, rfl, ?_⟩
  cases hlast : (Runtime.encodeURIComponent seriesId).toList.getLast? with
  | none => decide
  | some c => exact (RuleTextLaws.encodeURIComponent_plain seriesId c (List.mem_of_getLast? hlast)).1

/-- Only what stands before the series id can leave white space at the front. -/
theorem trim_withSeriesId_iff (rrule seriesId : String) :
    trim (withSeriesIdInRRule rrule seriesId) = withSeriesIdInRRule rrule seriesId ↔ PlainStart rrule := by
  obtain ⟨last, hlast, hplain⟩ := getLast?_withSeriesId rrule seriesId
  unfold PlainStart
  cases hparts : otherParts rrule with
  | nil =>
    have hfirst : (withSeriesIdInRRule rrule seriesId).toList.head? = some 'X' := by
      rw [toList_withSeriesId, hparts, List.map_nil, List.nil_append, List.intercalate_singleton]
      simp [seriesIdToken, rruleSeriesIdKey]
    rw [trim_eq_self_iff hfirst hlast hplain]
    simp only [List.head?_nil, Option.bind_none, Option.all_none, iff_true]
    decide
  | cons part parts =>
    have hfirst : (withSeriesIdInRRule rrule seriesId).toList.head? = some (part.toList.head?.getD ';') := by
      rw [toList_withSeriesId, hparts, List.map_cons, List.cons_append]
      exact head?_intercalate _ (by simp)
    rw [trim_eq_self_iff hfirst hlast hplain, List.head?_cons, Option.bind_some]
    cases part.toList.head? with
    | none =>
      simp only [Option.getD_none, Option.all_none, iff_true]
      decide
    | some c => simp

omit [Runtime] [RuleTextLaws] in
theorem dropWhile_isTrimmed_append (part rest : List Char) :
    (part ++ ';' :: rest).dropWhile isTrimmed = part.dropWhile isTrimmed ++ ';' :: rest := by
  have hsep : (';' :: rest).dropWhile isTrimmed = ';' :: rest := List.dropWhile_cons_of_neg (by decide)
  rw [List.dropWhile_append]
  split
  · next hempty => rw [List.isEmpty_iff.1 hempty, List.nil_append, hsep]
  · rfl

omit [RuleTextLaws] in
/-- White space at the front of the first part is lost with `trim`. -/
theorem otherParts_trim_ne {rrule : String} {c : Char} {part rest : List Char}
    (hparts : rrule.toList = c :: part ++ ';' :: rest) (hspace : isTrimmed c = true) (hplain : ';' ∉ c :: part)
    (hkept : isSeriesIdToken (String.ofList (c :: part)) = false)
    (hlast : ∃ last, rrule.toList.getLast? = some last ∧ isTrimmed last = false) :
    otherParts (trim rrule) ≠ otherParts rrule := by
  have hdrop := dropWhile_isTrimmed_append (c :: part) rest
  have htrim : (trim rrule).toList = (c :: part).dropWhile isTrimmed ++ ';' :: rest := by
    obtain ⟨last, hlast, hlastPlain⟩ := hlast
    obtain ⟨before, hbefore⟩ : ∃ before, ';' :: rest = before ++ [last] := by
      rw [hparts, List.getLast?_append_of_ne_nil _ (by simp)] at hlast
      exact List.getLast?_eq_some_iff.1 hlast
    rw [trim, String.toList_ofList, hparts, hdrop, hbefore, ← List.append_assoc,
      List.rdropWhile_concat_neg _ _ _ (by simp [hlastPlain])]
  have hplainTail : ';' ∉ (c :: part).dropWhile isTrimmed :=
    fun hmem => hplain ((List.dropWhile_sublist isTrimmed).subset hmem)
  have hleft : otherParts (trim rrule) =
      ((String.ofList ((c :: part).dropWhile isTrimmed)) :: (rest.splitOn ';').map String.ofList).filter
        fun part => !isSeriesIdToken part := by
    rw [otherParts, splitOn, htrim, List.splitOn_append_cons_self_of_not_mem hplainTail, List.map_cons]
  have hright : otherParts rrule =
      String.ofList (c :: part) :: ((rest.splitOn ';').map String.ofList).filter fun part => !isSeriesIdToken part := by
    rw [otherParts, splitOn, hparts, List.splitOn_append_cons_self_of_not_mem hplain, List.map_cons,
      List.filter_cons_of_pos (by rw [hkept]; rfl)]
  intro heq
  rw [hleft, hright, List.filter_cons] at heq
  split at heq
  · have hfirst := congrArg (fun s => s.toList.length) (List.cons.inj heq).1
    have hle := (List.dropWhile_sublist isTrimmed (l := part)).length_le
    simp only [String.toList_ofList, List.dropWhile_cons_of_pos hspace, List.length_cons] at hfirst
    omega
  · have hlength := congrArg List.length heq
    simp at hlength

/-- A fragment that is left with white space at its front loses it the next time. -/
theorem withSeriesId_trim_ne {rrule : String} (h : ¬PlainStart rrule) (seriesId : String) :
    withSeriesIdInRRule (trim (withSeriesIdInRRule rrule seriesId)) seriesId ≠ withSeriesIdInRRule rrule seriesId := by
  unfold PlainStart at h
  cases hparts : otherParts rrule with
  | nil => simp [hparts] at h
  | cons first others =>
    rw [hparts, List.head?_cons, Option.bind_some] at h
    have hmem : first ∈ otherParts rrule := hparts ▸ List.mem_cons_self
    obtain ⟨hfirst, hkept⟩ := List.mem_filter.1 hmem
    cases hchars : first.toList with
    | nil => simp [hchars] at h
    | cons c part =>
      rw [hchars, List.head?_cons] at h
      have hspace : isTrimmed c = true := by simpa using h
      have hplain : ';' ∉ c :: part := hchars ▸ not_mem_part hfirst
      have hofList : String.ofList (c :: part) = first := by rw [← hchars, String.ofList_toList]
      have hlist : (withSeriesIdInRRule rrule seriesId).toList = c :: part ++ ';' ::
          [';'].intercalate (others.map String.toList ++ [(seriesIdToken seriesId).toList]) := by
        rw [toList_withSeriesId, hparts, List.map_cons, List.cons_append, List.intercalate_cons_of_ne_nil (by simp), hchars]
        simp
      have hne := otherParts_trim_ne hlist hspace hplain (by simpa [hofList] using hkept)
        (getLast?_withSeriesId rrule seriesId)
      intro heq
      refine hne ?_
      rw [← otherParts_withSeriesId (trim _) seriesId, heq]

/-! ### The end of a series -/

omit [Runtime] [RuleTextLaws] in
theorem compactDate_text {s date : String} {rest : List Char} (h : compactDate s = some (date, rest)) :
    isBlank date = false := by
  unfold compactDate at h
  dsimp only at h
  split at h
  · next hdigits =>
    obtain ⟨rfl, rfl⟩ := Prod.mk.inj (Option.some.inj h)
    have hdash : isTrimmed '-' = false := by decide
    exact isBlank_of_mem (by simp) hdash
  · cases h

theorem isBlank_parseUntilToken {value : Option String} {s : String} (h : parseUntilToken value = some s) :
    isBlank s = false := by
  unfold parseUntilToken at h
  dsimp only at h
  split at h
  · cases h
  · next date hdate => exact Option.some.inj h ▸ compactDate_text hdate
  · split at h
    · cases h
    · obtain ⟨parsed, -, hparsed⟩ := Option.map_eq_some_iff.1 h
      split at hparsed
      · exact hparsed ▸ RuleTextLaws.toISOString_text parsed
      · exact hparsed ▸ RuleTextLaws.formatLocal_text parsed

omit [RuleTextLaws] in
theorem parseUntilToken_none : parseUntilToken none = none := by
  have hdate : compactDate (trim "") = none := by decide +kernel
  simp only [parseUntilToken, Option.getD_none, hdate]

/-! ### A fragment made of the fields -/

omit [Runtime] [RuleTextLaws] in
theorem not_mem_intercalate {parts : List String} (h : ∀ part ∈ parts, ';' ∉ part.toList) :
    ';' ∉ (",".intercalate parts).toList := by
  have hsep : ",".toList = [','] := rfl
  rw [String.toList_intercalate, hsep]
  induction parts with
  | nil => simp
  | cons part parts ih =>
    have hpart := h part List.mem_cons_self
    by_cases hparts : parts = []
    · simpa [hparts] using hpart
    · have hrest := ih fun p hp => h p (List.mem_cons_of_mem _ hp)
      rw [List.map_cons, List.intercalate_cons_of_ne_nil (by simpa using hparts)]
      simp [hpart, hrest]

omit [Runtime] [RuleTextLaws] in
theorem not_mem_padStart (len : Nat) (n : Int) : ';' ∉ (padStart len (toString n)).toList := by
  intro hmem
  rcases mem_padStart hmem with hdigit | hminus
  · exact absurd hdigit (by decide)
  · exact absurd hminus (by decide)

omit [RuleTextLaws] in
theorem not_mem_formatUntilToken {untilDate : Option String} {token : String}
    (h : formatUntilToken untilDate = some token) : ';' ∉ token.toList := by
  unfold formatUntilToken at h
  dsimp only at h
  split at h
  · cases h
  · split at h
    · next hdate =>
      obtain ⟨date, hdate⟩ := Option.isSome_iff_exists.1 hdate
      obtain ⟨ys, ms, ds, htext, -, -, -, hy, hm, hd⟩ := Scan.calendarDate_eq_some.1 (Scan.run?_eq_some.1 hdate)
      rw [← Option.some.inj h, String.toList_ofList, htext]
      intro hmem
      have hdigits : ∀ c ∈ ys ++ ms ++ ds, c.isDigit = true := by
        simp only [List.mem_append]
        rintro c ((hc | hc) | hc)
        · exact isDigit_of_digits? hy c hc
        · exact isDigit_of_digits? hm c hc
        · exact isDigit_of_digits? hd c hc
      have hin : ';' ∈ ys ++ ms ++ ds := by simpa using hmem
      exact absurd (hdigits _ hin) (by decide)
    · obtain ⟨parsed, -, rfl⟩ := Option.map_eq_some_iff.1 h
      simp only [String.toList_append, List.mem_append, not_or]
      exact ⟨⟨⟨⟨⟨⟨⟨not_mem_padStart _ _, not_mem_padStart _ _⟩, not_mem_padStart _ _⟩, by decide⟩,
        not_mem_padStart _ _⟩, not_mem_padStart _ _⟩, not_mem_padStart _ _⟩, by decide⟩

/-- A part that sets one token. -/
def SetsToken (key part : String) : Prop :=
  ∃ value, part = key ++ "=" ++ value ∧ ';' ∉ value.toList

def builtParts (rule : String) (byDay : Option (List String)) (interval : Option Rat) (byMonthDay : Option (List Rat))
    (weekStart : Option String) (count : Option Int) (untilDate : Option String) : List String :=
  let interval := match interval.filter (1 < ·) with
    | some n => ["INTERVAL=" ++ Runtime.numberToString n]
    | none => []
  let count := match count.filter (0 < ·) with
    | some n => ["COUNT=" ++ Runtime.numberToString n]
    | none => []
  let weekStart := match normalizeWeekStart (weekStart.map .str) with
    | some day => if rule = "weekly" then ["WKST=" ++ day] else []
    | none => []
  let untilPart := match formatUntilToken untilDate with
    | some token => ["UNTIL=" ++ token]
    | none => []
  ["FREQ=" ++ Runtime.toUpperCase rule] ++ interval ++ byDayPart rule byDay byMonthDay ++ count ++ weekStart ++ untilPart

omit [RuleTextLaws] in
theorem buildRRuleString_eq (rule : String) (byDay : Option (List String)) (interval : Option Rat)
    (byMonthDay : Option (List Rat)) (weekStart : Option String) (count : Option Int) (untilDate : Option String) :
    buildRRuleString rule byDay interval byMonthDay weekStart count untilDate =
      ";".intercalate (builtParts rule byDay interval byMonthDay weekStart count untilDate) := rfl

omit [Runtime] [RuleTextLaws] in
theorem not_mem_byDayToken {day : String} (h : day ∈ byDayTokens) : ';' ∉ day.toList := by
  have hall : byDayTokens.all fun day => !day.toList.contains ';' := by decide +kernel
  simpa using List.all_eq_true.1 hall day h

omit [Runtime] [RuleTextLaws] in
theorem weekdays_mem_byDayTokens {day : String} (h : day ∈ weekdayOrder) : day ∈ byDayTokens := by
  have hall : weekdayOrder.all byDayTokens.contains := by decide +kernel
  exact List.contains_iff_mem.1 (List.all_eq_true.1 hall day h)

omit [RuleTextLaws] in
theorem mem_normalizeWeekdays {days normalized : List String} (h : normalizeWeekdays days = some normalized) :
    ∀ day ∈ normalized, day ∈ byDayTokens := by
  intro day hday
  unfold normalizeWeekdays at h
  split at h
  · cases h
  · rw [← Option.some.inj h, List.mem_eraseDups, List.mem_filterMap] at hday
    obtain ⟨token, -, htoken⟩ := hday
    exact mem_byDayTokens_of_parse htoken

/-- The days are those of the field that is there. -/
theorem byDayPart_sets (rule : String) (byDay : Option (List String)) (byMonthDay : Option (List Rat)) :
    ∀ part ∈ byDayPart rule byDay byMonthDay,
      (byDay ≠ none ∧ SetsToken "BYDAY" part) ∨ (byMonthDay ≠ none ∧ SetsToken "BYMONTHDAY" part) := by
  intro part hpart
  have hlist {value : List String} (hvalue : ∀ item ∈ value, ';' ∉ item.toList) (key : String) :
      SetsToken key (key ++ "=" ++ ",".intercalate value) := ⟨_, rfl, not_mem_intercalate hvalue⟩
  unfold byDayPart at hpart
  split at hpart
  · next days hdays =>
    have hsome : byDay ≠ none := by
      rintro rfl
      simp [normalizeWeekdays] at hdays
    refine .inl ⟨hsome, ?_⟩
    split at hpart
    · split at hpart
      · rw [List.mem_singleton.1 hpart]
        exact hlist (fun day hday => not_mem_byDayToken (weekdays_mem_byDayTokens (List.mem_filter.mp hday).1)) "BYDAY"
      · cases hpart
    · split at hpart
      · rw [List.mem_singleton.1 hpart]
        refine hlist (fun day hday => not_mem_byDayToken ?_) "BYDAY"
        exact mem_normalizeWeekdays hdays day ((List.mem_insertionSort _).1 hday)
      · cases hpart
  · split at hpart
    · split at hpart
      · next days hdays =>
        have hsome : byMonthDay ≠ none := by
          rintro rfl
          simp [normalizeMonthDays] at hdays
        rw [List.mem_singleton.1 hpart]
        refine .inr ⟨hsome, hlist ?_ "BYMONTHDAY"⟩
        simp only [List.forall_mem_map]
        exact fun day _ => RuleTextLaws.numberToString_plain day
      · cases hpart
    · cases hpart

theorem builtParts_set {rule : String} (hrule : rule ∈ recurrenceRules) (byDay : Option (List String))
    (interval : Option Rat) (byMonthDay : Option (List Rat)) (weekStart : Option String) (count : Option Int)
    (untilDate : Option String) :
    ∀ part ∈ builtParts rule byDay interval byMonthDay weekStart count untilDate,
      SetsToken "FREQ" part ∨ SetsToken "INTERVAL" part ∨ (byDay ≠ none ∧ SetsToken "BYDAY" part) ∨
        (byMonthDay ≠ none ∧ SetsToken "BYMONTHDAY" part) ∨ (count.any (0 < ·) = true ∧ SetsToken "COUNT" part) ∨
        (weekStart ≠ none ∧ SetsToken "WKST" part) ∨ (untilDate ≠ none ∧ SetsToken "UNTIL" part) := by
  intro part hpart
  simp only [builtParts, List.mem_append, List.mem_singleton] at hpart
  rcases hpart with ((((rfl | hpart) | hpart) | hpart) | hpart) | hpart
  · refine .inl ⟨_, rfl, ?_⟩
    have hall : recurrenceRules.all fun rule =>
        (rule.toList.all fun c => c.toNat < 128) && !(rule.toList.map Char.toUpper).contains ';' := by decide +kernel
    have hplain := List.all_eq_true.1 hall rule hrule
    simp only [Bool.and_eq_true, List.all_eq_true, decide_eq_true_eq, Bool.not_eq_true', List.contains_eq_mem,
      decide_eq_false_iff_not] at hplain
    rw [RuleTextLaws.toUpperCase_ascii rule hplain.1, String.toList_ofList]
    exact hplain.2
  · split at hpart
    · rw [List.mem_singleton.1 hpart]
      exact .inr (.inl ⟨_, rfl, RuleTextLaws.numberToString_plain _⟩)
    · cases hpart
  · rcases byDayPart_sets rule byDay byMonthDay part hpart with h | h
    · exact .inr (.inr (.inl h))
    · exact .inr (.inr (.inr (.inl h)))
  · split at hpart
    · next n hn =>
      rw [List.mem_singleton.1 hpart]
      obtain ⟨hcount, hpos⟩ := Option.filter_eq_some_iff.1 hn
      exact .inr (.inr (.inr (.inr (.inl ⟨by simpa [hcount] using hpos, _, rfl, RuleTextLaws.numberToString_plain _⟩))))
    · cases hpart
  · split at hpart
    · next day hday =>
      split at hpart
      · rw [List.mem_singleton.1 hpart]
        have hsome : weekStart ≠ none := by
          rintro rfl
          rw [Option.map_none, normalizeWeekStart_none] at hday
          cases hday
        have hmem := mem_byDayTokens_of_parse (Option.filter_eq_some_iff.1 hday).1
        exact .inr (.inr (.inr (.inr (.inr (.inl ⟨hsome, _, rfl, not_mem_byDayToken hmem⟩)))))
      · cases hpart
    · cases hpart
  · split at hpart
    · next token htoken =>
      rw [List.mem_singleton.1 hpart]
      have hsome : untilDate ≠ none := by
        rintro rfl
        have hblank : trim "" = "" := by decide
        simp [formatUntilToken, hblank] at htoken
      exact .inr (.inr (.inr (.inr (.inr (.inr ⟨hsome, _, rfl, not_mem_formatUntilToken htoken⟩)))))
    · cases hpart

def tokenKeys : List String := ["FREQ", "INTERVAL", "BYDAY", "BYMONTHDAY", "COUNT", "WKST", "UNTIL"]

theorem tokenKeys_plain {key : String} (h : key ∈ tokenKeys) :
    '=' ∉ key.toList ∧ ';' ∉ key.toList ∧ key ≠ "" ∧ Runtime.toUpperCase key = key := by
  have hall : tokenKeys.all fun key => !key.toList.contains '=' && !key.toList.contains ';' && key != "" &&
      key.toList.all fun c => c.toNat < 128 && c.toUpper == c := by decide +kernel
  have hkey := List.all_eq_true.1 hall key h
  rw [Bool.and_eq_true] at hkey
  have hupper := toUpperCase_of_upper hkey.2
  simp only [Bool.and_eq_true, Bool.not_eq_true', List.contains_eq_mem, decide_eq_false_iff_not, bne_iff_ne, ne_eq] at hkey
  exact ⟨hkey.1.1.1, hkey.1.1.2, hkey.1.2, hupper⟩

omit [Runtime] [RuleTextLaws] in
theorem splitOn_token {key : String} (h : '=' ∉ key.toList) (value : String) :
    splitOn '=' (key ++ "=" ++ value) = key :: splitOn '=' value := by
  have hlist : (key ++ "=" ++ value).toList = key.toList ++ '=' :: value.toList := by simp
  rw [splitOn, hlist, List.splitOn_append_cons_self_of_not_mem h, List.map_cons, String.ofList_toList, splitOn]

theorem lookup_addToken_other {key part name : String} (hkey : key ∈ tokenKeys) (hne : name ≠ key)
    (hpart : SetsToken key part) (acc : List (String × String)) :
    (addToken acc part).lookup name = acc.lookup name := by
  obtain ⟨hplain, -, -, hupper⟩ := tokenKeys_plain hkey
  obtain ⟨value, rfl, -⟩ := hpart
  unfold addToken
  rw [splitOn_token hplain]
  split
  · next key' value' rest hsplit =>
    obtain ⟨rfl, -⟩ := List.cons.inj hsplit
    split
    · rfl
    · rw [hupper, List.lookup_cons, beq_false_of_ne hne, lookup_filter_bne hne]
  · rfl

section
variable {rule : String} {byDay : Option (List String)} {interval : Option Rat} {byMonthDay : Option (List Rat)}
  {weekStart : Option String} {count : Option Int} {untilDate : Option String}

/-- Every part of the fragment sets one token, and that of a field only where the field is there. -/
theorem key_of_builtPart (hrule : rule ∈ recurrenceRules) {part : String}
    (h : part ∈ builtParts rule byDay interval byMonthDay weekStart count untilDate) :
    ∃ key ∈ tokenKeys, SetsToken key part ∧ (key = "BYDAY" → byDay ≠ none) ∧ (key = "BYMONTHDAY" → byMonthDay ≠ none) ∧
      (key = "WKST" → weekStart ≠ none) ∧ (key = "COUNT" → count.any (0 < ·) = true) ∧ (key = "UNTIL" → untilDate ≠ none) := by
  rcases builtParts_set hrule byDay interval byMonthDay weekStart count untilDate part h with
    h | h | h | h | h | h | h
  · exact ⟨"FREQ", by decide, h, by simp⟩
  · exact ⟨"INTERVAL", by decide, h, by simp⟩
  · exact ⟨"BYDAY", by decide, h.2, by simp [h.1]⟩
  · exact ⟨"BYMONTHDAY", by decide, h.2, by simp [h.1]⟩
  · exact ⟨"COUNT", by decide, h.2, by simp [h.1]⟩
  · exact ⟨"WKST", by decide, h.2, by simp [h.1]⟩
  · exact ⟨"UNTIL", by decide, h.2, by simp [h.1]⟩

theorem splitOn_build (hrule : rule ∈ recurrenceRules) :
    splitOn ';' (buildRRuleString rule byDay interval byMonthDay weekStart count untilDate) =
      builtParts rule byDay interval byMonthDay weekStart count untilDate := by
  rw [buildRRuleString_eq]
  refine splitOn_intercalate (by simp [builtParts]) fun part hpart => ?_
  obtain ⟨key, hkey, ⟨value, rfl, hvalue⟩, -⟩ := key_of_builtPart hrule hpart
  have hsep : ';' ∉ "=".toList := by decide
  simp only [String.toList_append, List.mem_append, not_or]
  exact ⟨⟨(tokenKeys_plain hkey).2.1, hsep⟩, hvalue⟩

/-- A token that no part sets is not there. -/
theorem lookup_build_none (hrule : rule ∈ recurrenceRules) (name : String)
    (h : ∀ part ∈ builtParts rule byDay interval byMonthDay weekStart count untilDate,
      ∃ key ∈ tokenKeys, SetsToken key part ∧ name ≠ key) :
    (rruleTokens (buildRRuleString rule byDay interval byMonthDay weekStart count untilDate)).lookup name = none := by
  have hfold : ∀ (parts : List String) (acc : List (String × String)),
      (∀ part ∈ parts, ∃ key ∈ tokenKeys, SetsToken key part ∧ name ≠ key) →
      (parts.foldl addToken acc).lookup name = acc.lookup name := by
    intro parts
    induction parts with
    | nil => intro acc _; rfl
    | cons part parts ih =>
      intro acc hparts
      obtain ⟨key, hkey, hset, hne⟩ := hparts part List.mem_cons_self
      rw [List.foldl_cons, ih _ fun p hp => hparts p (List.mem_cons_of_mem _ hp), lookup_addToken_other hkey hne hset]
  rw [rruleTokens_eq, splitOn_build hrule, hfold _ _ h]
  rfl

/-- A fragment made of the fields starts with its frequency. -/
theorem plainStart_build (hrule : rule ∈ recurrenceRules) :
    PlainStart (buildRRuleString rule byDay interval byMonthDay weekStart count untilDate) := by
  have hfreq : "FREQ" ∈ tokenKeys := by decide
  have hname : tokenName ("FREQ=" ++ Runtime.toUpperCase rule) = "FREQ" := tokenName_token (tokenKeys_plain hfreq).1 _
  have htrim : trim "FREQ" = "FREQ" := by decide +kernel
  have hkey : ("FREQ" == rruleSeriesIdKey) = false := by decide +kernel
  have hfirst : isSeriesIdToken ("FREQ=" ++ Runtime.toUpperCase rule) = false := by
    rw [isSeriesIdToken, hname, htrim, (tokenKeys_plain hfreq).2.2.2, hkey]
  rw [PlainStart, otherParts, splitOn_build hrule]
  simp only [builtParts, List.cons_append, List.filter_cons, hfirst, Bool.not_false, if_true, List.head?_cons,
    Option.bind_some, String.toList_append]
  have hhead : "FREQ=".toList = ['F', 'R', 'E', 'Q', '='] := rfl
  rw [hhead]
  rfl

/-- A field that is not there is not read from the fragment made of the others. -/
theorem parse_build_absent (hrule : rule ∈ recurrenceRules) :
    let parsed := parseRRuleString (buildRRuleString rule byDay interval byMonthDay weekStart count untilDate)
    (byDay = none → parsed.byDay = none) ∧ (byMonthDay = none → parsed.byMonthDay = none) ∧
      (weekStart = none → parsed.weekStart = none) ∧ (count.any (0 < ·) = false → parsed.count = none) ∧
      (untilDate = none → parsed.untilDate = none) := by
  have habsent := @lookup_build_none _ _ rule byDay interval byMonthDay weekStart count untilDate hrule
  refine ⟨fun hnone => ?_, fun hnone => ?_, fun hnone => ?_, fun hnone => ?_, fun hnone => ?_⟩
  · have hlookup := habsent "BYDAY" fun part hpart => by
      obtain ⟨key, hkey, hset, hbyDay, -⟩ := key_of_builtPart hrule hpart
      exact ⟨key, hkey, hset, fun heq => hbyDay heq.symm hnone⟩
    simp only [parseRRuleString, hlookup, Option.bind_none]
  · have hlookup := habsent "BYMONTHDAY" fun part hpart => by
      obtain ⟨key, hkey, hset, -, hbyMonthDay, -⟩ := key_of_builtPart hrule hpart
      exact ⟨key, hkey, hset, fun heq => hbyMonthDay heq.symm hnone⟩
    simp only [parseRRuleString, hlookup, Option.bind_none]
  · have hlookup := habsent "WKST" fun part hpart => by
      obtain ⟨key, hkey, hset, -, -, hweekStart, -⟩ := key_of_builtPart hrule hpart
      exact ⟨key, hkey, hset, fun heq => hweekStart heq.symm hnone⟩
    simp only [parseRRuleString, hlookup, Option.map_none, normalizeWeekStart_none]
  · have hlookup := habsent "COUNT" fun part hpart => by
      obtain ⟨key, hkey, hset, -, -, -, hcount, -⟩ := key_of_builtPart hrule hpart
      exact ⟨key, hkey, hset, fun heq => by simp [hcount heq.symm] at hnone⟩
    simp only [parseRRuleString, hlookup, Option.bind_none, Option.filter_none, Option.map_none]
  · have hlookup := habsent "UNTIL" fun part hpart => by
      obtain ⟨key, hkey, hset, -, -, -, -, huntil⟩ := key_of_builtPart hrule hpart
      exact ⟨key, hkey, hset, fun heq => huntil heq.symm hnone⟩
    simp only [parseRRuleString, hlookup, parseUntilToken_none]

end

/-! ### The fields of a loaded recurrence -/

def intJson (n : Int) : Json := .num n

/-- The fields of the normal form, at their types. -/
structure LoadedRecurrence where
  rule : String
  seriesId : Option String
  strategy : Option Json
  byDay : Option (List String)
  byMonthDay : Option (List Rat)
  weekStart : Option String
  count : Option Int
  untilDate : Option String
  completedOccurrences : Option Int
  anchorDay : Option Int
  startAnchorDay : Option Int
  dueAnchorDay : Option Int
  reviewAnchorDay : Option Int
  rrule : Option String

def LoadedRecurrence.fields (l : LoadedRecurrence) : List (String × Option Json) :=
  [("rule", some (.str l.rule)), ("seriesId", l.seriesId.map .str), ("strategy", l.strategy),
    ("byDay", l.byDay.map strings), ("byMonthDay", l.byMonthDay.map numbers),
    ("weekStart", l.weekStart.map .str), ("count", countProperty l.count), ("until", l.untilDate.map .str),
    ("completedOccurrences", l.completedOccurrences.map intJson),
    ("anchorDay", l.anchorDay.map intJson), ("startAnchorDay", l.startAnchorDay.map intJson),
    ("dueAnchorDay", l.dueAnchorDay.map intJson), ("reviewAnchorDay", l.reviewAnchorDay.map intJson),
    ("rrule", l.rrule.map .str)]

def LoadedRecurrence.toJson (l : LoadedRecurrence) : Json := .obj (definedEntries l.fields)

/-- What a trimmed fragment says; nothing where there is none. -/
def parsedFragment (rrule : Option String) : ParsedRRule := (rrule.map parseRRuleString).getD {}

omit [RuleTextLaws] in
theorem parsedFragment_some (rrule : String) : parsedFragment (some rrule) = parseRRuleString rrule := rfl

/-- The loaded form of a record. -/
def loadedRecord (read : String → Option Json) (rule : String) (rrule : Option String) : LoadedRecurrence :=
  let parsed := parsedFragment rrule
  let seriesId := ((nonBlank (read "seriesId")).map trim).or (getSeriesIdFromRRule rrule)
  let byDay := (((read "byDay").bind Json.asArr?).bind fun days =>
    normalizeWeekdays (days.filterMap Json.asStr?)).or parsed.byDay
  let byMonthDay := (((read "byMonthDay").bind Json.asArr?).bind fun days =>
    normalizeMonthDays (days.map toStr)).or parsed.byMonthDay
  let weekStart := (normalizeWeekStart (read "weekStart")).or parsed.weekStart
  let count := (((asNum? (read "count")).filter (0 < ·)).map mathRound).or parsed.count
  let untilDate := (nonBlank (read "until")).or parsed.untilDate
  { rule, seriesId, byDay, byMonthDay, weekStart, count, untilDate
    strategy := (read "strategy").filter fun s => s == .str "fluid" || s == .str "strict"
    completedOccurrences := ((asNum? (read "completedOccurrences")).filter (0 ≤ ·)).map Rat.floor
    anchorDay := normalizeAnchorDay (read "anchorDay")
    startAnchorDay := normalizeAnchorDay (read "startAnchorDay")
    dueAnchorDay := normalizeAnchorDay (read "dueAnchorDay")
    reviewAnchorDay := normalizeAnchorDay (read "reviewAnchorDay")
    rrule := match seriesId with
      | some seriesId => some (withSeriesIdInRRule (rrule.getD (buildRRuleString rule byDay parsed.interval
          byMonthDay weekStart count untilDate)) seriesId)
      | none => rrule }

omit [RuleTextLaws] in
theorem recurrenceFields_eq (read : String → Option Json) (rule : String) (rrule : Option String) :
    recurrenceFields read rule (parsedFragment rrule) rrule = (loadedRecord read rule rrule).fields := by
  have hnum (day : Option Int) : ((do let n ← day; pure (n : Rat)) : Option Rat).map (fun n => Json.num n) =
      day.map intJson := by
    cases day <;> rfl
  simp only [recurrenceFields, LoadedRecurrence.fields, loadedRecord, hnum] <;> rfl

/-- The loaded form of a text that is no rule word. -/
def loadedText (rule text : String) : LoadedRecurrence :=
  let parsed := parsedFragment (some text)
  { rule, seriesId := none, strategy := none, byDay := parsed.byDay, byMonthDay := parsed.byMonthDay
    weekStart := parsed.weekStart, count := parsed.count, untilDate := parsed.untilDate
    completedOccurrences := none, anchorDay := none, startAnchorDay := none, dueAnchorDay := none
    reviewAnchorDay := none, rrule := some text }

/-! ### Reading it again -/

/-- Every field is as its own reader leaves it. -/
structure LoadedRecurrence.Normal (l : LoadedRecurrence) : Prop where
  rule : l.rule ∈ recurrenceRules
  seriesId : ∀ s, l.seriesId = some s → trim s = s ∧ isBlank s = false
  strategy : ∀ v, l.strategy = some v → v = .str "fluid" ∨ v = .str "strict"
  byDay : ∀ days, l.byDay = some days → normalizeWeekdays days = some days
  byMonthDay : ∀ days, l.byMonthDay = some days → normalizeMonthDays (days.map Runtime.numberToString) = some days
  weekStart : ∀ day, l.weekStart = some day → normalizeWeekStart (some (.str day)) = some day
  count : ∀ n, l.count = some n → 0 ≤ n
  untilDate : ∀ s, l.untilDate = some s → isBlank s = false
  completedOccurrences : ∀ n, l.completedOccurrences = some n → 0 ≤ n
  anchorDay : ∀ n, l.anchorDay = some n → 1 ≤ n ∧ n ≤ 31
  startAnchorDay : ∀ n, l.startAnchorDay = some n → 1 ≤ n ∧ n ≤ 31
  dueAnchorDay : ∀ n, l.dueAnchorDay = some n → 1 ≤ n ∧ n ≤ 31
  reviewAnchorDay : ∀ n, l.reviewAnchorDay = some n → 1 ≤ n ∧ n ≤ 31
  rrule : ∀ s, l.rrule = some s → isBlank s = false

omit [Runtime] [RuleTextLaws] in
theorem mathRound_nonneg {n : Rat} (h : 0 < n) : 0 ≤ mathRound n := by
  unfold mathRound
  exact Rat.le_floor_iff.2 (by simp; linarith)

omit [Runtime] [RuleTextLaws] in
theorem mathRound_intCast (n : Int) : mathRound (n : Rat) = n := by
  have hfloor : ⌊(n : Rat) + 1 / 2⌋ = n := Int.floor_eq_iff.2 ⟨by linarith, by linarith⟩
  exact hfloor

omit [Runtime] [RuleTextLaws] in
theorem normalizeAnchorDay_bounds {value : Option Json} {n : Int} (h : normalizeAnchorDay value = some n) :
    1 ≤ n ∧ n ≤ 31 := by
  unfold normalizeAnchorDay at h
  split at h
  · cases h
  · split at h
    · next hbounds => exact Option.some.inj h ▸ hbounds
    · cases h

omit [Runtime] [RuleTextLaws] in
theorem normalizeAnchorDay_again {day : Option Int} (h : ∀ n, day = some n → 1 ≤ n ∧ n ≤ 31) :
    normalizeAnchorDay (day.map intJson) = day := by
  cases day with
  | none => rfl
  | some n => simp [normalizeAnchorDay, intJson, h n rfl]

theorem parsedFragment_normal (rrule : Option String) :
    (∀ days, (parsedFragment rrule).byDay = some days → normalizeWeekdays days = some days) ∧
      (∀ days, (parsedFragment rrule).byMonthDay = some days →
        normalizeMonthDays (days.map Runtime.numberToString) = some days) ∧
      (∀ day, (parsedFragment rrule).weekStart = some day → normalizeWeekStart (some (.str day)) = some day) ∧
      (∀ n, (parsedFragment rrule).count = some n → 0 ≤ n) ∧
      ∀ s, (parsedFragment rrule).untilDate = some s → isBlank s = false := by
  cases rrule with
  | none =>
    refine ⟨?_, ?_, ?_, ?_, ?_⟩
    all_goals
      intro value hvalue
      cases hvalue
  | some rrule =>
    refine ⟨?_, ?_, ?_, ?_, ?_⟩
    · intro days hdays
      obtain ⟨token, -, htoken⟩ := Option.bind_eq_some_iff.1 hdays
      exact normalizeWeekdays_again htoken
    · intro days hdays
      obtain ⟨token, -, htoken⟩ := Option.bind_eq_some_iff.1 hdays
      exact normalizeMonthDays_again htoken
    · intro day hday
      have hstart : normalizeWeekStart (((rruleTokens rrule).lookup "WKST").map .str) = some day := hday
      exact normalizeWeekStart_again hstart
    · intro n hn
      obtain ⟨m, hm, rfl⟩ := Option.map_eq_some_iff.1 hn
      exact mathRound_nonneg (by simpa using (Option.filter_eq_some_iff.1 hm).2)
    · intro s hs
      simp only [parsedFragment, parseRRuleString, Option.map_some, Option.getD_some] at hs
      exact isBlank_parseUntilToken hs

theorem normal_loadedRecord {read : String → Option Json} {rule : String} (hrule : rule ∈ recurrenceRules)
    {rrule : Option String} (hrrule : ∀ s, rrule = some s → isBlank s = false) :
    (loadedRecord read rule rrule).Normal := by
  obtain ⟨hbyDay, hbyMonthDay, hweekStart, hcount, huntil⟩ := parsedFragment_normal rrule
  have hseries : ∀ s, ((nonBlank (read "seriesId")).map trim).or (getSeriesIdFromRRule rrule) = some s →
      trim s = s ∧ isBlank s = false := by
    intro s hs
    rcases Option.or_eq_some_iff.1 hs with hown | ⟨-, hfragment⟩
    · obtain ⟨text, htext, rfl⟩ := Option.map_eq_some_iff.1 hown
      have hblank := (Option.filter_eq_some_iff.1 htext).2
      exact ⟨trim_trim text, by rw [isBlank_trim]; simpa using hblank⟩
    · exact getSeriesIdFromRRule_text hfragment
  constructor
  · exact hrule
  · exact hseries
  · intro v hv
    have hv := (Option.filter_eq_some_iff.1 hv).2
    simpa using hv
  · intro days hdays
    rcases Option.or_eq_some_iff.1 hdays with hown | ⟨-, hfragment⟩
    · obtain ⟨items, -, hitems⟩ := Option.bind_eq_some_iff.1 hown
      exact normalizeWeekdays_again hitems
    · exact hbyDay days hfragment
  · intro days hdays
    rcases Option.or_eq_some_iff.1 hdays with hown | ⟨-, hfragment⟩
    · obtain ⟨items, -, hitems⟩ := Option.bind_eq_some_iff.1 hown
      exact normalizeMonthDays_again hitems
    · exact hbyMonthDay days hfragment
  · intro day hday
    rcases Option.or_eq_some_iff.1 hday with hown | ⟨-, hfragment⟩
    · exact normalizeWeekStart_again hown
    · exact hweekStart day hfragment
  · intro n hn
    rcases Option.or_eq_some_iff.1 hn with hown | ⟨-, hfragment⟩
    · obtain ⟨m, hm, rfl⟩ := Option.map_eq_some_iff.1 hown
      exact mathRound_nonneg (by simpa using (Option.filter_eq_some_iff.1 hm).2)
    · exact hcount n hfragment
  · intro s hs
    rcases Option.or_eq_some_iff.1 hs with hown | ⟨-, hfragment⟩
    · simpa using (Option.filter_eq_some_iff.1 hown).2
    · exact huntil s hfragment
  · intro n hn
    obtain ⟨m, hm, rfl⟩ := Option.map_eq_some_iff.1 hn
    exact Rat.le_floor_iff.2 (by simpa using (Option.filter_eq_some_iff.1 hm).2)
  · exact fun n hn => normalizeAnchorDay_bounds hn
  · exact fun n hn => normalizeAnchorDay_bounds hn
  · exact fun n hn => normalizeAnchorDay_bounds hn
  · exact fun n hn => normalizeAnchorDay_bounds hn
  · intro s hs
    simp only [loadedRecord] at hs
    split at hs
    · exact Option.some.inj hs ▸ isBlank_withSeriesId _ _
    · exact hrrule s hs

theorem normal_loadedText {rule text : String} (hrule : rule ∈ recurrenceRules) (htext : isBlank text = false) :
    (loadedText rule text).Normal := by
  obtain ⟨hbyDay, hbyMonthDay, hweekStart, hcount, huntil⟩ := parsedFragment_normal (some text)
  constructor
  · exact hrule
  · intro s hs; cases hs
  · intro s hs; cases hs
  · exact hbyDay
  · exact hbyMonthDay
  · exact hweekStart
  · exact hcount
  · intro s hs
    simp only [loadedText] at hs
    exact huntil s hs
  · intro n hn; cases hn
  · intro n hn; cases hn
  · intro n hn; cases hn
  · intro n hn; cases hn
  · intro n hn; cases hn
  · intro s hs
    exact Option.some.inj hs ▸ htext

/-! ### Loading twice -/

/-- A count that is not 0. -/
def shownCount (count : Option Int) : Option Int := count.filter (· != 0)

omit [Runtime] [RuleTextLaws] in
theorem lookup_toJson {l : LoadedRecurrence} {key : String} {value : Option Json} (h : (key, value) ∈ l.fields) :
    lookup key (definedEntries l.fields) = value :=
  lookup_definedEntries (by simp [LoadedRecurrence.fields]) h

omit [Runtime] [RuleTextLaws] in
theorem reads_toJson (l : LoadedRecurrence) :
    let read := fun key => lookup key (definedEntries l.fields)
    read "seriesId" = l.seriesId.map .str ∧
      read "strategy" = l.strategy ∧
      read "byDay" = l.byDay.map strings ∧
      read "byMonthDay" = l.byMonthDay.map numbers ∧
      read "weekStart" = l.weekStart.map .str ∧
      read "count" = countProperty l.count ∧
      read "until" = l.untilDate.map .str ∧
      read "completedOccurrences" = l.completedOccurrences.map intJson ∧
      read "anchorDay" = (l.anchorDay.map intJson) ∧
      read "startAnchorDay" = (l.startAnchorDay.map intJson) ∧
      read "dueAnchorDay" = (l.dueAnchorDay.map intJson) ∧
      read "reviewAnchorDay" = (l.reviewAnchorDay.map intJson) := by
  have hread {key : String} {value : Option Json} (h : (key, value) ∈ l.fields) := lookup_toJson h
  refine ⟨?_, ?_, ?_, ?_, ?_, ?_, ?_, ?_, ?_, ?_, ?_, ?_⟩
  all_goals
    apply hread
    simp [LoadedRecurrence.fields]

/-- The record of a loaded recurrence, loaded with this fragment. -/
def LoadedRecurrence.again (l : LoadedRecurrence) (rrule : Option String) : LoadedRecurrence :=
  loadedRecord (fun key => lookup key (definedEntries l.fields)) l.rule rrule

theorem again_eq {l : LoadedRecurrence} (hl : l.Normal) (rrule : Option String) :
    l.again rrule =
      { l with
        seriesId := l.seriesId.or (getSeriesIdFromRRule rrule)
        byDay := l.byDay.or (parsedFragment rrule).byDay
        byMonthDay := l.byMonthDay.or (parsedFragment rrule).byMonthDay
        weekStart := l.weekStart.or (parsedFragment rrule).weekStart
        count := (shownCount l.count).or (parsedFragment rrule).count
        untilDate := l.untilDate.or (parsedFragment rrule).untilDate
        rrule := (l.again rrule).rrule } := by
  have hseries : (nonBlank (l.seriesId.map .str)).map trim = l.seriesId := by
    cases hs : l.seriesId with
    | none => rfl
    | some s => simp [nonBlank, (hl.seriesId s hs).1, (hl.seriesId s hs).2]
  have hstrategy : (l.strategy.filter fun s => s == .str "fluid" || s == .str "strict") = l.strategy := by
    cases hs : l.strategy with
    | none => rfl
    | some v => rcases hl.strategy v hs with rfl | rfl <;> simp
  have hbyDay : ((l.byDay.map strings).bind Json.asArr?).bind (fun days =>
      normalizeWeekdays (days.filterMap Json.asStr?)) = l.byDay := by
    cases hs : l.byDay with
    | none => rfl
    | some days => simpa [strings, Json.asArr?, List.filterMap_map, Function.comp_def] using hl.byDay days hs
  have hbyMonthDay : ((l.byMonthDay.map numbers).bind Json.asArr?).bind (fun days =>
      normalizeMonthDays (days.map toStr)) = l.byMonthDay := by
    cases hs : l.byMonthDay with
    | none => rfl
    | some days => simpa [numbers, Json.asArr?, Function.comp_def, toStr] using hl.byMonthDay days hs
  have hweekStart : normalizeWeekStart (l.weekStart.map .str) = l.weekStart := by
    cases hs : l.weekStart with
    | none => exact normalizeWeekStart_none
    | some day => exact hl.weekStart day hs
  have hcount : ((asNum? (countProperty l.count)).filter (0 < ·)).map mathRound = shownCount l.count := by
    cases hs : l.count with
    | none => rfl
    | some n =>
      have hn := hl.count n hs
      by_cases hzero : n = 0
      · simp [countProperty, shownCount, hzero, Option.filter_some]
      · have hpos : 0 < n := by omega
        simp [countProperty, shownCount, hzero, hpos, mathRound_intCast, Option.filter_some]
  have huntil : nonBlank (l.untilDate.map .str) = l.untilDate := by
    cases hs : l.untilDate with
    | none => rfl
    | some s => simp [nonBlank, hl.untilDate s hs]
  have hcompleted : ((asNum? (l.completedOccurrences.map intJson)).filter (0 ≤ ·)).map Rat.floor =
      l.completedOccurrences := by
    cases hs : l.completedOccurrences with
    | none => rfl
    | some n => simp [intJson, hl.completedOccurrences n hs]
  obtain ⟨rs, rstrategy, rd, rm, rstart, rc, ru, ro, ra, rb, rdue, rreview⟩ := reads_toJson l
  simp only [LoadedRecurrence.again, loadedRecord, rs, rstrategy, rd, rm, rstart, rc, ru, ro, ra, rb, rdue, rreview, hseries, hstrategy, hbyDay, hbyMonthDay, hweekStart, hcount,
    huntil, hcompleted, normalizeAnchorDay_again hl.anchorDay, normalizeAnchorDay_again hl.startAnchorDay,
    normalizeAnchorDay_again hl.dueAnchorDay, normalizeAnchorDay_again hl.reviewAnchorDay]

/-- The trimmed fragment of a record. -/
def storedFragment (read : String → Option Json) : Option String := (nonBlank (read "rrule")).map trim

def storedRule (read : String → Option Json) : Option String :=
  ((asStr? (read "rule")).filter recurrenceRules.contains).or (parsedFragment (storedFragment read)).rule

omit [RuleTextLaws] in
theorem recurrenceOfRecord_eq (read : String → Option Json) :
    recurrenceOfRecord read =
      (storedRule read).map fun rule => (loadedRecord read rule (storedFragment read)).toJson := by
  have hfields (rule : String) := recurrenceFields_eq read rule (storedFragment read)
  simp only [LoadedRecurrence.toJson, ← hfields]
  rfl

omit [RuleTextLaws] in
theorem parseRRuleString_rule {rrule rule : String} (h : (parseRRuleString rrule).rule = some rule) :
    rule ∈ recurrenceRules := by
  obtain ⟨freq, -, hfreq⟩ := Option.bind_eq_some_iff.1 h
  have hall : rruleFreqMap.all fun entry => recurrenceRules.contains entry.2 := by decide +kernel
  obtain ⟨before, after, hsplit, -⟩ := List.lookup_eq_some_iff.1 hfreq
  have hmem : (Runtime.toUpperCase freq, rule) ∈ rruleFreqMap := by simp [hsplit]
  exact List.contains_iff_mem.1 (List.all_eq_true.1 hall _ hmem)

omit [RuleTextLaws] in
theorem storedRule_mem {read : String → Option Json} {rule : String} (h : storedRule read = some rule) :
    rule ∈ recurrenceRules := by
  rcases Option.or_eq_some_iff.1 h with hown | ⟨-, hfragment⟩
  · exact List.contains_iff_mem.1 (Option.filter_eq_some_iff.1 hown).2
  · cases hstored : storedFragment read with
    | none => simp [hstored, parsedFragment] at hfragment
    | some rrule =>
      rw [hstored] at hfragment
      exact parseRRuleString_rule hfragment

omit [Runtime] [RuleTextLaws] in
theorem storedFragment_trimmed {read : String → Option Json} {rrule : String} (h : storedFragment read = some rrule) :
    trim rrule = rrule ∧ isBlank rrule = false := by
  obtain ⟨text, htext, rfl⟩ := Option.map_eq_some_iff.1 h
  have hblank := (Option.filter_eq_some_iff.1 htext).2
  exact ⟨trim_trim text, by rw [isBlank_trim]; simpa using hblank⟩

omit [RuleTextLaws] in
theorem normalize_toJson {l : LoadedRecurrence} (hl : l.Normal) :
    normalizeRecurrenceForLoad (some l.toJson) = some (l.again (l.rrule.map trim)).toJson := by
  have hfragment : storedFragment (fun key => lookup key (definedEntries l.fields)) = l.rrule.map trim := by
    have hread : lookup "rrule" (definedEntries l.fields) = l.rrule.map .str :=
      lookup_toJson (by simp [LoadedRecurrence.fields])
    rw [storedFragment, hread]
    cases hr : l.rrule with
    | none => rfl
    | some s => simp [nonBlank, hl.rrule s hr]
  have hrule : storedRule (fun key => lookup key (definedEntries l.fields)) = some l.rule := by
    have hread : lookup "rule" (definedEntries l.fields) = some (.str l.rule) :=
      lookup_toJson (by simp [LoadedRecurrence.fields])
    have hcontains : recurrenceRules.contains l.rule = true := List.contains_iff_mem.2 hl.rule
    simp only [storedRule, hread, asStr?, Option.bind_some, Json.asStr?, Option.filter_some, hcontains, if_true,
      Option.some_or]
  have hrecord : normalizeRecurrenceForLoad (some l.toJson) =
      recurrenceOfRecord fun key => lookup key (definedEntries l.fields) := rfl
  rw [hrecord, recurrenceOfRecord_eq, hrule, hfragment]
  rfl

/-- The count of a record, rounded. -/
def ownCount (read : String → Option Json) : Option Int := ((asNum? (read "count")).filter (0 < ·)).map mathRound

/-- The series id of a record, or that of its fragment. -/
def storedSeriesId (read : String → Option Json) : Option String :=
  ((nonBlank (read "seriesId")).map trim).or (getSeriesIdFromRRule (storedFragment read))

def listedDays (value : Option Json) : List Json := ((value.bind Json.asArr?)).getD []

/-- A record that loads to what loads to itself: its days are texts, its count does not round to 0 over a fragment that
has one, and the fragment that takes the series id does not start with white space. -/
def RecordLoadsTheSame (read : String → Option Json) : Prop :=
  (storedRule read).isSome = true →
    (listedDays (read "byDay")).all (fun day => day.asStr?.isSome) = true ∧
      (ownCount read = some 0 → shownCount (parsedFragment (storedFragment read)).count = none) ∧
      ∀ seriesId rrule, storedSeriesId read = some seriesId → storedFragment read = some rrule → PlainStart rrule

/-- A text that loads to what loads to itself: it carries no series id. -/
def TextLoadsTheSame (text : String) : Prop :=
  text ∉ recurrenceRules → (parseRRuleString text).rule.isSome = true → getSeriesIdFromRRule (some text) = none

def LoadsTheSame (value : Option Json) : Prop :=
  match value with
  | some (.str s) => TextLoadsTheSame (trim s)
  | some (.obj entries) => RecordLoadsTheSame fun key => lookup key entries
  | _ => True

omit [Runtime] [RuleTextLaws] in
theorem fields_of_toJson_eq {l l' : LoadedRecurrence} (h : l.toJson = l'.toJson) :
    l.seriesId = l'.seriesId ∧ countProperty l.count = countProperty l'.count ∧ l.rrule = l'.rrule := by
  have hentries : definedEntries l.fields = definedEntries l'.fields := Json.obj.inj h
  have hread (key : String) : lookup key (definedEntries l.fields) = lookup key (definedEntries l'.fields) := by
    rw [hentries]
  have hstr {a b : Option String} (hab : a.map Json.str = b.map Json.str) : a = b := by
    refine Option.map_injective ?_ hab
    intro x y hxy
    exact Json.str.inj hxy
  obtain ⟨rs, -, -, -, -, rc, -⟩ := reads_toJson l
  obtain ⟨rs', -, -, -, -, rc', -⟩ := reads_toJson l'
  have hrrule (l : LoadedRecurrence) : lookup "rrule" (definedEntries l.fields) = l.rrule.map .str :=
    lookup_toJson (by simp [LoadedRecurrence.fields])
  refine ⟨hstr ?_, ?_, hstr ?_⟩
  · exact rs.symm.trans ((hread "seriesId").trans rs')
  · exact rc.symm.trans ((hread "count").trans rc')
  · exact (hrrule l).symm.trans ((hread "rrule").trans (hrrule l'))

/-- What the second pass may add is nothing. -/
theorem again_toJson {l : LoadedRecurrence} (hl : l.Normal) {rrule : Option String}
    (hseries : l.seriesId.or (getSeriesIdFromRRule rrule) = l.seriesId)
    (hbyDay : l.byDay = none → (parsedFragment rrule).byDay = none)
    (hbyMonthDay : l.byMonthDay = none → (parsedFragment rrule).byMonthDay = none)
    (hweekStart : l.weekStart = none → (parsedFragment rrule).weekStart = none)
    (hcount : countProperty ((shownCount l.count).or (parsedFragment rrule).count) = countProperty l.count)
    (huntil : l.untilDate = none → (parsedFragment rrule).untilDate = none)
    (hrrule : (l.again rrule).rrule = l.rrule) : (l.again rrule).toJson = l.toJson := by
  have hor {α : Type} {a b : Option α} (h : a = none → b = none) : a.or b = a := by
    cases a with
    | none => exact h rfl
    | some _ => rfl
  rw [again_eq hl]
  simp only [LoadedRecurrence.toJson, LoadedRecurrence.fields, hseries, hor hbyDay, hor hbyMonthDay, hor hweekStart, hcount,
    hor huntil, hrrule]

omit [Runtime] [RuleTextLaws] in
/-- A count that rounds to 0 is not written, and the fragment's is read in its place. -/
theorem countProperty_again_iff (own parsed : Option Int) :
    countProperty ((shownCount (own.or parsed)).or parsed) = countProperty (own.or parsed) ↔
      (own = some 0 → shownCount parsed = none) := by
  cases own with
  | none =>
    cases parsed with
    | none => simp [shownCount]
    | some n => by_cases hzero : n = 0 <;> simp [shownCount, hzero, Option.filter_some]
  | some n =>
    by_cases hzero : n = 0
    · cases parsed with
      | none => simp [shownCount, countProperty, hzero]
      | some m => by_cases hm : m = 0 <;> simp [shownCount, countProperty, hzero, hm, Option.filter_some]
    · simp [shownCount, hzero, Option.filter_some]

omit [RuleTextLaws] in
theorem rrule_of_noSeries {read : String → Option Json} {rule : String} {rrule : Option String}
    (h : (loadedRecord read rule rrule).seriesId = none) : (loadedRecord read rule rrule).rrule = rrule := by
  simp only [loadedRecord] at h ⊢
  rw [h]

/-- The fragment that takes the series id of a record. -/
def carrier (read : String → Option Json) (rule : String) (rrule : Option String) : String :=
  let l := loadedRecord read rule rrule
  rrule.getD (buildRRuleString rule l.byDay (parsedFragment rrule).interval l.byMonthDay l.weekStart l.count l.untilDate)

omit [RuleTextLaws] in
theorem rrule_of_series {read : String → Option Json} {rule seriesId : String} {rrule : Option String}
    (h : (loadedRecord read rule rrule).seriesId = some seriesId) :
    (loadedRecord read rule rrule).rrule = some (withSeriesIdInRRule (carrier read rule rrule) seriesId) := by
  simp only [loadedRecord, carrier] at h ⊢
  rw [h]

/-- `parsed` says nothing that the loaded fields do not, a count apart that a count of 0 hides. -/
structure Covers (read : String → Option Json) (rrule : Option String) (l : LoadedRecurrence) (parsed : ParsedRRule) :
    Prop where
  byDay : l.byDay = none → parsed.byDay = none
  byMonthDay : l.byMonthDay = none → parsed.byMonthDay = none
  weekStart : l.weekStart = none → parsed.weekStart = none
  untilDate : l.untilDate = none → parsed.untilDate = none
  count : countProperty ((shownCount l.count).or parsed.count) = countProperty l.count ↔
    (ownCount read = some 0 → shownCount (parsedFragment rrule).count = none)

omit [RuleTextLaws] in
theorem covers_fragment (read : String → Option Json) (rule : String) (rrule : Option String) :
    Covers read rrule (loadedRecord read rule rrule) (parsedFragment rrule) := by
  constructor
  · exact fun h => (Option.or_eq_none_iff.1 h).2
  · exact fun h => (Option.or_eq_none_iff.1 h).2
  · exact fun h => (Option.or_eq_none_iff.1 h).2
  · intro h
    simp only [loadedRecord] at h
    exact (Option.or_eq_none_iff.1 h).2
  · exact countProperty_again_iff _ _

omit [RuleTextLaws] in
@[simp] theorem carrier_some (read : String → Option Json) (rule rrule : String) : carrier read rule (some rrule) = rrule :=
  rfl

omit [RuleTextLaws] in
theorem carrier_none (read : String → Option Json) (rule : String) :
    carrier read rule none = buildRRuleString rule (loadedRecord read rule none).byDay (parsedFragment none).interval
      (loadedRecord read rule none).byMonthDay (loadedRecord read rule none).weekStart
      (loadedRecord read rule none).count (loadedRecord read rule none).untilDate := rfl

theorem covers_carrier (read : String → Option Json) {rule : String} (hrule : rule ∈ recurrenceRules)
    (rrule : Option String) :
    Covers read rrule (loadedRecord read rule rrule) (parseRRuleString (carrier read rule rrule)) := by
  cases rrule with
  | some rrule =>
    rw [carrier_some]
    exact covers_fragment read rule (some rrule)
  | none =>
    have hnonneg := (@normal_loadedRecord _ _ read rule hrule none (by simp)).count
    rw [carrier_none]
    generalize loadedRecord read rule none = l at hnonneg ⊢
    obtain ⟨hbyDay, hbyMonthDay, hweekStart, hcount, huntil⟩ := @parse_build_absent _ _ rule l.byDay
      (parsedFragment none).interval l.byMonthDay l.weekStart l.count l.untilDate hrule
    refine ⟨hbyDay, hbyMonthDay, hweekStart, huntil, iff_of_true ?_ fun _ => rfl⟩
    cases hn : l.count with
    | none => rw [← hn, hcount (by simp [hn]), hn]; rfl
    | some n =>
      have hn0 := hnonneg n hn
      by_cases hzero : n = 0
      · rw [← hn, hcount (by simp [hn, hzero]), hn, hzero]
        rfl
      · simp [shownCount, hzero, Option.filter_some]

theorem plainStart_carrier (read : String → Option Json) {rule : String} (hrule : rule ∈ recurrenceRules)
    (rrule : Option String) :
    PlainStart (carrier read rule rrule) ↔ ∀ fragment, rrule = some fragment → PlainStart fragment := by
  cases rrule with
  | none =>
    rw [carrier_none]
    exact iff_of_true (plainStart_build hrule) (by simp)
  | some rrule => simp

theorem again_seriesId {l : LoadedRecurrence} (hl : l.Normal) (rrule : Option String) :
    (l.again rrule).seriesId = l.seriesId.or (getSeriesIdFromRRule rrule) :=
  congrArg LoadedRecurrence.seriesId (again_eq hl rrule)

/-- The second pass changes the record only where it reads another count or another fragment. -/
theorem again_toJson_iff {l : LoadedRecurrence} (hl : l.Normal) {read : String → Option Json} {stored rrule : Option String}
    (hcovers : Covers read stored l (parsedFragment rrule))
    (hseries : l.seriesId.or (getSeriesIdFromRRule rrule) = l.seriesId) :
    (l.again rrule).toJson = l.toJson ↔
      (ownCount read = some 0 → shownCount (parsedFragment stored).count = none) ∧ (l.again rrule).rrule = l.rrule := by
  constructor
  · intro h
    obtain ⟨-, hcount, hrrule⟩ := fields_of_toJson_eq h
    refine ⟨hcovers.count.1 ?_, hrrule⟩
    rw [again_eq hl] at hcount
    exact hcount
  · rintro ⟨hcount, hrrule⟩
    exact again_toJson hl hseries hcovers.byDay hcovers.byMonthDay hcovers.weekStart (hcovers.count.2 hcount)
      hcovers.untilDate hrrule

theorem noSeries_again_iff {l : LoadedRecurrence} (hl : l.Normal) {read : String → Option Json} {stored : Option String}
    (hseries : l.seriesId = none) (hfragment : getSeriesIdFromRRule stored = none) (hkept : l.rrule = stored)
    (hcovers : Covers read stored l (parsedFragment stored)) :
    (l.again stored).toJson = l.toJson ↔
      (ownCount read = some 0 → shownCount (parsedFragment stored).count = none) := by
  rw [again_toJson_iff hl hcovers (by rw [hseries, hfragment]; rfl), hkept]
  have hagain := again_seriesId hl stored
  rw [hseries, hfragment] at hagain
  exact and_iff_left (rrule_of_noSeries hagain)

theorem series_again_iff {l : LoadedRecurrence} (hl : l.Normal) {read : String → Option Json} {stored : Option String}
    {fragment seriesId : String} (hseries : l.seriesId = some seriesId)
    (hkept : l.rrule = some (withSeriesIdInRRule fragment seriesId))
    (hcovers : Covers read stored l (parseRRuleString fragment)) :
    (l.again (l.rrule.map trim)).toJson = l.toJson ↔
      (ownCount read = some 0 → shownCount (parsedFragment stored).count = none) ∧ PlainStart fragment := by
  have hnext (text : String) : (l.again (some text)).rrule = some (withSeriesIdInRRule text seriesId) := by
    have hagain := again_seriesId hl (some text)
    rw [hseries, Option.some_or] at hagain
    exact rrule_of_series hagain
  rw [hkept, Option.map_some]
  by_cases hstart : PlainStart fragment
  · rw [(trim_withSeriesId_iff _ seriesId).2 hstart]
    rw [← parse_withSeriesId _ seriesId, ← parsedFragment_some] at hcovers
    rw [again_toJson_iff hl hcovers (by rw [hseries]; rfl), hnext, hkept, withSeriesId_again]
    simp [hstart]
  · refine iff_of_false (fun h => ?_) fun h => hstart h.2
    have hrrule := (fields_of_toJson_eq h).2.2
    rw [hnext, hkept, Option.some_inj] at hrrule
    exact withSeriesId_trim_ne hstart seriesId hrrule

theorem record_again_iff {read : String → Option Json} {rule : String} (hrule : storedRule read = some rule) :
    normalizeRecurrenceForLoad (some (loadedRecord read rule (storedFragment read)).toJson) =
        some (loadedRecord read rule (storedFragment read)).toJson ↔
      (ownCount read = some 0 → shownCount (parsedFragment (storedFragment read)).count = none) ∧
        ∀ seriesId rrule, storedSeriesId read = some seriesId → storedFragment read = some rrule → PlainStart rrule := by
  have hmem := storedRule_mem hrule
  have hl := @normal_loadedRecord _ _ read rule hmem (storedFragment read) fun s hs => (storedFragment_trimmed hs).2
  have htrimmed : (storedFragment read).map trim = storedFragment read := by
    cases hstored : storedFragment read with
    | none => rfl
    | some s => rw [Option.map_some, (storedFragment_trimmed hstored).1]
  have hseriesEq : (loadedRecord read rule (storedFragment read)).seriesId = storedSeriesId read := rfl
  rw [normalize_toJson hl, Option.some_inj]
  cases hseries : storedSeriesId read with
  | none =>
    have hnone := hseriesEq.trans hseries
    have hfragment : getSeriesIdFromRRule (storedFragment read) = none := (Option.or_eq_none_iff.1 hseries).2
    have hkept := rrule_of_noSeries hnone
    rw [hkept, htrimmed, noSeries_again_iff hl hnone hfragment hkept (covers_fragment read rule _)]
    simp
  | some seriesId =>
    have hsome := hseriesEq.trans hseries
    rw [series_again_iff hl hsome (rrule_of_series hsome) (covers_carrier read hmem _), plainStart_carrier read hmem]
    refine and_congr_right fun _ => ⟨fun h _ fragment _ hstored => h fragment hstored, fun h fragment hstored => ?_⟩
    exact h seriesId fragment rfl hstored

omit [RuleTextLaws] in
theorem recurrenceOfString_rule {s rule : String} (hword : trim s ∉ recurrenceRules)
    (h : (parseRRuleString (trim s)).rule = some rule) (hblank : isBlank s = false) :
    recurrenceOfString s = some (loadedText rule (trim s)).toJson := by
  have hne : trim s ≠ "" := by simpa [isBlank] using hblank
  simp only [recurrenceOfString, hne, hword, if_false, loadedText, parsedFragment_some]
  generalize parseRRuleString (trim s) = parsed at h ⊢
  rw [h]
  rfl

/-- A fragment that is loaded alone is read again as it was, and now also for its series id. -/
theorem fragment_again_iff {l : LoadedRecurrence} (hl : l.Normal) {text : String} (hnone : l.seriesId = none)
    (hkept : l.rrule = some text) (hcovers : Covers (fun _ => none) (some text) l (parsedFragment (some text))) :
    (l.again (some text)).toJson = l.toJson ↔ getSeriesIdFromRRule (some text) = none := by
  have hagain := again_seriesId hl (some text)
  rw [hnone, Option.none_or] at hagain
  constructor
  · intro h
    rw [← hagain, (fields_of_toJson_eq h).1, hnone]
  · intro hseries
    rw [hseries] at hagain
    refine (again_toJson_iff hl hcovers (by rw [hnone, hseries]; rfl)).2 ⟨fun h => ?_, ?_⟩
    · simp [ownCount, asNum?] at h
    · rw [hkept]
      exact rrule_of_noSeries hagain

omit [RuleTextLaws] in
theorem covers_text (rule text : String) :
    Covers (fun _ => none) (some text) (loadedText rule text) (parsedFragment (some text)) := by
  have hcount := countProperty_again_iff none (parsedFragment (some text)).count
  simp only [loadedText, parsedFragment_some, Option.none_or] at hcount ⊢
  generalize parseRRuleString text = parsed at hcount ⊢
  refine ⟨id, id, id, id, iff_of_true (hcount.2 (by simp)) fun h => ?_⟩
  simp [ownCount, asNum?] at h

theorem text_again_iff {s rule : String} (hrule : (parseRRuleString (trim s)).rule = some rule) (hblank : isBlank s = false) :
    normalizeRecurrenceForLoad (some (loadedText rule (trim s)).toJson) = some (loadedText rule (trim s)).toJson ↔
      getSeriesIdFromRRule (some (trim s)) = none := by
  have hl := normal_loadedText (parseRRuleString_rule hrule) (trim_ne_of_isBlank hblank)
  have hcovers := covers_text rule (trim s)
  have hkept : (loadedText rule (trim s)).rrule = some (trim s) := by simp only [loadedText]
  have hnone : (loadedText rule (trim s)).seriesId = none := by simp only [loadedText]
  generalize loadedText rule (trim s) = l at hl hcovers hkept hnone ⊢
  rw [normalize_toJson hl, hkept, Option.map_some, trim_trim, Option.some_inj]
  exact fragment_again_iff hl hnone hkept hcovers

omit [RuleTextLaws] in
/-- The days of a loaded recurrence are texts. -/
theorem loadRecurrence_toJson {l : LoadedRecurrence} :
    loadRecurrence (some l.toJson) = .ok (normalizeRecurrenceForLoad (some l.toJson)) := by
  have hread : lookup "byDay" (definedEntries l.fields) = l.byDay.map strings :=
    lookup_toJson (by simp [LoadedRecurrence.fields])
  have hdays : ((((some l.toJson).bind Json.asObj?).bind fun entries =>
      (lookup "byDay" entries).bind Json.asArr?).getD []).any (fun day => day.asStr?.isNone) = false := by
    have hentries : l.toJson.asObj? = some (definedEntries l.fields) := rfl
    rw [Option.bind_some, hentries, Option.bind_some, hread]
    cases l.byDay with
    | none => rfl
    | some days => simp [strings, Json.asArr?, Json.asStr?]
  simp only [loadRecurrence, hdays]
  simp

omit [RuleTextLaws] in
theorem loadRecurrence_text (s : String) : loadRecurrence (some (.str s)) = .ok (recurrenceOfString s) := by
  simp [loadRecurrence, Json.asObj?, normalizeRecurrenceForLoad]

theorem load_text_twice_iff (s : String) :
    (∃ loaded, loadRecurrence (some (.str s)) = .ok loaded ∧ loadRecurrence loaded = .ok loaded) ↔
      TextLoadsTheSame (trim s) := by
  simp only [loadRecurrence_text, Except.ok.injEq, exists_eq_left']
  have hnothing (hnone : recurrenceOfString s = none) : loadRecurrence (recurrenceOfString s) = .ok (recurrenceOfString s) := by
    rw [hnone]
    rfl
  by_cases hword : trim s ∈ recurrenceRules
  · refine iff_of_true ?_ fun hnot => absurd hword hnot
    have hne : trim s ≠ "" := by
      intro hempty
      rw [hempty] at hword
      exact absurd hword (by decide +kernel)
    have hl : (LoadedRecurrence.mk (trim s) none none none none none none none none none none none none none).Normal := by
      constructor
      · exact hword
      all_goals
        intro value hvalue
        cases hvalue
    have hloaded : recurrenceOfString s =
        some (LoadedRecurrence.mk (trim s) none none none none none none none none none none none none none).toJson := by
      simp only [recurrenceOfString, hne, hword, if_false, if_true]
      rfl
    have hcovers : Covers (fun _ => none) none
        (LoadedRecurrence.mk (trim s) none none none none none none none none none none none none none)
        (parsedFragment none) := ⟨id, id, id, id, iff_of_true rfl fun _ => rfl⟩
    rw [hloaded, loadRecurrence_toJson, normalize_toJson hl]
    exact congrArg (fun json => Except.ok (some json)) ((noSeries_again_iff hl rfl rfl rfl hcovers).2 fun _ => rfl)
  · cases hrule : (parseRRuleString (trim s)).rule with
    | none =>
      refine iff_of_true (hnothing ?_) fun _ h => by simp [hrule] at h
      simp only [recurrenceOfString, hword, if_false, hrule]
      split <;> rfl
    | some rule =>
      have hblank : isBlank s = false := by
        refine Bool.eq_false_iff.2 fun hblank => ?_
        have hempty : (parseRRuleString "").rule = none := rfl
        rw [beq_iff_eq.1 hblank, hempty] at hrule
        cases hrule
      rw [recurrenceOfString_rule hword hrule hblank, loadRecurrence_toJson, Except.ok.injEq, text_again_iff hrule hblank]
      simp [TextLoadsTheSame, hword, hrule]

omit [RuleTextLaws] in
theorem loadRecurrence_record (entries : List (String × Json)) :
    loadRecurrence (some (.obj entries)) =
      if (storedRule fun key => lookup key entries).isSome = true ∧
          (listedDays (lookup "byDay" entries)).any (fun day => day.asStr?.isNone) = true then
        .error (.typeError "token.toUpperCase is not a function")
      else .ok (recurrenceOfRecord fun key => lookup key entries) := by
  have hloaded : (recurrenceOfRecord fun key => lookup key entries).isSome =
      (storedRule fun key => lookup key entries).isSome := by
    rw [recurrenceOfRecord_eq, Option.isSome_map]
  rw [← hloaded]
  rfl

theorem load_record_twice_iff (entries : List (String × Json)) :
    (∃ loaded, loadRecurrence (some (.obj entries)) = .ok loaded ∧ loadRecurrence loaded = .ok loaded) ↔
      RecordLoadsTheSame fun key => lookup key entries := by
  rw [loadRecurrence_record, RecordLoadsTheSame, recurrenceOfRecord_eq]
  cases hrule : storedRule fun key => lookup key entries with
  | none => simp [loadRecurrence, normalizeRecurrenceForLoad]
  | some rule =>
    have hdays : (listedDays (lookup "byDay" entries)).any (fun day => day.asStr?.isNone) =
        !(listedDays (lookup "byDay" entries)).all fun day => day.asStr?.isSome := by
      rw [List.not_all_eq_any_not]
      simp
    simp only [Option.isSome_some, true_and, forall_const, Option.map_some, hdays]
    cases hall : (listedDays (lookup "byDay" entries)).all fun day => day.asStr?.isSome with
    | false => simp
    | true =>
      simp only [Bool.not_true, Bool.false_eq_true, if_false, Except.ok.injEq, exists_eq_left', true_and]
      rw [loadRecurrence_toJson, Except.ok.injEq, record_again_iff hrule]

theorem loads_again_iff (value : Option Json) :
    (∃ loaded, loadRecurrence value = .ok loaded ∧ loadRecurrence loaded = .ok loaded) ↔ LoadsTheSame value := by
  have hother {value : Option Json} (h : loadRecurrence value = .ok none) :
      ∃ loaded, loadRecurrence value = .ok loaded ∧ loadRecurrence loaded = .ok loaded := ⟨none, h, rfl⟩
  cases value with
  | none => exact iff_of_true (hother rfl) trivial
  | some json =>
    cases json with
    | str s => exact load_text_twice_iff s
    | obj entries => exact load_record_twice_iff entries
    | _ => exact iff_of_true (hother rfl) trivial

/-- Loading a recurrence again changes nothing, apart from three kinds of record and the text that carries a series id. -/
theorem load_twice_iff (value : Option Json) :
    (∃ loaded, loadRecurrence value = .ok loaded ∧ loadRecurrence loaded = .ok loaded) ↔ LoadsTheSame value :=
  loads_again_iff value

end

/-! ### A runtime with these laws -/

theorem isTrimmed_of_printed {c : Char} (hlow : 33 ≤ c.toNat) (hhigh : c.toNat ≤ 126) : isTrimmed c = false := by
  simp only [isTrimmed, Bool.or_eq_false_iff, Bool.and_eq_false_imp, decide_eq_true_eq, decide_eq_false_iff_not,
    beq_eq_false_iff_ne, ne_eq]
  omega

theorem isTrimmed_of_isDigit {c : Char} (h : c.isDigit = true) : isTrimmed c = false := by
  simp only [Char.isDigit, Bool.and_eq_true, decide_eq_true_eq, ge_iff_le, UInt32.le_iff_toNat_le] at h
  have hlow : 48 ≤ c.toNat := h.1
  have hhigh : c.toNat ≤ 57 := h.2
  exact isTrimmed_of_printed (by omega) (by omega)

theorem isTrimmed_toUpper (c : Char) : isTrimmed c.toUpper = isTrimmed c := by
  unfold Char.toUpper
  split
  · next h =>
    simp only [UInt32.le_iff_toNat_le] at h
    have hlow : 97 ≤ c.toNat := h.1
    have hhigh : c.toNat ≤ 122 := h.2
    rw [isTrimmed_of_printed (c := c) (by omega) (by omega)]
    have hval : (c.val + ('A'.val - 'a'.val)).toNat = c.toNat - 32 := by
      have hstep : ('A'.val - 'a'.val).toNat = 4294967264 := by decide
      have hnat : c.val.toNat = c.toNat := rfl
      rw [UInt32.toNat_add, hstep, hnat]
      omega
    refine isTrimmed_of_printed ?_ ?_
    · change 33 ≤ (c.val + ('A'.val - 'a'.val)).toNat
      omega
    · change (c.val + ('A'.val - 'a'.val)).toNat ≤ 126
      omega
  · rfl

theorem toUpper_trim (s : String) :
    String.ofList ((trim s).toList.map Char.toUpper) = trim (String.ofList (s.toList.map Char.toUpper)) := by
  have hcomp : isTrimmed ∘ Char.toUpper = isTrimmed := funext isTrimmed_toUpper
  simp only [trim, String.toList_ofList, List.dropWhile_map, hcomp, List.rdropWhile, ← List.map_reverse]

theorem isBlank_of_numeral {s : String} {len : Nat} {n : Int} (hlen : 0 < len)
    (h : s.toList.head? = (padStart len (toString n)).toList.head?) : isBlank s = false := by
  obtain ⟨c, cs, hcs⟩ := List.exists_cons_of_ne_nil (padStart_ne_nil hlen (toString n))
  have hmem : c ∈ (padStart len (toString n)).toList := hcs ▸ List.mem_cons_self
  rw [hcs, List.head?_cons] at h
  refine isBlank_of_mem (List.mem_of_mem_head? h) ?_
  rcases mem_padStart hmem with hdigit | rfl
  · exact isTrimmed_of_isDigit hdigit
  · decide

theorem head?_formatIso (t : Int) :
    (formatIso t).toList.head? = (padStart 4 (toString (civilFromDays (t / 86400000)).1)).toList.head? := by
  have hyear := padStart_ne_nil (show 0 < 4 by decide) (toString (civilFromDays (t / 86400000)).1)
  simp only [formatIso, padded, String.toList_append, List.append_assoc]
  exact List.head?_append_of_ne_nil _ hyear

theorem isoRuntime_toNumber_eq {s : String} {n : Rat} (h : isoRuntime.toNumber s = some n) :
    ∃ k : Nat, n = ((k : Int) : Rat) := by
  obtain ⟨_, hread, rfl⟩ := Option.map_eq_some_iff.1 h
  obtain ⟨value, hvalue, hpure⟩ := Option.bind_eq_some_iff.1 hread
  cases hpure
  have hdigits := isDigit_of_digits? hvalue
  have hne : s.toList ≠ [] := by
    intro hnil
    rw [hnil] at hvalue
    cases hvalue
  rw [digits?_of_digits hne hdigits, Option.some_inj] at hvalue
  exact ⟨_, by rw [← hvalue]⟩

theorem isoRuntime_toNumber_numberToString (k : Nat) :
    isoRuntime.toNumber (isoRuntime.numberToString ((k : Int) : Rat)) = some ((k : Int) : Rat) := by
  have hden : ((k : Int) : Rat).den = 1 := Rat.den_intCast k
  have hnum : ((k : Int) : Rat).num = k := Rat.num_intCast k
  have htext : isoRuntime.numberToString ((k : Int) : Rat) = toString (k : Int) := (if_pos hden).trans (by rw [hnum])
  have hread : isoRuntime.toNumber (toString (k : Int)) = (digits? (toString (k : Int)).toList).map fun n => (n : Rat) := rfl
  rw [htext, hread, digits?_toString]
  rfl

theorem isoRuntime_numberToString_plain (n : Rat) : ';' ∉ (isoRuntime.numberToString n).toList := by
  have hint (i : Int) : ';' ∉ (toString i).toList := by
    intro hmem
    rcases mem_toString hmem with hdigit | hminus
    · exact absurd hdigit (by decide)
    · exact absurd hminus (by decide)
  by_cases hden : n.den = 1
  · have htext : isoRuntime.numberToString n = toString n.num := if_pos hden
    rw [htext]
    exact hint n.num
  · have htext : isoRuntime.numberToString n = toString n.num ++ "/" ++ toString n.den := if_neg hden
    have hslash : ';' ∉ "/".toList := by decide
    rw [htext, String.toList_append, String.toList_append, List.mem_append, List.mem_append, not_or, not_or,
      ← toString_natCast]
    exact ⟨⟨hint _, hslash⟩, hint _⟩

theorem ruleTextLaws_escaping : @RuleTextLaws escapingRuntime := by
  have hfour : 0 < 4 := by decide
  refine @RuleTextLaws.mk escapingRuntime (fun _ _ => rfl) toUpper_trim ?_ percentEncode_plain
    isoRuntime_numberToString_plain ?_ ?_
  · intro s n h
    obtain ⟨k, rfl⟩ := isoRuntime_toNumber_eq h
    exact isoRuntime_toNumber_numberToString k
  · intro t
    exact isBlank_of_numeral hfour (head?_formatIso t)
  · intro t
    refine isBlank_of_numeral hfour (Eq.trans ?_ (head?_formatIso t))
    have hlist : (escapingRuntime.formatLocal t).toList = (formatIso t).toList.take 19 := String.toList_ofList
    rw [hlist, List.head?_take]
    rfl

/-- A record with a fragment and a series id. -/
def monthlyRecord : List (String × Json) :=
  [("rule", .str "monthly"), ("seriesId", .str " s1 "), ("count", .num 5),
    ("rrule", .str " FREQ=MONTHLY;BYMONTHDAY=31;X-COLOR=red ")]

theorem monthlyRecord_settled :
    ∃ loaded, @loadRecurrence escapingRuntime (some (.obj monthlyRecord)) = .ok loaded ∧
      @loadRecurrence escapingRuntime loaded = .ok loaded := by
  refine (@load_twice_iff escapingRuntime ruleTextLaws_escaping (some (.obj monthlyRecord))).mpr ?_
  intro _
  have hcount : @ownCount (fun key => lookup key monthlyRecord) = some 5 := by decide +kernel
  have hfragment : storedFragment (fun key => lookup key monthlyRecord) =
      some "FREQ=MONTHLY;BYMONTHDAY=31;X-COLOR=red" := by decide +kernel
  refine ⟨by decide +kernel, by simp [hcount], fun seriesId rrule _ hrrule => ?_⟩
  rw [hfragment] at hrrule
  obtain rfl := Option.some.inj hrrule
  decide +kernel

/-- The series id that a text carries is read from the record it becomes. -/
theorem textSeriesId_second :
    ¬∃ loaded, @loadRecurrence escapingRuntime (some (.str "FREQ=WEEKLY;X-MINDWTR-SERIES-ID=s1")) = .ok loaded ∧
      @loadRecurrence escapingRuntime loaded = .ok loaded := by
  let seriesId (loaded : Except JsError (Option Json)) : Option Json :=
    (loaded.toOption.join.bind Json.asObj?).bind (lookup "seriesId")
  let first := @loadRecurrence escapingRuntime (some (.str "FREQ=WEEKLY;X-MINDWTR-SERIES-ID=s1"))
  have hfirst : (seriesId first).isSome = false := by decide +kernel
  have hsecond : (seriesId (first.bind (@loadRecurrence escapingRuntime))).isSome = true := by decide +kernel
  rintro ⟨loaded, hload, hagain⟩
  have hbind : first.bind (@loadRecurrence escapingRuntime) = first := by
    rw [show first = .ok loaded from hload]
    exact hagain
  rw [hbind, hfirst] at hsecond
  cases hsecond

end Mindwtr
