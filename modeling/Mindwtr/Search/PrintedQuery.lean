import Mindwtr.Capture.QuickAddEscapes
import Mindwtr.Search.Query

/-!
# Printed queries

A query is printed as words: `OR` between the clauses, and each term with its dash, its field and either its
comparator or double quotes around its value. What is read off at each place of the text is one of three words
(`matchAt_tokenPattern`); the printed words are read off again, and as the terms they were printed from, exactly where
`TermReadsBack` says (`parse_printed_iff`). A term with a field always is.
-/

namespace Mindwtr.Search

open Mindwtr.Capture Mindwtr.Js Mindwtr.Lib Mindwtr.Lib.Regex

/-! ### What a place begins with -/

def phraseAt : List Char → Option (List Char)
  | '"' :: rest =>
    if rest.takeWhile isNotQuote = [] ∨ rest.dropWhile isNotQuote = [] then none
    else some ('"' :: rest.takeWhile isNotQuote ++ ['"'])
  | _ => none

def fieldPhraseAt (rest : List Char) : Option (List Char) :=
  if rest.takeWhile isFieldLetter = [] then none
  else
    match rest.dropWhile isFieldLetter with
    | ':' :: more => (phraseAt more).map fun quoted => rest.takeWhile isFieldLetter ++ ':' :: quoted
    | _ => none

def wordAt (rest : List Char) : Option (List Char) :=
  if rest.takeWhile isNotSpace = [] then none else some (rest.takeWhile isNotSpace)

def tokenAt (rest : List Char) : Option (List Char) := (fieldPhraseAt rest).or ((phraseAt rest).or (wordAt rest))

section
variable {rest v w : List Char}

theorem takeWhile_append_stop {p : Char → Bool} {w : List Char} (hw : ∀ c ∈ w, p c = true) {stop : Char}
    (hstop : p stop = false) (rest : List Char) :
    (w ++ stop :: rest).takeWhile p = w ∧ (w ++ stop :: rest).dropWhile p = stop :: rest := by
  have hnot : ¬p stop = true := by simp [hstop]
  rw [List.takeWhile_append_of_pos hw, List.dropWhile_append_of_pos hw, List.takeWhile_cons_of_neg hnot,
    List.dropWhile_cons_of_neg hnot, List.append_nil]
  exact ⟨rfl, rfl⟩

theorem phraseAt_cons (rest : List Char) : phraseAt ('"' :: rest) =
    if rest.takeWhile isNotQuote = [] ∨ rest.dropWhile isNotQuote = [] then none
    else some ('"' :: rest.takeWhile isNotQuote ++ ['"']) := rfl

theorem phraseAt_quoted (hne : v ≠ []) (hv : ∀ c ∈ v, isNotQuote c = true) :
    phraseAt ('"' :: v ++ '"' :: rest) = some ('"' :: v ++ ['"']) := by
  obtain ⟨htake, hdrop⟩ := takeWhile_append_stop hv (show isNotQuote '"' = false by decide) rest
  rw [List.cons_append, phraseAt, htake, hdrop, if_neg (by simp [hne])]

theorem phraseAt_eq_some : phraseAt rest = some w ↔
    ∃ v more, v ≠ [] ∧ (∀ c ∈ v, isNotQuote c = true) ∧ w = '"' :: v ++ ['"'] ∧ rest = '"' :: v ++ '"' :: more := by
  constructor
  · intro h
    unfold phraseAt at h
    split at h
    · rename_i rest
      split_ifs at h with hnone
      rw [not_or] at hnone
      obtain ⟨stop, more, hdrop⟩ := List.exists_cons_of_ne_nil hnone.2
      have hstop : stop = '"' := by
        have hnot := List.head_dropWhile_not isNotQuote hnone.2
        simpa [hdrop, isNotQuote] using hnot
      refine ⟨_, more, hnone.1, fun c hc => List.mem_takeWhile_imp hc, (Option.some.inj h).symm, ?_⟩
      rw [← hstop, ← hdrop, List.cons_append, List.takeWhile_append_dropWhile]
    · cases h
  · rintro ⟨v, more, hne, hv, rfl, rfl⟩
    exact phraseAt_quoted hne hv

theorem mem_language_phrase : w ∈ language phrase ↔
    ∃ v, v ≠ [] ∧ (∀ c ∈ v, isNotQuote c = true) ∧ w = '"' :: v ++ ['"'] := by
  simp only [phrase, language_seq, Language.mem_mul, mem_language_plus_letter, mem_language_letter, beq_iff_eq]
  constructor
  · rintro ⟨_, ⟨a, rfl, rfl⟩, _, ⟨v, ⟨hne, hv⟩, _, ⟨b, rfl, rfl⟩, rfl⟩, rfl⟩
    exact ⟨v, hne, hv, rfl⟩
  · rintro ⟨v, hne, hv, rfl⟩
    exact ⟨_, ⟨_, rfl, rfl⟩, _, ⟨v, ⟨hne, hv⟩, _, ⟨_, rfl, rfl⟩, rfl⟩, rfl⟩

theorem phrase_at_place : w ∈ language phrase ∧ w <+: rest ↔ phraseAt rest = some w := by
  rw [mem_language_phrase, phraseAt_eq_some]
  constructor
  · rintro ⟨⟨v, hne, hv, rfl⟩, more, rfl⟩
    exact ⟨v, more, hne, hv, rfl, by simp⟩
  · rintro ⟨v, more, hne, hv, rfl, rfl⟩
    exact ⟨⟨v, hne, hv, rfl⟩, more, by simp⟩

theorem fieldPhraseAt_eq_some : fieldPhraseAt rest = some w ↔
    ∃ u quoted more, u ≠ [] ∧ (∀ c ∈ u, isFieldLetter c = true) ∧ phraseAt more = some quoted ∧
      w = u ++ ':' :: quoted ∧ rest = u ++ ':' :: more := by
  constructor
  · intro h
    unfold fieldPhraseAt at h
    split_ifs at h with hne
    split at h
    · rename_i more hdrop
      obtain ⟨quoted, hquoted, rfl⟩ := Option.map_eq_some_iff.1 h
      refine ⟨_, quoted, more, hne, fun c hc => List.mem_takeWhile_imp hc, hquoted, rfl, ?_⟩
      rw [← hdrop, List.takeWhile_append_dropWhile]
    · cases h
  · rintro ⟨u, quoted, more, hne, hu, hquoted, rfl, rfl⟩
    obtain ⟨htake, hdrop⟩ := takeWhile_append_stop hu (show isFieldLetter ':' = false by decide) more
    rw [fieldPhraseAt, htake, if_neg hne, hdrop]
    simp [hquoted]

theorem mem_language_fieldPhrase : w ∈ language fieldPhrase ↔
    ∃ u quoted, u ≠ [] ∧ (∀ c ∈ u, isFieldLetter c = true) ∧ quoted ∈ language phrase ∧ w = u ++ ':' :: quoted := by
  simp only [fieldPhrase, language_seq, Language.mem_mul, mem_language_plus_letter, mem_language_letter,
    mem_language_optional, beq_iff_eq]
  constructor
  · rintro ⟨dash, hdash, _, ⟨u, ⟨hne, hu⟩, _, ⟨_, ⟨b, rfl, rfl⟩, quoted, hquoted, rfl⟩, rfl⟩, rfl⟩
    refine ⟨dash ++ u, quoted, by simp [hne], ?_, hquoted, by simp⟩
    intro c hc
    rcases List.mem_append.1 hc with hc | hc
    · rcases hdash with ⟨a, rfl, rfl⟩ | rfl
      · rw [List.mem_singleton.1 hc]
        decide
      · cases hc
    · exact hu c hc
  · rintro ⟨u, quoted, hne, hu, hquoted, rfl⟩
    exact ⟨[], .inr rfl, _, ⟨u, ⟨hne, hu⟩, _, ⟨_, ⟨_, rfl, rfl⟩, quoted, hquoted, rfl⟩, rfl⟩, by simp⟩

theorem fieldPhrase_at_place : w ∈ language fieldPhrase ∧ w <+: rest ↔ fieldPhraseAt rest = some w := by
  rw [mem_language_fieldPhrase, fieldPhraseAt_eq_some]
  constructor
  · rintro ⟨⟨u, quoted, hne, hu, hquoted, rfl⟩, more, rfl⟩
    exact ⟨u, quoted, quoted ++ more, hne, hu, phrase_at_place.1 ⟨hquoted, List.prefix_append _ _⟩, rfl, by simp⟩
  · rintro ⟨u, quoted, more, hne, hu, hquoted, rfl, rfl⟩
    obtain ⟨hin, after, rfl⟩ := phrase_at_place.2 hquoted
    exact ⟨⟨u, quoted, hne, hu, hin, rfl⟩, after, by simp⟩

theorem plain_phrase : Plain phrase := .seq (.letter _) (.seq (plain_plus (.letter _)) (.letter _))

theorem plain_fieldPhrase : Plain fieldPhrase :=
  .seq (plain_optional (.letter _)) (.seq (plain_plus (.letter _)) (.seq (.letter _) plain_phrase))

/-- What the pattern matches at a place. -/
theorem matchAt_tokenPattern (index : Nat) (before : Option Char) (rest : List Char) :
    (matchAt tokenPattern index { before, rest }).map (·.text) = tokenAt rest := by
  have hfield := head?_run_of_unique plain_fieldPhrase (c := { before, rest }) fun w => fieldPhrase_at_place
  have hphrase := head?_run_of_unique plain_phrase (c := { before, rest }) fun w => phrase_at_place
  have hword := head?_run_letters isNotSpace { before, rest }
  have hrun : (run tokenPattern { before, rest }).head? =
      (tokenAt rest).map fun w => Cursor.past { before, rest } w (rest.drop w.length) := by
    rw [tokenPattern, run, run, List.head?_append, List.head?_append, hfield, hphrase, hword, tokenAt]
    cases fieldPhraseAt rest with
    | some w => rfl
    | none =>
      cases phraseAt rest with
      | some w => rfl
      | none =>
        unfold wordAt
        dsimp only
        split_ifs with hnil
        · rfl
        · have hdrop : rest.dropWhile isNotSpace = rest.drop (rest.takeWhile isNotSpace).length := by
            have hsplit := List.takeWhile_append_dropWhile (p := isNotSpace) (l := rest)
            exact (List.drop_left.symm.trans (congrArg (List.drop _) hsplit))
          rw [hdrop]
          rfl
  rw [matchAt, hrun, Option.map_map, Option.map_map]
  cases htoken : tokenAt rest with
  | none => rfl
  | some w =>
    have hprefix : w <+: rest := by
      rcases Option.or_eq_some_iff.1 htoken with hfound | ⟨-, hfound⟩
      · exact (fieldPhrase_at_place.2 hfound).2
      · rcases Option.or_eq_some_iff.1 hfound with hfound | ⟨-, hfound⟩
        · exact (phrase_at_place.2 hfound).2
        · unfold wordAt at hfound
          split_ifs at hfound
          rw [← Option.some.inj hfound]
          exact List.takeWhile_prefix _
    obtain ⟨more, rfl⟩ := hprefix
    simp [Cursor.consumed]

theorem ne_nil_of_tokenAt (h : tokenAt rest = some w) : w ≠ [] := by
  rcases Option.or_eq_some_iff.1 h with h | ⟨-, h⟩
  · obtain ⟨u, quoted, more, -, -, -, rfl, -⟩ := fieldPhraseAt_eq_some.1 h
    simp
  · rcases Option.or_eq_some_iff.1 h with h | ⟨-, h⟩
    · obtain ⟨v, more, -, -, rfl, -⟩ := phraseAt_eq_some.1 h
      simp
    · unfold wordAt at h
      split_ifs at h with hne
      exact Option.some.inj h ▸ hne

/-- A token has no white space at its ends. -/
theorem trimLine_of_tokenAt (h : tokenAt rest = some w) : trimLine w = w := by
  rw [trimLine_eq_self_iff]
  have hquoted : ∀ {rest w}, phraseAt rest = some w → (∀ c ∈ w.head?, isTrimmed c = false) ∧
      ∀ c ∈ w.getLast?, isTrimmed c = false := by
    intro rest w h
    obtain ⟨v, more, -, -, rfl, -⟩ := phraseAt_eq_some.1 h
    have hquote : isTrimmed '"' = false := by decide
    refine ⟨by simp [hquote], ?_⟩
    rw [List.getLast?_concat]
    simp [hquote]
  rcases Option.or_eq_some_iff.1 h with h | ⟨-, h⟩
  · obtain ⟨u, quoted, more, hne, hu, hphrase, rfl, -⟩ := fieldPhraseAt_eq_some.1 h
    obtain ⟨c, u, rfl⟩ := List.exists_cons_of_ne_nil hne
    constructor
    · have hc := hu c (by simp)
      simp only [isFieldLetter, Bool.and_eq_true, Bool.not_eq_true'] at hc
      simp [hc.2]
    · obtain ⟨v, more', -, -, rfl, -⟩ := phraseAt_eq_some.1 hphrase
      have hlast := (hquoted hphrase).2
      rw [List.getLast?_append]
      simpa using hlast
  · rcases Option.or_eq_some_iff.1 h with h | ⟨-, h⟩
    · exact hquoted h
    · unfold wordAt at h
      split_ifs at h with hne
      obtain rfl := Option.some.inj h
      have hall : ∀ c ∈ rest.takeWhile isNotSpace, isTrimmed c = false := by
        intro c hc
        simpa [isNotSpace] using List.mem_takeWhile_imp hc
      exact ⟨fun c hc => hall c (List.mem_of_mem_head? hc), fun c hc => hall c (List.mem_of_getLast? hc)⟩

/-- The tokens are what is read off one after the other. -/
theorem tokenize_eq (text : List Char) : tokenize (String.ofList text) = textsFrom tokenAt 0 text := by
  have htexts := searchAll_texts matchAt_tokenPattern text
  have hfrom : ∀ (line : List Char) (skip : Nat), ∀ w ∈ textsFrom tokenAt skip line, trimLine w = w ∧ w ≠ [] := by
    intro line
    induction line with
    | nil =>
      intro skip w hw
      cases skip <;> cases hw
    | cons a line ih =>
      intro skip w hw
      cases skip with
      | succ skip => exact ih skip w hw
      | zero =>
        rw [textsFrom] at hw
        split at hw
        · rename_i text htext
          rcases List.mem_cons.1 hw with rfl | hw
          · exact ⟨trimLine_of_tokenAt htext, ne_nil_of_tokenAt htext⟩
          · exact ih _ w hw
        · exact ih 0 w hw
  have hmap : (searchAll tokenPattern text).map (fun found => trimLine found.text) =
      (textsFrom tokenAt 0 text).map trimLine := by
    rw [← htexts, List.map_map]
    rfl
  rw [tokenize, String.toList_ofList, hmap]
  have hself : (textsFrom tokenAt 0 text).map trimLine = textsFrom tokenAt 0 text := by
    conv_rhs => rw [← List.map_id (textsFrom tokenAt 0 text)]
    exact List.map_congr_left fun w hw => (hfrom text 0 w hw).1
  rw [hself, List.filter_eq_self]
  intro w hw
  simpa using (hfrom text 0 w hw).2

end

/-! ### Printing -/

def SearchComparator.print : SearchComparator → List Char
  | .less => ['<']
  | .lessOrEqual => ['<', '=']
  | .greater => ['>']
  | .greaterOrEqual => ['>', '=']
  | .equal => ['=']

namespace SearchTerm

variable (t : SearchTerm)

def printDash : List Char := if t.negated then ['-'] else []

def printField : List Char := (t.field.map fun field => field.toList ++ [':']).getD []

def printValue : List Char :=
  match t.comparator with
  | some comparator => comparator.print ++ t.value.toList
  | none => '"' :: t.value.toList ++ ['"']

def print : List Char := t.printDash ++ t.printField ++ t.printValue

end SearchTerm

/-- The words of a query: its terms, and `OR` between clauses. -/
def queryWords (query : SearchQuery) : List (Option SearchTerm) :=
  List.intercalate [none] (query.clauses.map fun clause => clause.terms.map some)

def printWord (word : Option SearchTerm) : List Char := (word.map SearchTerm.print).getD ['O', 'R']

def printWords (words : List (Option SearchTerm)) : List Char := List.intercalate [' '] (words.map printWord)

def printQuery (query : SearchQuery) : String := String.ofList (printWords (queryWords query))

/-- A term that can be written down. -/
structure Printable [Runtime] (t : SearchTerm) : Prop where
  field : ∀ field ∈ t.field, field ≠ "" ∧ Runtime.toLowerCase field = field ∧
    (∀ c ∈ field.toList, isFieldLetter c = true ∧ isNotQuote c = true) ∧ field.toList.head? ≠ some '-'
  comparator : t.comparator.isSome → t.field.isSome ∧ (∀ c ∈ t.value.toList, isNotSpace c = true) ∧
    ∀ c ∈ t.value.toList.head?, c ≠ '<' ∧ c ≠ '>' ∧ c ≠ '='
  value : t.value ≠ "" ∧ trimLine t.value.toList = t.value.toList ∧ ∀ c ∈ t.value.toList, isNotQuote c = true

/-- A term without a field must not look like one with a field, a phrase cannot be negated, and a lone colon takes
what follows up to the next quote for its value. -/
def TermReadsBack (t : SearchTerm) (later : List SearchTerm) : Prop :=
  t.field = none → (':' ∈ t.value.toList → t.value.toList.head? = some ':') ∧
    (t.negated = true → ∀ c ∈ t.value.toList, isNotSpace c = true) ∧
    (t.value = ":" → ∀ u ∈ later, u.comparator.isSome = true)

def ReadBack : List SearchTerm → Prop
  | [] => True
  | t :: later => TermReadsBack t later ∧ ReadBack later

/-! ### Terms with a field -/

section
variable {rest v w : List Char}

/-- What may follow a printed word: nothing, or a blank and more. -/
def Follows (rest : List Char) : Prop := rest = [] ∨ ∃ more, rest = ' ' :: more

theorem takeWhile_append_follows {p : Char → Bool} (hspace : p ' ' = false) (hw : ∀ c ∈ w, p c = true)
    (hrest : Follows rest) : (w ++ rest).takeWhile p = w ∧ (w ++ rest).dropWhile p = rest := by
  rcases hrest with rfl | ⟨more, rfl⟩
  · rw [List.append_nil]
    exact ⟨List.takeWhile_eq_self_iff.2 hw, List.dropWhile_eq_nil_iff.2 hw⟩
  · exact takeWhile_append_stop hw hspace more

theorem phraseAt_eq_none (h : rest.head? ≠ some '"') : phraseAt rest = none := by
  unfold phraseAt
  split
  · exact absurd rfl h
  · rfl

theorem wordAt_follows (hne : w ≠ []) (hw : ∀ c ∈ w, isNotSpace c = true) (hrest : Follows rest) :
    wordAt (w ++ rest) = some w := by
  have htake := (takeWhile_append_follows (show isNotSpace ' ' = false by decide) hw hrest).1
  rw [wordAt, htake, if_neg hne]

theorem stripQuotes_eq_self (hhead : w.head? ≠ some '"') (hlast : w.getLast? ≠ some '"') : stripQuotes w = w := by
  rw [stripQuotes, if_neg hhead]
  exact if_neg hlast

theorem stripQuotes_quoted (v : List Char) : stripQuotes ('"' :: v ++ ['"']) = v := by
  rw [List.cons_append, stripQuotes, List.head?_cons, if_pos rfl, List.tail_cons]
  simp

theorem stripQuotes_closed (hhead : (w ++ ['"']).head? ≠ some '"') : stripQuotes (w ++ ['"']) = w := by
  rw [stripQuotes, if_neg hhead, List.getLast?_concat, if_pos rfl, List.dropLast_concat]

theorem stripQuotes_opened (hlast : v.getLast? ≠ some '"') : stripQuotes ('"' :: v) = v := by
  rw [stripQuotes, List.head?_cons, if_pos rfl, List.tail_cons]
  exact if_neg hlast

theorem ne_quote_of_mem {o : Option Char} (hv : ∀ c ∈ v, isNotQuote c = true) (ho : ∀ c ∈ o, c ∈ v) :
    o ≠ some '"' := by
  rintro rfl
  exact absurd (hv '"' (ho '"' rfl)) (by decide)

theorem isDot_of_isNotSpace {c : Char} (h : isNotSpace c = true) : isDot c = true := by
  by_contra hdot
  have hc : c = '\n' ∨ c = '\r' ∨ c = '\u2028' ∨ c = '\u2029' := by
    by_contra hnone
    simp only [not_or] at hnone
    exact hdot (by simp [isDot, hnone])
  rcases hc with rfl | rfl | rfl | rfl <;> exact absurd h (by decide)

/-- After the comparator the rest of the value is one run. -/
theorem head?_run_value (c : Cursor Char) (hne : c.rest ≠ []) (hspace : ∀ a ∈ c.rest, isNotSpace a = true) :
    (run (Regex.sequence [.many true (.letter isTrimmed), .group 2 (plus (.letter isDot)), .lineEnd]) c).head? =
      some { c.past c.rest [] with groups := (2, c.rest) :: c.groups } := by
  have hdots : c.rest.takeWhile isDot = c.rest :=
    List.takeWhile_eq_self_iff.2 fun a ha => isDot_of_isNotSpace (hspace a ha)
  have hdrop : c.rest.dropWhile isDot = [] :=
    List.dropWhile_eq_nil_iff.2 fun a ha => isDot_of_isNotSpace (hspace a ha)
  have hblank : run (.many true (.letter isTrimmed)) c = [c] := by
    obtain ⟨before, rest, groups⟩ := c
    obtain ⟨a, rest, rfl⟩ := List.exists_cons_of_ne_nil hne
    have ha := hspace a (by simp)
    simp only [isNotSpace, Bool.not_eq_true'] at ha
    simp [run, repeats, ha]
  have hrun := head?_run_letters isDot c
  rw [hdots, hdrop, if_neg hne] at hrun
  have hconsumed : c.consumed (c.past c.rest []) = c.rest := Cursor.consumed_past (by simp)
  rw [sequence_cons, run, hblank, List.flatMap_singleton, sequence_cons, run]
  apply head?_flatMap
  · rw [run, List.head?_map, hrun, Option.map_some, hconsumed]
  · simp [Regex.sequence, run, Cursor.past]

theorem parseComparator_print (comparator : SearchComparator) (hne : v ≠ []) (hspace : ∀ c ∈ v, isNotSpace c = true)
    (hfirst : ∀ c ∈ v.head?, c ≠ '<' ∧ c ≠ '>' ∧ c ≠ '=') (htrim : trimLine v = v) :
    parseComparator (comparator.print ++ v) = (some comparator, v) := by
  have hsearch : search comparatorPattern (comparator.print ++ v) =
      some { index := 0, text := comparator.print ++ v, groups := [(2, v), (1, comparator.print)] } := by
    rw [comparatorPattern, sequence_cons, search_lineStart, sequence_cons, matchAt, run]
    obtain ⟨a, v', rfl⟩ := List.exists_cons_of_ne_nil hne
    obtain ⟨hless, hgreater, hequal⟩ := hfirst a rfl
    have hvalue := head?_run_value
      { before := comparator.print.getLast?, rest := a :: v', groups := [(1, comparator.print)] } hne hspace
    have hgroup : (run (.group 1 (oneOf [word ['<', '='], word ['>', '='], .letter (· == '<'), .letter (· == '>'),
        .letter (· == '=')])) { before := none, rest := comparator.print ++ a :: v' }).head? =
        some { before := comparator.print.getLast?, rest := a :: v', groups := [(1, comparator.print)] } := by
      cases comparator <;>
        simp [run, oneOf, word, SearchComparator.print, hequal, Cursor.consumed]
    rw [head?_flatMap hgroup hvalue]
    simp [Cursor.consumed, Cursor.past]
  have hread : readComparator comparator.print = some comparator := by
    cases comparator <;> rfl
  rw [parseComparator, hsearch]
  simp [Found.group?, List.lookup, hread, htrim]

theorem parseComparator_quoted (htrim : trimLine ('"' :: v) = '"' :: v) :
    parseComparator ('"' :: v) = (none, '"' :: v) := by
  have hsearch : search comparatorPattern ('"' :: v) = none := by
    rw [comparatorPattern, sequence_cons, search_lineStart]
    simp [matchAt, Regex.sequence, run, oneOf, word]
  rw [parseComparator, hsearch]
  exact congrArg _ htrim

/-! ### Reading a term with a field -/

variable [Runtime] {t : SearchTerm}

omit [Runtime] in
theorem print_eq_field {field : String} (hfield : t.field = some field) :
    t.print = t.printDash ++ field.toList ++ ':' :: t.printValue := by
  simp [SearchTerm.print, SearchTerm.printField, hfield]

omit [Runtime] in
theorem printDash_letters : ∀ c ∈ t.printDash, isFieldLetter c = true := by
  intro c hc
  unfold SearchTerm.printDash at hc
  split_ifs at hc
  · rw [List.mem_singleton.1 hc]
    decide
  · cases hc

theorem print_comparator_spaceless {comparator : SearchComparator} (ht : Printable t)
    (hcomparator : t.comparator = some comparator) : ∀ c ∈ t.print, isNotSpace c = true := by
  obtain ⟨hsome, hspace, -⟩ := ht.comparator (by simp [hcomparator])
  obtain ⟨field, hfield⟩ := Option.isSome_iff_exists.1 hsome
  intro c hc
  rw [print_eq_field hfield, SearchTerm.printValue, hcomparator] at hc
  simp only [List.mem_append, List.mem_cons] at hc
  have hletter : ∀ {c}, isFieldLetter c = true → isNotSpace c = true := by
    intro c hc
    simp only [isFieldLetter, Bool.and_eq_true] at hc
    exact hc.2
  rcases hc with (hc | hc) | rfl | hc | hc
  · exact hletter (printDash_letters c hc)
  · exact hletter ((ht.field field hfield).2.2.1 c hc).1
  · decide
  · cases comparator <;> simp [SearchComparator.print] at hc <;> rcases hc with rfl | rfl <;> decide
  · exact hspace c hc

theorem dash_field_ne_nil {field : String} (ht : Printable t) (hfield : t.field = some field) :
    t.printDash ++ field.toList ≠ [] := by
  have hne := (ht.field field hfield).1
  simp [hne]

theorem dash_field_letters {field : String} (ht : Printable t) (hfield : t.field = some field) :
    ∀ c ∈ t.printDash ++ field.toList, isFieldLetter c = true := by
  intro c hc
  rcases List.mem_append.1 hc with hc | hc
  · exact printDash_letters c hc
  · exact ((ht.field field hfield).2.2.1 c hc).1

/-- A term with a field is one token. -/
theorem tokenAt_field {field : String} (ht : Printable t) (hfield : t.field = some field) (hrest : Follows rest) :
    tokenAt (t.print ++ rest) = some t.print := by
  have hsplit : t.print ++ rest = t.printDash ++ field.toList ++ ':' :: (t.printValue ++ rest) := by
    rw [print_eq_field hfield]
    simp
  cases hcomparator : t.comparator with
  | none =>
    have hvalue : t.printValue = '"' :: t.value.toList ++ ['"'] := by rw [SearchTerm.printValue, hcomparator]
    have hphrase : phraseAt (t.printValue ++ rest) = some t.printValue := by
      have hne : t.value.toList ≠ [] := by simpa using ht.value.1
      rw [hvalue, List.append_assoc]
      exact phraseAt_quoted hne ht.value.2.2
    have hfound : fieldPhraseAt (t.print ++ rest) = some t.print :=
      fieldPhraseAt_eq_some.2 ⟨_, _, _, dash_field_ne_nil ht hfield, dash_field_letters ht hfield, hphrase,
        print_eq_field hfield, hsplit⟩
    rw [tokenAt, hfound, Option.some_or]
  | some comparator =>
    have hvalue : t.printValue = comparator.print ++ t.value.toList := by rw [SearchTerm.printValue, hcomparator]
    have hnone : fieldPhraseAt (t.print ++ rest) = none := by
      obtain ⟨htake, hdrop⟩ := takeWhile_append_stop (dash_field_letters ht hfield)
        (show isFieldLetter ':' = false by decide) (t.printValue ++ rest)
      have hphrase : phraseAt (t.printValue ++ rest) = none := by
        apply phraseAt_eq_none
        rw [hvalue]
        cases comparator <;> simp [SearchComparator.print]
      rw [hsplit, fieldPhraseAt, htake, hdrop, if_neg (dash_field_ne_nil ht hfield)]
      simp [hphrase]
    have hnone' : phraseAt (t.print ++ rest) = none := by
      apply phraseAt_eq_none
      obtain ⟨c, more, hstart⟩ := List.exists_cons_of_ne_nil (dash_field_ne_nil ht hfield)
      have hc : c ≠ '"' := by
        unfold SearchTerm.printDash at hstart
        split_ifs at hstart
        · obtain ⟨rfl, -⟩ := List.cons.inj hstart
          decide
        · have hmem : c ∈ field.toList := by
            rw [List.nil_append] at hstart
            simp [hstart]
          rintro rfl
          exact absurd ((ht.field field hfield).2.2.1 _ hmem).2 (by decide)
      rw [hsplit, hstart]
      simpa using hc
    have hne : t.print ≠ [] := by
      rw [print_eq_field hfield]
      simp
    rw [tokenAt, hnone, hnone', Option.none_or, Option.none_or]
    exact wordAt_follows hne (print_comparator_spaceless ht hcomparator) hrest

omit [Runtime] in
/-- What is left of a printed term when its dash is taken off. -/
theorem undashed (hstart : (t.printField ++ t.printValue).head? ≠ some '-') :
    (t.print.head? == some '-') = t.negated ∧
      (if t.negated = true then t.print.tail else t.print) = t.printField ++ t.printValue := by
  unfold SearchTerm.print SearchTerm.printDash
  cases t.negated with
  | true => simp
  | false =>
    rw [if_neg (by simp), List.nil_append]
    exact ⟨by simpa using hstart, by simp⟩

theorem parseTerm_field {field : String} (ht : Printable t) (hfield : t.field = some field) :
    parseTerm t.print = t := by
  obtain ⟨hne, hlower, hletters, hdash⟩ := ht.field field hfield
  obtain ⟨hvalueNe, hvalueTrim, hvalueQuote⟩ := ht.value
  have hvalueNil : t.value.toList ≠ [] := by simpa using hvalueNe
  obtain ⟨first, more, hfirst⟩ := List.exists_cons_of_ne_nil (l := field.toList) (by simpa using hne)
  have hprinted : t.printField = field.toList ++ [':'] := by simp [SearchTerm.printField, hfield]
  have hcolon : ':' ∉ field.toList := by
    intro hmem
    exact absurd (hletters _ hmem).1 (by decide)
  have hquote : first ≠ '"' := by
    rintro rfl
    exact absurd (hletters '"' (by simp [hfirst])).2 (by decide)
  have hvalueSelf : stripQuotes t.value.toList = t.value.toList :=
    stripQuotes_eq_self (ne_quote_of_mem hvalueQuote fun c hc => List.mem_of_mem_head? hc)
      (ne_quote_of_mem hvalueQuote fun c hc => List.mem_of_getLast? hc)
  obtain ⟨hnegated, hundashed⟩ := undashed (t := t) (by
    rw [hprinted, hfirst]
    rw [hfirst] at hdash
    simpa using hdash)
  -- the closing quote is taken off, the opening one is left to the value
  have hopen : ∃ quoted, stripQuotes (t.printField ++ t.printValue) = field.toList ++ ':' :: quoted ∧
      (parseComparator quoted).1 = t.comparator ∧ stripQuotes (parseComparator quoted).2 = t.value.toList := by
    cases hcomparator : t.comparator with
    | none =>
      refine ⟨'"' :: t.value.toList, ?_, ?_⟩
      · have hsplit : t.printField ++ t.printValue = (field.toList ++ ':' :: '"' :: t.value.toList) ++ ['"'] := by
          rw [hprinted, SearchTerm.printValue, hcomparator]
          simp
        rw [hsplit]
        apply stripQuotes_closed
        rw [hfirst]
        simpa using hquote
      · have htrim : trimLine ('"' :: t.value.toList) = '"' :: t.value.toList := by
          rw [trimLine_eq_self_iff] at hvalueTrim ⊢
          have hlast := hvalueTrim.2
          refine ⟨by simp; decide, ?_⟩
          obtain ⟨front, last, hconcat⟩ := (List.eq_nil_or_concat' t.value.toList).resolve_left hvalueNil
          rw [hconcat] at hlast ⊢
          rw [← List.cons_append, List.getLast?_concat]
          simpa using hlast
        rw [parseComparator_quoted htrim]
        exact ⟨rfl, stripQuotes_opened (ne_quote_of_mem hvalueQuote fun c hc => List.mem_of_getLast? hc)⟩
    | some comparator =>
      obtain ⟨-, hspace, hstart⟩ := ht.comparator (by simp [hcomparator])
      refine ⟨comparator.print ++ t.value.toList, ?_, ?_⟩
      · rw [hprinted, SearchTerm.printValue, hcomparator]
        have hlast : t.value.toList.getLast? ≠ some '"' :=
          ne_quote_of_mem hvalueQuote fun c hc => List.mem_of_getLast? hc
        have happend : (field.toList ++ [':'] ++ (comparator.print ++ t.value.toList)).getLast? =
            t.value.toList.getLast? := by
          obtain ⟨front, last, hconcat⟩ := (List.eq_nil_or_concat' t.value.toList).resolve_left hvalueNil
          rw [hconcat, ← List.append_assoc, ← List.append_assoc, List.getLast?_concat, List.getLast?_concat]
        dsimp only
        rw [stripQuotes_eq_self]
        · simp
        · rw [hfirst]
          simpa using hquote
        · rw [happend]
          exact hlast
      · rw [parseComparator_print comparator hvalueNil hspace hstart hvalueTrim]
        exact ⟨rfl, hvalueSelf⟩
  obtain ⟨quoted, hstrip, hcomparator, hvalue⟩ := hopen
  have hindex : (field.toList ++ ':' :: quoted).idxOf ':' = field.toList.length := by
    rw [List.idxOf_append_of_notMem hcolon]
    simp
  have hpositive : 0 < field.toList.length := by simp [hfirst]
  unfold parseTerm
  simp only [hnegated, hundashed, hstrip, hindex]
  rw [if_pos ⟨by simp, hpositive⟩]
  have htake : (field.toList ++ ':' :: quoted).take field.toList.length = field.toList := List.take_left
  have hdrop : (field.toList ++ ':' :: quoted).drop (field.toList.length + 1) = quoted := by
    rw [List.drop_append]
    simp
  rw [htake, hdrop]
  cases t
  dsimp only at *
  subst hfield
  simp [hcomparator, hvalue, hlower]

/-! ### Reading a term without a field -/

omit [Runtime] in
theorem print_eq_quoted (hfield : t.field = none) (hcomparator : t.comparator = none) :
    t.print = t.printDash ++ '"' :: t.value.toList ++ ['"'] := by
  simp [SearchTerm.print, SearchTerm.printField, SearchTerm.printValue, hfield, hcomparator]

theorem comparator_none (ht : Printable t) (hfield : t.field = none) : t.comparator = none := by
  cases hcomparator : t.comparator with
  | none => rfl
  | some comparator =>
    have hsome := (ht.comparator (by simp [hcomparator])).1
    simp [hfield] at hsome

/-- A phrase ends up as the value of a field only if it ends with a colon and another quote follows. -/
theorem fieldPhraseAt_quoted (hfield : t.field = none) (ht : Printable t) (hrest : Follows rest) :
    (fieldPhraseAt (t.print ++ rest) = none ∧ ¬(t.value = ":" ∧ '"' ∈ rest)) ∨
      ∃ u x, (∀ c ∈ u, isFieldLetter c = true) ∧ t.value.toList = u ++ [':'] ∧ '"' ∈ rest ∧
        fieldPhraseAt (t.print ++ rest) = some (t.printDash ++ '"' :: (u ++ ':' :: '"' :: x ++ ['"'])) := by
  have hcomparator := comparator_none ht hfield
  have hquote := ht.value.2.2
  have hopening : ∀ c ∈ t.printDash ++ ['"'], isFieldLetter c = true := by
    intro c hc
    rcases List.mem_append.1 hc with hc | hc
    · exact printDash_letters c hc
    · rw [List.mem_singleton.1 hc]
      decide
  have hprint : t.print ++ rest = t.printDash ++ ['"'] ++ (t.value.toList ++ '"' :: rest) := by
    rw [print_eq_quoted hfield hcomparator]
    simp
  have hsplit := List.takeWhile_append_dropWhile (p := isFieldLetter) (l := t.value.toList)
  have hletters : ∀ c ∈ t.printDash ++ ['"'] ++ t.value.toList.takeWhile isFieldLetter, isFieldLetter c = true := by
    intro c hc
    rcases List.mem_append.1 hc with hc | hc
    · exact hopening c hc
    · exact List.mem_takeWhile_imp hc
  have hne : t.printDash ++ ['"'] ++ t.value.toList.takeWhile isFieldLetter ≠ [] := by simp
  cases hdrop : t.value.toList.dropWhile isFieldLetter with
  | nil =>
    -- the value is all letters of a field, and the closing quote is one more
    left
    rw [hdrop, List.append_nil] at hsplit
    have hall : ∀ c ∈ t.print, isFieldLetter c = true := by
      intro c hc
      rw [print_eq_quoted hfield hcomparator, ← hsplit] at hc
      simp only [List.mem_append, List.mem_cons, List.not_mem_nil, or_false] at hc
      rcases hc with (hc | rfl | hc) | rfl
      · exact printDash_letters c hc
      · decide
      · exact List.mem_takeWhile_imp hc
      · decide
    obtain ⟨htake, hafter⟩ := takeWhile_append_follows (show isFieldLetter ' ' = false by decide) hall hrest
    refine ⟨?_, ?_⟩
    · rw [fieldPhraseAt, htake, hafter]
      rcases hrest with rfl | ⟨more, rfl⟩ <;> simp
    · rintro ⟨hvalue, -⟩
      have hcolon := hall ':' (by rw [print_eq_quoted hfield hcomparator, hvalue]; simp)
      exact absurd hcolon (by decide)
  | cons stop more =>
    have hstop : isFieldLetter stop = false := by
      have hnot := List.head_dropWhile_not isFieldLetter (l := t.value.toList) (by simp [hdrop])
      simpa [hdrop] using hnot
    have hline : t.print ++ rest =
        t.printDash ++ ['"'] ++ t.value.toList.takeWhile isFieldLetter ++ stop :: (more ++ '"' :: rest) := by
      conv_lhs => rw [hprint, ← hsplit, hdrop]
      simp
    obtain ⟨htake, hafter⟩ := takeWhile_append_stop hletters hstop (more ++ '"' :: rest)
    rw [hline, fieldPhraseAt, htake, hafter, if_neg hne]
    by_cases hcolon : stop = ':'
    · subst hcolon
      cases more with
      | cons a more =>
        left
        have ha : isNotQuote a = true := hquote a (by rw [← hsplit, hdrop]; simp)
        have hphrase : phraseAt (a :: more ++ '"' :: rest) = none := by
          apply phraseAt_eq_none
          simpa [isNotQuote] using ha
        refine ⟨Option.map_eq_none_iff.2 hphrase, ?_⟩
        rintro ⟨hvalue, -⟩
        have hlength := congrArg List.length hsplit
        rw [hdrop, hvalue] at hlength
        simp at hlength
        omega
      | nil =>
        rw [hdrop] at hsplit
        by_cases hlater : '"' ∈ rest
        · right
          refine ⟨_, rest.takeWhile isNotQuote, fun c hc => List.mem_takeWhile_imp hc, hsplit.symm, hlater, ?_⟩
          have htail : rest.takeWhile isNotQuote ≠ [] ∧ rest.dropWhile isNotQuote ≠ [] := by
            constructor
            · rcases hrest with rfl | ⟨more, rfl⟩
              · cases hlater
              · have hblank : isNotQuote ' ' = true := by decide
                simp [hblank]
            · intro hnil
              exact absurd (List.dropWhile_eq_nil_iff.mp hnil '"' hlater) (by decide)
          have hphrase := phraseAt_cons rest
          rw [if_neg (by simp [htail.1, htail.2])] at hphrase
          exact (congrArg (Option.map _) hphrase).trans (by simp)
        · left
          have hdropRest : rest.dropWhile isNotQuote = [] := by
            rw [List.dropWhile_eq_nil_iff]
            intro c hc
            by_contra hquoteC
            have hcq : c = '"' := by simpa [isNotQuote] using hquoteC
            exact hlater (hcq ▸ hc)
          refine ⟨?_, fun h => hlater h.2⟩
          have hphrase := phraseAt_cons rest
          rw [if_pos (.inr hdropRest)] at hphrase
          exact Option.map_eq_none_iff.2 hphrase
    · left
      refine ⟨?_, ?_⟩
      · split
        · rename_i heq
          exact absurd (List.cons.inj heq).1 hcolon
        · rfl
      · rintro ⟨hvalue, -⟩
        have hmem : stop ∈ t.value.toList := by rw [← hsplit, hdrop]; simp
        rw [hvalue] at hmem
        exact hcolon (by simpa using hmem)

/-- A term without a field is read as it is from a token that begins with its dash and a quote exactly if what is
between the quotes is its value and does not look like a field. -/
theorem parseTerm_quoted (inner : List Char) (ht : Printable t) (hfield : t.field = none) :
    parseTerm (t.printDash ++ '"' :: inner) = t ↔ stripQuotes ('"' :: inner) = t.value.toList ∧
      (':' ∈ t.value.toList → t.value.toList.head? = some ':') := by
  have hcomparator := comparator_none ht hfield
  have hnegated : ((t.printDash ++ '"' :: inner).head? == some '-') = t.negated ∧
      (if t.negated = true then (t.printDash ++ '"' :: inner).tail else t.printDash ++ '"' :: inner) =
        '"' :: inner := by
    unfold SearchTerm.printDash
    cases t.negated <;> simp
  have hindex : ∀ s : List Char, (':' ∈ s ∧ 0 < s.idxOf ':') ↔ ¬(':' ∈ s → s.head? = some ':') := by
    intro s
    cases s with
    | nil => simp
    | cons a s =>
      by_cases ha : a = ':'
      · simp [ha]
      · have ha' : ':' ≠ a := fun h => ha h.symm
        simp [ha, ha']
  unfold parseTerm
  simp only [hnegated.1, hnegated.2]
  generalize stripQuotes ('"' :: inner) = s
  split_ifs with hcolon
  · rw [hindex] at hcolon
    constructor
    · intro h
      have hsome := congrArg SearchTerm.field h
      rw [hfield] at hsome
      cases hsome
    · rintro ⟨rfl, hhead⟩
      exact absurd hhead hcolon
  · rw [hindex, not_not] at hcolon
    obtain ⟨field, comparator, value, negated⟩ := t
    dsimp only at hfield hcomparator ⊢
    subst hfield hcomparator
    simp only [SearchTerm.mk.injEq, true_and, and_true]
    constructor
    · rintro rfl
      exact ⟨String.toList_ofList.symm, by simpa using hcolon⟩
    · rintro ⟨rfl, -⟩
      exact String.ofList_toList

/-- A term without a field yields a token with a quote in it, which is read as the term exactly where it reads back. -/
theorem token_of_phrase (ht : Printable t) (hfield : t.field = none) (hrest : Follows rest)
    {later : List SearchTerm} (hlater : '"' ∈ rest ↔ ∃ u ∈ later, u.comparator = none) :
    ∃ w, tokenAt (t.print ++ rest) = some w ∧ '"' ∈ w ∧
      (TermReadsBack t later → w = t.print ∧ parseTerm w = t) ∧ (¬TermReadsBack t later → parseTerm w ≠ t) := by
  have hcomparator := comparator_none ht hfield
  have hprint := print_eq_quoted hfield hcomparator
  have hquote := ht.value.2.2
  have hvalueNe : t.value.toList ≠ [] := by simpa using ht.value.1
  have hcolonValue : t.value = ":" ↔ t.value.toList = [':'] := by
    rw [← String.toList_inj]
    rfl
  have hlone : (t.value = ":" → ∀ u ∈ later, u.comparator.isSome = true) ↔ ¬(t.value = ":" ∧ '"' ∈ rest) := by
    rw [hlater, not_and]
    simp [Option.isSome_iff_ne_none]
  -- a term that is one token reads back unless it looks like a field
  have hwhole : (t.negated = true → ∀ c ∈ t.value.toList, isNotSpace c = true) → ¬(t.value = ":" ∧ '"' ∈ rest) →
      (parseTerm t.print = t ↔ TermReadsBack t later) := by
    intro hspace hcolon
    have hsplit : t.print = t.printDash ++ '"' :: (t.value.toList ++ ['"']) := by
      rw [hprint]
      simp
    rw [hsplit, parseTerm_quoted _ ht hfield, ← List.cons_append, stripQuotes_quoted]
    constructor
    · rintro ⟨-, hhead⟩ -
      exact ⟨hhead, hspace, hlone.2 hcolon⟩
    · intro hreads
      exact ⟨rfl, (hreads hfield).1⟩
  rcases fieldPhraseAt_quoted hfield ht hrest with ⟨hnone, hcolon⟩ | ⟨u, x, hu, hvalue, hquoteRest, hsome⟩
  · cases hnegated : t.negated with
    | false =>
      have hdash : t.printDash = [] := by simp [SearchTerm.printDash, hnegated]
      have hphrase : phraseAt (t.print ++ rest) = some t.print := by
        rw [hprint, hdash, List.nil_append, List.append_assoc]
        exact phraseAt_quoted hvalueNe hquote
      have hiff := hwhole (by simp [hnegated]) hcolon
      refine ⟨t.print, by rw [tokenAt, hnone, hphrase]; rfl, by rw [hprint]; simp, ?_, ?_⟩
      · exact fun hreads => ⟨rfl, hiff.2 hreads⟩
      · exact fun hreads h => hreads (hiff.1 h)
    | true =>
      have hdash : t.printDash = ['-'] := by simp [SearchTerm.printDash, hnegated]
      have hphrase : phraseAt (t.print ++ rest) = none := by
        apply phraseAt_eq_none
        rw [hprint, hdash]
        simp
      by_cases hspace : ∀ c ∈ t.value.toList, isNotSpace c = true
      · have hprintSpace : ∀ c ∈ t.print, isNotSpace c = true := by
          intro c hc
          rw [hprint, hdash] at hc
          simp only [List.mem_append, List.mem_cons, List.not_mem_nil, or_false] at hc
          rcases hc with (rfl | rfl | hc) | rfl
          · decide
          · decide
          · exact hspace c hc
          · decide
        have hword := wordAt_follows (by rw [hprint]; simp) hprintSpace hrest
        have hiff := hwhole (fun _ => hspace) hcolon
        refine ⟨t.print, by rw [tokenAt, hnone, hphrase, hword]; rfl, by rw [hprint]; simp, ?_, ?_⟩
        · exact fun hreads => ⟨rfl, hiff.2 hreads⟩
        · exact fun hreads h => hreads (hiff.1 h)
      · -- the token ends at the first blank of the phrase
        have hbad : ¬TermReadsBack t later := fun hreads => hspace ((hreads hfield).2.1 hnegated)
        have hsplit := List.takeWhile_append_dropWhile (p := isNotSpace) (l := t.value.toList)
        have hrestNe : t.value.toList.dropWhile isNotSpace ≠ [] := fun hnil => hspace (List.dropWhile_eq_nil_iff.1 hnil)
        obtain ⟨stop, more, hdrop⟩ := List.exists_cons_of_ne_nil hrestNe
        have hstop : isNotSpace stop = false := by
          have hnot := List.head_dropWhile_not isNotSpace hrestNe
          simpa [hdrop] using hnot
        have hletters : ∀ c ∈ '-' :: '"' :: t.value.toList.takeWhile isNotSpace, isNotSpace c = true := by
          intro c hc
          simp only [List.mem_cons] at hc
          rcases hc with rfl | rfl | hc
          · decide
          · decide
          · exact List.mem_takeWhile_imp hc
        have hline : t.print ++ rest =
            '-' :: '"' :: t.value.toList.takeWhile isNotSpace ++ stop :: (more ++ '"' :: rest) := by
          conv_lhs => rw [hprint, hdash, ← hsplit, hdrop]
          simp
        have htake := (takeWhile_append_stop hletters hstop (more ++ '"' :: rest)).1
        refine ⟨'-' :: '"' :: t.value.toList.takeWhile isNotSpace, ?_, by simp, fun hreads => absurd hreads hbad, ?_⟩
        · rw [tokenAt, hnone, hphrase, Option.none_or, Option.none_or, hline, wordAt, htake]
          rfl
        · intro _ hparse
          have hread := (parseTerm_quoted (t.value.toList.takeWhile isNotSpace) ht hfield).1
            (by rw [hdash]; exact hparse)
          have hlast : (t.value.toList.takeWhile isNotSpace).getLast? ≠ some '"' :=
            ne_quote_of_mem hquote fun c hc => (List.takeWhile_prefix _).mem (List.mem_of_getLast? hc)
          rw [stripQuotes_opened hlast] at hread
          have hlength := congrArg List.length hsplit
          rw [hread.1, hdrop] at hlength
          simp at hlength
  · -- the phrase has taken what follows it for its value
    have hbad : ¬TermReadsBack t later := by
      intro hreads
      have hhead := (hreads hfield).1 (by rw [hvalue]; simp)
      have hnil : u = [] := by
        cases u with
        | nil => rfl
        | cons a u =>
          rw [hvalue] at hhead
          have ha := hu a (by simp)
          rw [Option.some.inj hhead] at ha
          exact absurd ha (by decide)
      have hcolon : t.value = ":" := hcolonValue.mpr (by rw [hvalue, hnil]; rfl)
      exact hlone.1 (hreads hfield).2.2 ⟨hcolon, hquoteRest⟩
    refine ⟨_, by rw [tokenAt, hsome]; rfl, by simp, fun hreads => absurd hreads hbad, ?_⟩
    intro _ hparse
    have hread := ((parseTerm_quoted _ ht hfield).1 hparse).1
    have hstrip := stripQuotes_quoted (u ++ ':' :: '"' :: x)
    rw [List.cons_append] at hstrip
    rw [hstrip, hvalue] at hread
    have hlength := congrArg List.length hread
    simp at hlength

end

/-! ### Whole texts -/

/-- Upper-casing keeps a colon and a double quote, which are no letters. -/
structure UpperCases [Runtime] : Prop where
  or : Runtime.toUpperCase "OR" = "OR"
  colon : ∀ s : String, ':' ∈ s.toList → ':' ∈ (Runtime.toUpperCase s).toList
  quote : ∀ s : String, '"' ∈ s.toList → '"' ∈ (Runtime.toUpperCase s).toList

section
variable [Runtime] {t : SearchTerm} {words : List (Option SearchTerm)} {w : List Char}

theorem isOr_or (hupper : UpperCases) : isOr ['O', 'R'] = true := by
  have hor : Runtime.toUpperCase (String.ofList ['O', 'R']) = "OR" := hupper.or
  simp [isOr, hor]

theorem isOr_of_mark (hupper : UpperCases) (h : ':' ∈ w ∨ '"' ∈ w) : isOr w = false := by
  have hword : Runtime.toUpperCase (String.ofList w) ≠ "OR" := by
    intro heq
    have hmark : ':' ∈ (Runtime.toUpperCase (String.ofList w)).toList ∨
        '"' ∈ (Runtime.toUpperCase (String.ofList w)).toList :=
      h.imp (fun h => hupper.colon _ (by simpa using h)) fun h => hupper.quote _ (by simpa using h)
    rw [heq] at hmark
    exact absurd hmark (by decide)
  have hbar : w ≠ ['|'] ∧ w ≠ ['|', '|'] := by
    constructor
    · rintro rfl
      exact absurd h (by decide)
    · rintro rfl
      exact absurd h (by decide)
  simp [isOr, hword, hbar.1, hbar.2]

omit [Runtime] in
theorem mark_mem_print (t : SearchTerm) : (t.field.isSome → ':' ∈ t.print) ∧
    (t.comparator = none → '"' ∈ t.print) := by
  constructor
  · intro hfield
    obtain ⟨field, hfield⟩ := Option.isSome_iff_exists.1 hfield
    rw [print_eq_field hfield]
    simp
  · intro hcomparator
    simp [SearchTerm.print, SearchTerm.printValue, hcomparator]

theorem isOr_print (hupper : UpperCases) (ht : Printable t) : isOr t.print = false := by
  apply isOr_of_mark hupper
  cases hfield : t.field with
  | some field => exact .inl ((mark_mem_print t).1 (by simp [hfield]))
  | none => exact .inr ((mark_mem_print t).2 (comparator_none ht hfield))

theorem quote_mem_print (ht : Printable t) : '"' ∈ t.print ↔ t.comparator = none := by
  constructor
  · intro hmem
    by_contra hsome
    obtain ⟨comparator, hcomparator⟩ := Option.ne_none_iff_exists'.1 hsome
    obtain ⟨field, hfield⟩ := Option.isSome_iff_exists.1 (ht.comparator (by simp [hcomparator])).1
    rw [print_eq_field hfield, SearchTerm.printValue, hcomparator] at hmem
    simp only [List.mem_append, List.mem_cons] at hmem
    rcases hmem with (hmem | hmem) | hmem | hmem | hmem
    · unfold SearchTerm.printDash at hmem
      split_ifs at hmem <;> simp at hmem
    · exact absurd ((ht.field field hfield).2.2.1 _ hmem).2 (by decide)
    · cases hmem
    · cases comparator <;> simp [SearchComparator.print] at hmem
    · exact absurd (ht.value.2.2 _ hmem) (by decide)
  · exact (mark_mem_print t).2

def termsOf (words : List (Option SearchTerm)) : List SearchTerm := words.filterMap id

omit [Runtime] in
@[simp] theorem termsOf_nil : termsOf [] = [] := rfl

omit [Runtime] in
@[simp] theorem termsOf_none (words : List (Option SearchTerm)) : termsOf (none :: words) = termsOf words := rfl

omit [Runtime] in
@[simp] theorem termsOf_some (t : SearchTerm) (words : List (Option SearchTerm)) :
    termsOf (some t :: words) = t :: termsOf words := rfl

/-- What follows a printed word. -/
def printTail (words : List (Option SearchTerm)) : List Char :=
  if words = [] then [] else ' ' :: printWords words

omit [Runtime] in
theorem printWords_cons (word : Option SearchTerm) (words : List (Option SearchTerm)) :
    printWords (word :: words) = printWord word ++ printTail words := by
  cases words with
  | nil => simp [printWords, printTail]
  | cons next words => simp [printWords, printTail, List.intercalate]

omit [Runtime] in
theorem follows_printTail (words : List (Option SearchTerm)) : Follows (printTail words) := by
  unfold printTail
  split_ifs
  · exact .inl rfl
  · exact .inr ⟨_, rfl⟩

/-- Quotes stand in the text for the terms without a comparator. -/
theorem quote_mem_printTail (hwords : ∀ t ∈ termsOf words, Printable t) :
    '"' ∈ printTail words ↔ ∃ u ∈ termsOf words, u.comparator = none := by
  induction words with
  | nil => simp [printTail]
  | cons word words ih =>
    have htail : '"' ∈ printTail (word :: words) ↔ '"' ∈ printWord word ∨ '"' ∈ printTail words := by
      simp [printTail, printWords_cons]
    rw [htail]
    cases word with
    | none =>
      rw [ih fun t ht => hwords t ht]
      simp [printWord]
    | some t =>
      have ht := hwords t (by simp)
      rw [ih fun u hu => hwords u (by simp [hu])]
      simp [printWord, quote_mem_print ht]

omit [Runtime] in
theorem textsFrom_printTail (words : List (Option SearchTerm)) :
    textsFrom tokenAt 0 (printTail words) = textsFrom tokenAt 0 (printWords words) := by
  unfold printTail
  split_ifs with hnil
  · rw [hnil]
    rfl
  · apply textsFrom_cons
    have hfield : isFieldLetter ' ' = false := by decide
    have hspace : isNotSpace ' ' = false := by decide
    simp [tokenAt, fieldPhraseAt, phraseAt, wordAt, hfield, hspace]

omit [Runtime] in
/-- A printed word that is one token is read off, and the search goes on with the next. -/
theorem textsFrom_word (word : Option SearchTerm) (words : List (Option SearchTerm))
    (h : tokenAt (printWord word ++ printTail words) = some (printWord word)) :
    textsFrom tokenAt 0 (printWords (word :: words)) = printWord word :: textsFrom tokenAt 0 (printWords words) := by
  rw [printWords_cons, textsFrom_append h (ne_nil_of_tokenAt h), textsFrom_printTail]

omit [Runtime] in
theorem tokenAt_or (words : List (Option SearchTerm)) :
    tokenAt (printWord none ++ printTail words) = some (printWord none) := by
  have hrest := follows_printTail words
  have hletters : ∀ c ∈ ['O', 'R'], isFieldLetter c = true ∧ isNotSpace c = true := by
    intro c hc
    simp only [List.mem_cons, List.not_mem_nil, or_false] at hc
    rcases hc with rfl | rfl <;> decide
  obtain ⟨htake, hdrop⟩ := takeWhile_append_follows (show isFieldLetter ' ' = false by decide)
    (fun c hc => (hletters c hc).1) hrest
  have hfield : fieldPhraseAt (['O', 'R'] ++ printTail words) = none := by
    rw [fieldPhraseAt, htake, hdrop]
    rcases hrest with hnil | ⟨more, hmore⟩
    · simp [hnil]
    · simp [hmore]
  have hphrase : phraseAt (['O', 'R'] ++ printTail words) = none := phraseAt_eq_none (by simp)
  have hword := wordAt_follows (by simp) (fun c hc => (hletters c hc).2) hrest
  change tokenAt (['O', 'R'] ++ printTail words) = some ['O', 'R']
  rw [tokenAt, hfield, hphrase, hword]
  rfl

/-- The words of a text that reads back are its tokens. -/
theorem tokens_of_readBack (hwords : ∀ t ∈ termsOf words, Printable t) (hback : ReadBack (termsOf words)) :
    textsFrom tokenAt 0 (printWords words) = words.map printWord ∧
      ∀ t ∈ termsOf words, parseTerm t.print = t := by
  induction words with
  | nil => exact ⟨rfl, by simp⟩
  | cons word words ih =>
    cases word with
    | none =>
      obtain ⟨htokens, hterms⟩ := ih hwords hback
      rw [textsFrom_word none words (tokenAt_or words), htokens]
      exact ⟨rfl, hterms⟩
    | some t =>
      have hlater : ∀ u ∈ termsOf words, Printable u := fun u hu => hwords u (by simp [hu])
      have ht := hwords t (by simp)
      have hback' : TermReadsBack t (termsOf words) ∧ ReadBack (termsOf words) := hback
      obtain ⟨htokens, hterms⟩ := ih hlater hback'.2
      have hfirst : tokenAt (printWord (some t) ++ printTail words) = some (printWord (some t)) ∧
          parseTerm t.print = t := by
        cases hfield : t.field with
        | some field => exact ⟨tokenAt_field ht hfield (follows_printTail words), parseTerm_field ht hfield⟩
        | none =>
          obtain ⟨w, hw, -, hreads, -⟩ := token_of_phrase ht hfield (follows_printTail words)
            (quote_mem_printTail hlater)
          obtain ⟨rfl, hparse⟩ := hreads hback'.1
          exact ⟨hw, hparse⟩
      rw [textsFrom_word _ words hfirst.1, htokens]
      refine ⟨rfl, ?_⟩
      intro u hu
      rw [termsOf_some, List.mem_cons] at hu
      rcases hu with rfl | hu
      · exact hfirst.2
      · exact hterms u hu

/-- If the tokens are read as the terms, the terms read back. -/
theorem readBack_of_tokens (hupper : UpperCases) (hwords : ∀ t ∈ termsOf words, Printable t)
    (h : ((textsFrom tokenAt 0 (printWords words)).filter fun w => !isOr w).map parseTerm = termsOf words) :
    ReadBack (termsOf words) := by
  induction words with
  | nil => exact trivial
  | cons word words ih =>
    cases word with
    | none =>
      rw [textsFrom_word none words (tokenAt_or words),
        List.filter_cons_of_neg (by simp [printWord, isOr_or hupper])] at h
      exact ih hwords h
    | some t =>
      have hlater : ∀ u ∈ termsOf words, Printable u := fun u hu => hwords u (by simp [hu])
      have ht := hwords t (by simp)
      rw [termsOf_some] at h ⊢
      cases hfield : t.field with
      | some field =>
        rw [textsFrom_word (some t) words (tokenAt_field ht hfield (follows_printTail words)),
          List.filter_cons_of_pos (by simp [printWord, isOr_print hupper ht]), List.map_cons] at h
        refine ⟨fun hnone => ?_, ih hlater (List.cons.inj h).2⟩
        rw [hfield] at hnone
        cases hnone
      | none =>
        obtain ⟨w, hw, hquote, hreads, hfails⟩ := token_of_phrase ht hfield (follows_printTail words)
          (quote_mem_printTail hlater)
        by_cases hback : TermReadsBack t (termsOf words)
        · obtain ⟨rfl, -⟩ := hreads hback
          rw [textsFrom_word (some t) words hw, List.filter_cons_of_pos (by simp [printWord, isOr_print hupper ht]),
            List.map_cons] at h
          exact ⟨hback, ih hlater (List.cons.inj h).2⟩
        · have hne : t.print ++ printTail words ≠ [] := by
            have hmem := (mark_mem_print t).2 (comparator_none ht hfield)
            exact List.append_ne_nil_of_left_ne_nil (List.ne_nil_of_mem hmem) _
          obtain ⟨more, hmore⟩ := textsFrom_head hw hne
          rw [printWords_cons] at h
          change ((textsFrom tokenAt 0 (t.print ++ printTail words)).filter _).map _ = _ at h
          rw [hmore, List.filter_cons_of_pos (by simp [isOr_of_mark hupper (.inr hquote)]), List.map_cons] at h
          exact absurd (List.cons.inj h).1 (hfails hback)

/-! ### Queries -/

omit [Runtime] in
theorem termsOf_append (words others : List (Option SearchTerm)) :
    termsOf (words ++ others) = termsOf words ++ termsOf others := by
  rw [termsOf, termsOf, termsOf, List.filterMap_append]

omit [Runtime] in
theorem termsOf_map_some (terms : List SearchTerm) : termsOf (terms.map some) = terms := by
  rw [termsOf, List.filterMap_map]
  exact List.filterMap_some

omit [Runtime] in
theorem queryWords_cons (clause next : SearchClause) (clauses : List SearchClause) :
    queryWords { clauses := clause :: next :: clauses } =
      clause.terms.map some ++ none :: queryWords { clauses := next :: clauses } := by
  simp [queryWords, List.intercalate]

omit [Runtime] in
theorem queryWords_single (clause : SearchClause) :
    queryWords { clauses := [clause] } = clause.terms.map some := by
  simp [queryWords, List.intercalate]

omit [Runtime] in
theorem termsOf_queryWords (clauses : List SearchClause) :
    termsOf (queryWords { clauses }) = clauses.flatMap (·.terms) := by
  induction clauses with
  | nil => rfl
  | cons clause clauses ih =>
    cases clauses with
    | nil => rw [queryWords_single, termsOf_map_some, List.flatMap_singleton]
    | cons next clauses =>
      rw [queryWords_cons, termsOf_append, termsOf_map_some, termsOf_none, ih, List.flatMap_cons (x := clause)]

/-- The terms of one clause are read into the clause that is being read. -/
theorem readToken_terms (hupper : UpperCases) {terms : List SearchTerm}
    (hterms : ∀ t ∈ terms, Printable t ∧ parseTerm t.print = t) (state : ParseState) :
    ((terms.map some).map printWord).foldl readToken state =
      { state with currentTerms := state.currentTerms ++ terms } := by
  induction terms generalizing state with
  | nil => simp
  | cons t terms ih =>
    obtain ⟨ht, hparse⟩ := hterms t (by simp)
    have hstep : readToken state t.print = { state with currentTerms := state.currentTerms ++ [t] } := by
      rw [readToken, isOr_print hupper ht, hparse]
      rfl
    change ((terms.map some).map printWord).foldl readToken (readToken state t.print) = _
    rw [hstep, ih fun u hu => hterms u (by simp [hu])]
    simp

theorem readToken_or (hupper : UpperCases) (state : ParseState) :
    readToken state (printWord none) = pushClause state := by
  rw [readToken]
  exact if_pos (isOr_or hupper)

/-- The words of a query whose terms are read as they were give its clauses. -/
theorem readToken_queryWords (hupper : UpperCases) (clauses : List SearchClause)
    (hclauses : ∀ clause ∈ clauses, clause.terms ≠ [] ∧ ∀ t ∈ clause.terms, Printable t ∧ parseTerm t.print = t)
    (done : List SearchClause) :
    (pushClause (((queryWords { clauses }).map printWord).foldl readToken { clauses := done })).clauses =
      done ++ clauses := by
  have hread : ∀ clause ∈ clauses, ∀ done : List SearchClause,
      pushClause (((clause.terms.map some).map printWord).foldl readToken { clauses := done }) =
        { clauses := done ++ [clause] } := by
    intro clause hclause done
    obtain ⟨hne, hterms⟩ := hclauses clause hclause
    rw [readToken_terms hupper hterms, List.nil_append, pushClause, if_neg hne]
  induction clauses generalizing done with
  | nil => simp [queryWords, List.intercalate, pushClause]
  | cons clause clauses ih =>
    cases clauses with
    | nil =>
      rw [queryWords_single, hread clause (by simp)]
    | cons next clauses =>
      rw [queryWords_cons, List.map_append, List.foldl_append, List.map_cons, List.foldl_cons, readToken_or hupper,
        hread clause (by simp)]
      have hrest := ih (fun c hc => hclauses c (List.mem_cons_of_mem _ hc)) (done ++ [clause])
        fun c hc => hread c (List.mem_cons_of_mem _ hc)
      rw [hrest, List.append_assoc]
      rfl

/-- No term is lost or added when clauses are made of the tokens. -/
theorem terms_readToken (tokens : List (List Char)) (state : ParseState) :
    (pushClause (tokens.foldl readToken state)).clauses.flatMap (·.terms) =
      state.clauses.flatMap (·.terms) ++ state.currentTerms ++ (tokens.filter fun w => !isOr w).map parseTerm := by
  have hpush : ∀ state : ParseState,
      (pushClause state).clauses.flatMap (·.terms) = state.clauses.flatMap (·.terms) ++ state.currentTerms ∧
        (pushClause state).currentTerms = [] := by
    intro state
    unfold pushClause
    split_ifs with hnil <;> simp [hnil]
  induction tokens generalizing state with
  | nil => simp [(hpush state).1]
  | cons w tokens ih =>
    rw [List.foldl_cons, ih, readToken]
    cases hor : isOr w with
    | true => simp [hor, hpush state]
    | false => simp [hor]

theorem parseSearchQuery_printQuery (query : SearchQuery) : parseSearchQuery (printQuery query) =
    { clauses := (pushClause ((textsFrom tokenAt 0 (printWords (queryWords query))).foldl readToken {})).clauses } := by
  rw [parseSearchQuery, printQuery, tokenize_eq]

/-- A printed query is parsed to itself exactly where its terms without a field read back. -/
theorem parse_printed_iff (hupper : UpperCases) (query : SearchQuery)
    (hprintable : ∀ clause ∈ query.clauses, clause.terms ≠ [] ∧ ∀ t ∈ clause.terms, Printable t) :
    parseSearchQuery (printQuery query) = query ↔ ReadBack (query.clauses.flatMap (·.terms)) := by
  obtain ⟨clauses⟩ := query
  have hterms := termsOf_queryWords clauses
  have hwords : ∀ t ∈ termsOf (queryWords { clauses }), Printable t := by
    intro t ht
    rw [hterms] at ht
    obtain ⟨clause, hclause, ht⟩ := List.mem_flatMap.mp ht
    exact (hprintable clause hclause).2 t ht
  rw [parseSearchQuery_printQuery, ← hterms]
  constructor
  · intro h
    have hclauses := congrArg (fun query => query.clauses.flatMap (·.terms)) h
    simp only [terms_readToken, List.flatMap_nil, List.nil_append] at hclauses
    exact readBack_of_tokens hupper hwords (hclauses.trans hterms.symm)
  · intro hback
    obtain ⟨htokens, hparse⟩ := tokens_of_readBack hwords hback
    rw [htokens]
    congr 1
    refine readToken_queryWords hupper clauses ?_ []
    intro clause hclause
    refine ⟨(hprintable clause hclause).1, fun t ht => ⟨(hprintable clause hclause).2 t ht, hparse t ?_⟩⟩
    rw [hterms]
    exact List.mem_flatMap.mpr ⟨clause, hclause, ht⟩

end

section
attribute [local instance] isoRuntime

theorem upperCases_isoRuntime : UpperCases where
  or := by decide
  colon s hs := by
    have hmem : Char.toUpper ':' ∈ s.toList.map Char.toUpper := List.mem_map_of_mem hs
    change ':' ∈ (String.ofList (s.toList.map Char.toUpper)).toList
    rw [String.toList_ofList]
    exact hmem
  quote s hs := by
    have hmem : Char.toUpper '"' ∈ s.toList.map Char.toUpper := List.mem_map_of_mem hs
    change '"' ∈ (String.ofList (s.toList.map Char.toUpper)).toList
    rw [String.toList_ofList]
    exact hmem

/-- `status:next OR -due:<=7d "call home"`. -/
def dueOrHome : SearchQuery where
  clauses :=
    [{ terms := [{ field := some "status", comparator := none, value := "next", negated := false }] },
      { terms :=
          [{ field := some "due", comparator := some .lessOrEqual, value := "7d", negated := true },
            { field := none, comparator := none, value := "call home", negated := false }] }]

theorem printable_dueOrHome :
    ∀ clause ∈ dueOrHome.clauses, clause.terms ≠ [] ∧ ∀ t ∈ clause.terms, Printable t := by
  have hstatus : Printable { field := some "status", comparator := none, value := "next", negated := false } := by
    refine ⟨?_, nofun, by decide, by decide, by simp [isNotQuote]⟩
    intro field hfield
    obtain rfl := Option.some.inj hfield
    exact ⟨by decide, by decide, by simp [isFieldLetter, isNotQuote, isTrimmed], by decide⟩
  have hdue : Printable { field := some "due", comparator := some .lessOrEqual, value := "7d", negated := true } := by
    refine ⟨?_, fun _ => ⟨rfl, by simp [isNotSpace, isTrimmed], by simp⟩, by decide, by decide, by simp [isNotQuote]⟩
    intro field hfield
    obtain rfl := Option.some.inj hfield
    exact ⟨by decide, by decide, by simp [isFieldLetter, isNotQuote, isTrimmed], by decide⟩
  have hhome : Printable { field := none, comparator := none, value := "call home", negated := false } :=
    ⟨nofun, nofun, by decide, by decide, by simp [isNotQuote]⟩
  intro clause hclause
  simp only [dueOrHome, List.mem_cons, List.not_mem_nil, or_false] at hclause
  rcases hclause with rfl | rfl
  · refine ⟨by simp, ?_⟩
    intro t ht
    rw [List.mem_singleton.1 ht]
    exact hstatus
  · refine ⟨by simp, ?_⟩
    intro t ht
    simp only [List.mem_cons, List.not_mem_nil, or_false] at ht
    rcases ht with rfl | rfl
    · exact hdue
    · exact hhome

theorem parse_printed_dueOrHome : parseSearchQuery (printQuery dueOrHome) = dueOrHome := by
  refine (parse_printed_iff upperCases_isoRuntime dueOrHome printable_dueOrHome).mpr ?_
  exact ⟨nofun, nofun, fun _ => ⟨by decide +kernel, nofun, by decide +kernel⟩, trivial⟩

/-- `-"two words"`. -/
def notTwoWords : SearchQuery where
  clauses := [{ terms := [{ field := none, comparator := none, value := "two words", negated := true }] }]

theorem parse_negated_phrase :
    (∀ clause ∈ notTwoWords.clauses, clause.terms ≠ [] ∧ ∀ t ∈ clause.terms, Printable t) ∧
      printQuery notTwoWords = "-\"two words\"" ∧ parseSearchQuery (printQuery notTwoWords) ≠ notTwoWords ∧
      parseSearchQuery (printQuery notTwoWords) =
        { clauses :=
            [{ terms :=
                [{ field := none, comparator := none, value := "two", negated := true },
                  { field := none, comparator := none, value := "words", negated := false }] }] } := by
  refine ⟨?_, by decide +kernel, by decide +kernel, by decide +kernel⟩
  intro clause hclause
  obtain rfl := List.mem_singleton.mp hclause
  refine ⟨by simp, ?_⟩
  intro t ht
  obtain rfl := List.mem_singleton.mp ht
  exact ⟨nofun, nofun, by decide, by decide, by simp [isNotQuote]⟩

end

end Mindwtr.Search
