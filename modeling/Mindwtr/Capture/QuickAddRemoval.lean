import Mindwtr.Capture.QuickAddPrinted

/-!
# Quick add removes what it recognised

A pass cuts the texts that it recognised one after the other, each where it first occurs in the line that is left. The
line loses the spans, and nothing else, when every text first occurs where its span stands.
-/

namespace Mindwtr.Capture

open Mindwtr.Js Mindwtr.Lib Regex

/-! ### Tokens begin words -/

/-- The token stands in the line, and a word begins with it. -/
structure QuickAddTokenMatch.BeginsWord (m : QuickAddTokenMatch) (line : Line) : Prop where
  text : m.raw <+: line.drop m.index
  ne_nil : m.raw ≠ []
  head : ∀ c ∈ m.raw.head?, isTrimmed c = false
  start : isQuickAddTokenStartBoundary line m.index = true
  finish : m.index + m.raw.length ≤ m.finish

theorem run_wordStart {c d : Cursor Char} (h : d ∈ run wordStart c) :
    (d = c ∧ c.before = none) ∨ ∃ blank, isTrimmed blank = true ∧ c.rest = blank :: d.rest ∧ d.groups = c.groups := by
  rcases List.mem_append.1 h with h | h
  · unfold run at h
    split_ifs at h with hnone
    · exact .inl ⟨List.mem_singleton.1 h, Option.isNone_iff_eq_none.1 hnone⟩
    · cases h
  · rw [space] at h
    unfold run at h
    split at h
    · rename_i blank rest hrest
      split_ifs at h with hblank
      · obtain rfl := List.mem_singleton.1 h
        exact .inr ⟨blank, hblank, hrest, rfl⟩
      · cases h
    · cases h

theorem run_letter {accepts : Char → Bool} {c d : Cursor Char} (h : d ∈ run (.letter accepts) c) :
    ∃ a, accepts a = true ∧ c.rest = a :: d.rest ∧ d.groups = c.groups := by
  unfold run at h
  split at h
  · rename_i a rest hrest
    split_ifs at h with ha
    · obtain rfl := List.mem_singleton.1 h
      exact ⟨a, ha, hrest, rfl⟩
    · cases h
  · cases h

theorem isTrimmed_of_marker {c : Char} (h : ['@', '#'].contains c = true) : isTrimmed c = false := by
  simp only [List.contains_cons, List.contains_nil, Bool.or_false, Bool.or_eq_true, beq_iff_eq] at h
  rcases h with rfl | rfl
  · decide
  · decide

/-- What begins after the start of a word begins a word. -/
theorem boundary_of_wordStart {line : Line} {index : Nat} {next : Cursor Char}
    (h : next ∈ run wordStart (cursorAt line index)) :
    ∃ first : Line, (∀ c ∈ first, isTrimmed c = true) ∧ (cursorAt line index).rest = first ++ next.rest ∧
      next.groups = [] ∧ (next.rest ≠ [] → isQuickAddTokenStartBoundary line (index + first.length) = true) := by
  rcases run_wordStart h with ⟨rfl, hnone⟩ | ⟨blank, hblank, hrest, hgroups⟩
  · refine ⟨[], by simp, rfl, rfl, ?_⟩
    intro hne
    have htake : line.take index = [] := List.getLast?_eq_none_iff.1 hnone
    have hdrop : line.drop index ≠ [] := hne
    rcases List.take_eq_nil_iff.1 htake with rfl | rfl
    · rfl
    · simp at hdrop
  · refine ⟨[blank], by simpa using hblank, hrest, hgroups, ?_⟩
    intro _
    have hat : (line)[index]? = some blank := by
      have hhead : (line.drop index).head? = some blank := congrArg List.head? hrest
      simpa using hhead
    simp [isQuickAddTokenStartBoundary, hat, hblank]

/-- A match whose end is a token that begins with a marker after the start of a word. -/
theorem beginsWord_of_matchAtEnd {line : Line} {found : Found Char} {d next : Cursor Char} {raw token : Line}
    (hnext : next ∈ run wordStart (cursorAt line found.index)) (hd : d.rest <:+ next.rest)
    (htext : found.text = (cursorAt line found.index).consumed d) (hraw : raw = next.consumed d)
    (hhead : ∃ c rest, next.rest = c :: rest ∧ isTrimmed c = false ∧ d.rest <:+ rest) :
    (matchAtEnd found raw token).BeginsWord line := by
  obtain ⟨first, -, hrest, -, hstart⟩ := boundary_of_wordStart hnext
  obtain ⟨c, rest, hcons, hc, hsuffix⟩ := hhead
  have hsplit : found.text = first ++ raw := by rw [htext, hraw, consumed_append hrest hd]
  have hindex : (matchAtEnd found raw token).index = found.index + first.length := by
    simp [matchAtEnd, hsplit]
  have hrawcons : raw = c :: rest.take (rest.length - d.rest.length) := by
    have hle := hsuffix.length_le
    rw [hraw, Cursor.consumed, hcons, List.length_cons, Nat.succ_sub hle, List.take_succ_cons]
  have hdrop : line.drop (found.index + first.length) = next.rest := by
    have hcursor : line.drop found.index = first ++ next.rest := hrest
    rw [← List.drop_drop, hcursor, List.drop_left]
  constructor
  · show raw <+: line.drop _
    rw [hindex, hdrop, hraw]
    exact consumed_prefix next d
  · show raw ≠ []
    rw [hrawcons]
    exact List.cons_ne_nil _ _
  · show ∀ c ∈ raw.head?, _
    rw [hrawcons]
    simpa using hc
  · rw [hindex]
    apply hstart
    rw [hcons]
    exact List.cons_ne_nil _ _
  · exact Nat.le_refl _

theorem quotedTokenMatches_beginWords {line : Line} {pfx : Char} {m : QuickAddTokenMatch}
    (hm : m ∈ quotedTokenMatches line pfx) : m.BeginsWord line := by
  obtain ⟨found, hfound, hvalue⟩ := List.mem_filterMap.1 hm
  obtain ⟨d, hd, htext, -⟩ := isMatch_of_mem_searchAll hfound
  obtain ⟨next, hnext, hd⟩ := List.mem_flatMap.1 hd
  obtain ⟨mid, hmid, hd⟩ := List.mem_flatMap.1 hd
  obtain ⟨marked, hmarked, rfl⟩ := List.mem_map.1 hmid
  obtain ⟨marker, hmarker, hrest, -⟩ := run_letter hmarked
  have hplain := isTrimmed_of_marker hmarker
  have hafter := run_suffix _ _ d hd
  have hsuffix : d.rest <:+ marked.rest := hafter
  have hd : d.rest <:+ next.rest := hrest ▸ hsuffix.trans (List.suffix_cons marker _)
  dsimp only at hvalue
  split_ifs at hvalue
  obtain rfl := Option.some.inj hvalue
  apply beginsWord_of_matchAtEnd hnext hd htext
  · obtain ⟨first, hfirst, hcursor, -, -⟩ := boundary_of_wordStart hnext
    have hle := hsuffix.length_le
    have hconsumed : next.consumed d = marker :: marked.rest.take (marked.rest.length - d.rest.length) := by
      rw [Cursor.consumed, hrest, List.length_cons, Nat.succ_sub hle, List.take_succ_cons]
    rw [htext, consumed_append hcursor hd, List.dropWhile_append_of_pos hfirst, hconsumed, List.dropWhile_cons_of_neg]
    simp [hplain]
  · exact ⟨marker, marked.rest, hrest, hplain, hsuffix⟩

section
variable [QuickAddRuntime]

theorem richTokenMatches_beginWords {line : Line} {pfx : Char} {m : QuickAddTokenMatch}
    (hm : m ∈ richTokenMatches line pfx) : m.BeginsWord line := by
  obtain ⟨found, hfound, hvalue⟩ := List.mem_filterMap.1 hm
  obtain ⟨d, hd, htext, hgroups⟩ := isMatch_of_mem_searchAll hfound
  obtain ⟨next, hnext, hd⟩ := List.mem_flatMap.1 hd
  obtain ⟨mid, hmid, hd⟩ := List.mem_flatMap.1 hd
  obtain ⟨inside, hinside, rfl⟩ := List.mem_map.1 hmid
  obtain ⟨marked, hmarked, hinside⟩ := List.mem_flatMap.1 hinside
  obtain ⟨marker, hmarker, hrest, -⟩ := run_letter hmarked
  have hplain := isTrimmed_of_marker hmarker
  -- what looks ahead consumes nothing and has no groups
  obtain ⟨last, hlast, hd⟩ := List.mem_flatMap.1 hd
  obtain rfl := List.mem_singleton.1 hd
  have hnone : 1 ∉ groupNumbers quickAddInlineControlBoundary := by decide +kernel
  have hlookup := lookup_of_run quickAddInlineControlBoundary hnone _ _ hlast
  obtain ⟨boundary, -, rfl⟩ := List.mem_map.1 hlast
  have hsuffix : inside.rest <:+ marked.rest := run_suffix _ _ _ hinside
  have hd : inside.rest <:+ next.rest := hrest ▸ hsuffix.trans (List.suffix_cons marker _)
  dsimp only at hvalue
  split_ifs at hvalue
  obtain rfl := Option.some.inj hvalue
  apply beginsWord_of_matchAtEnd hnext hd htext
  · rw [groupText, Found.group?, hgroups, hlookup, List.lookup_cons, beq_self_eq_true]
    rfl
  · exact ⟨marker, marked.rest, hrest, hplain, hsuffix⟩

theorem simpleTokenMatches_beginWords {line : Line} {pfx : Char} (hpfx : isTrimmed pfx = false) {m : QuickAddTokenMatch}
    (hm : m ∈ simpleTokenMatches line pfx) : m.BeginsWord line := by
  obtain ⟨found, hfound, hvalue⟩ := List.mem_filterMap.1 hm
  obtain ⟨d, -, htext, -⟩ := isMatch_of_mem_searchAll hfound
  split_ifs at hvalue with hstart
  obtain rfl := Option.some.inj hvalue
  rw [Bool.and_eq_true, List.isPrefixOf_iff_prefix] at hstart
  obtain ⟨⟨rest, hrest⟩, hstart⟩ := hstart
  have hindex : (matchAtEnd found found.text (restoreEscapes found.text)).index = found.index := by simp [matchAtEnd]
  constructor
  · show found.text <+: line.drop _
    rw [hindex, htext]
    exact consumed_prefix _ d
  · show found.text ≠ []
    rw [← hrest]
    exact List.cons_ne_nil _ _
  · show ∀ c ∈ found.text.head?, _
    rw [← hrest]
    simpa using hpfx
  · rw [hindex]
    exact hstart
  · exact Nat.le_refl _

omit [QuickAddRuntime] in
theorem ne_nil_of_knownTokenCandidates {pfx : Char} {knownTokens : List String} {candidate : Line}
    (h : candidate ∈ knownTokenCandidates pfx knownTokens) : candidate ≠ [] := by
  rw [knownTokenCandidates, List.mem_mergeSort, List.mem_eraseDups] at h
  obtain ⟨token, -, htoken⟩ := List.mem_filterMap.1 h
  unfold normalizeKnownQuickAddToken at htoken
  dsimp only at htoken
  split_ifs at htoken with hblank hprefix
  · obtain rfl := Option.some.inj htoken
    exact fun hnil => hblank (.inl hnil)
  · obtain rfl := Option.some.inj htoken
    exact List.cons_ne_nil _ _

theorem knownTokenMatches_beginWords {line : Line} {pfx : Char} (hpfx : isTrimmed pfx = false)
    {knownTokens : List String} {m : QuickAddTokenMatch} (hm : m ∈ knownTokenMatches line pfx knownTokens) :
    m.BeginsWord line := by
  obtain ⟨index, -, hvalue⟩ := List.mem_filterMap.1 hm
  split_ifs at hvalue with hstart
  obtain ⟨candidate, hcandidate, rfl⟩ := Option.map_eq_some_iff.1 hvalue
  have hne := ne_nil_of_knownTokenCandidates (List.mem_of_find?_eq_some hcandidate)
  have hdrop : ∃ rest, line.drop index = pfx :: rest := by
    rw [← List.head?_eq_some_iff, List.head?_drop]
    exact hstart.1
  obtain ⟨rest, hrest⟩ := hdrop
  obtain ⟨c, candidate, rfl⟩ := List.exists_cons_of_ne_nil hne
  have hraw : (line.drop index).take (c :: candidate).length = pfx :: rest.take candidate.length := by
    rw [hrest, List.length_cons, List.take_succ_cons]
  constructor
  · exact List.take_prefix _ _
  · show (line.drop index).take _ ≠ []
    rw [hraw]
    exact List.cons_ne_nil _ _
  · show ∀ d ∈ ((line.drop index).take _).head?, _
    rw [hraw]
    simpa using hpfx
  · exact hstart.2
  · exact Nat.add_le_add_left (List.length_take_le _ _) _

omit [QuickAddRuntime] in
theorem mem_takeApart {m : QuickAddTokenMatch} {matched : List QuickAddTokenMatch} {lastEnd : Nat}
    (h : m ∈ takeApart lastEnd matched) : m ∈ matched := by
  induction matched generalizing lastEnd with
  | nil => exact h
  | cons first matched ih =>
    rw [takeApart] at h
    split_ifs at h
    · exact List.mem_cons_of_mem first (ih h)
    · rcases List.mem_cons.1 h with rfl | h
      · exact List.mem_cons_self
      · exact List.mem_cons_of_mem first (ih h)

/-- Every token that is recognised begins a word of its line. -/
theorem recognised_beginsWord {line : Line} {pfx : Char} (hpfx : isTrimmed pfx = false) {knownTokens : List String} :
    ∀ m ∈ (quotedTokenMatches line pfx ++ knownTokenMatches line pfx knownTokens ++ simpleTokenMatches line pfx ++
      richTokenMatches line pfx).mergeSort beforeMatch, m.BeginsWord line := by
  intro m hm
  rw [List.mem_mergeSort, List.mem_append, List.mem_append, List.mem_append] at hm
  rcases hm with ((hm | hm) | hm) | hm
  · exact quotedTokenMatches_beginWords hm
  · exact knownTokenMatches_beginWords hpfx hm
  · exact simpleTokenMatches_beginWords hpfx hm
  · exact richTokenMatches_beginWords hm

theorem getQuickAddTokenMatches_beginsWord {line : Line} {pfx : Char} (hpfx : isTrimmed pfx = false)
    {knownTokens : List String} {m : QuickAddTokenMatch} (hm : m ∈ getQuickAddTokenMatches line pfx knownTokens) :
    m.BeginsWord line :=
  recognised_beginsWord hpfx m (mem_takeApart hm)

end

/-! ### Cutting one after the other -/

/-- Each begins where the one before it ends or later. -/
def Apart : Nat → List QuickAddTokenMatch → Prop
  | _, [] => True
  | lastEnd, m :: rest => lastEnd ≤ m.index ∧ Apart (m.index + m.raw.length) rest

theorem Apart.mono {lastEnd earlier : Nat} {matched : List QuickAddTokenMatch} (h : Apart lastEnd matched)
    (hle : earlier ≤ lastEnd) : Apart earlier matched := by
  cases matched with
  | nil => trivial
  | cons m matched => exact ⟨hle.trans h.1, h.2⟩

theorem Apart.le_index {lastEnd : Nat} {matched : List QuickAddTokenMatch} (h : Apart lastEnd matched) :
    ∀ m ∈ matched, lastEnd ≤ m.index := by
  induction matched generalizing lastEnd with
  | nil => simp
  | cons first matched ih =>
    intro m hm
    rcases List.mem_cons.1 hm with rfl | hm
    · exact h.1
    · exact h.1.trans ((Nat.le_add_right _ _).trans (ih h.2 m hm))

theorem apart_takeApart {line : Line} {matched : List QuickAddTokenMatch} (h : ∀ m ∈ matched, m.BeginsWord line)
    (lastEnd : Nat) : Apart lastEnd (takeApart lastEnd matched) := by
  induction matched generalizing lastEnd with
  | nil => trivial
  | cons m matched ih =>
    have hrest := ih fun other hother => h other (List.mem_cons_of_mem m hother)
    rw [takeApart]
    split_ifs with hlt
    · exact hrest lastEnd
    · exact ⟨Nat.le_of_not_lt hlt, (hrest m.finish).mono (h m List.mem_cons_self).finish⟩

def QuickAddTokenMatch.span (m : QuickAddTokenMatch) : Span := { index := m.index, raw := m.raw }

/-- The text of each span first occurs, in the line that is left, where the span stands: as much is printed from there
on as from the span on. -/
def foundInPlace (line : Line) : List Span → Line → Bool
  | [], _ => true
  | s :: rest, left =>
    (indexOf? s.raw left).any
        (fun index => (printed (left.drop index)).length == (printed (line.drop s.index)).length) &&
      foundInPlace line rest (stripToken left s.raw)

theorem endsBroken_concat (broken : Bool) (line : Line) (c : Char) :
    endsBroken broken (line ++ [c]) = isTrimmed c := by
  rw [endsBroken_append]
  rfl

/-- What stands before the start of a word ends with a break. -/
theorem endsBroken_before {line before : Line} {lastEnd index : Nat} (hle : lastEnd ≤ index)
    (hindex : index < line.length) (hstart : isQuickAddTokenStartBoundary line index = true)
    (hbefore : endsBroken true before = true) :
    endsBroken true (before ++ (line.drop lastEnd).take (index - lastEnd)) = true := by
  rcases Nat.eq_or_lt_of_le hle with rfl | hlt
  · simpa using hbefore
  · obtain ⟨index, rfl⟩ : ∃ n, index = n + 1 := ⟨index - 1, by omega⟩
    have hlast : (line.drop lastEnd).take (index + 1 - lastEnd) =
        (line.drop lastEnd).take (index - lastEnd) ++ [(line).get ⟨index, by omega⟩] := by
      have hsucc : index + 1 - lastEnd = index - lastEnd + 1 := by omega
      have hplace : lastEnd + (index - lastEnd) = index := by omega
      rw [hsucc, List.take_succ_eq_append_getElem (by rw [List.length_drop]; omega), List.getElem_drop]
      simp [hplace]
    have hwhite : isTrimmed ((line).get ⟨index, by omega⟩) = true := by
      have hat : (line)[index]? = some ((line).get ⟨index, by omega⟩) := List.getElem?_eq_getElem _
      simpa [isQuickAddTokenStartBoundary, hat] using hstart
    rw [hlast, ← List.append_assoc, endsBroken_concat]
    exact hwhite

/-- The text between two places, of which the second begins a word of its own. -/
theorem exists_gap {line before : Line} {lastEnd : Nat} {m : QuickAddTokenMatch} (hm : m.BeginsWord line)
    (hle : lastEnd ≤ m.index) (hbefore : endsBroken true before = true) :
    ∃ gap : Line, line.drop lastEnd = gap ++ (m.raw ++ line.drop m.span.finish) ∧ lastEnd + gap.length = m.index ∧
      endsBroken true (before ++ gap) = true := by
  have hinside : m.index < line.length := by
    have hpos := List.length_pos_iff.2 hm.ne_nil
    have hlong := hm.text.length_le
    rw [List.length_drop] at hlong
    omega
  have hraw : m.raw ++ line.drop m.span.finish = line.drop m.index := by
    obtain ⟨rest, hrest⟩ := hm.text
    rw [Span.finish, QuickAddTokenMatch.span, ← List.drop_drop, ← hrest, List.drop_left]
  refine ⟨(line.drop lastEnd).take (m.index - lastEnd), ?_, ?_, ?_⟩
  · have hplace : lastEnd + (m.index - lastEnd) = m.index := by omega
    rw [hraw]
    conv_lhs => rw [← List.take_append_drop (m.index - lastEnd) (line.drop lastEnd), List.drop_drop, hplace]
  · rw [List.length_take, List.length_drop]
    omega
  · exact endsBroken_before hle hinside hm.start hbefore

/-- The first of several spans that stand apart. -/
theorem cutOutFrom_first {s : Span} {rest : List Span} {place : Nat} {gap after : Line}
    (hs : place + gap.length = s.index) (hrest : ∀ t ∈ rest, s.finish ≤ t.index) :
    cutOutFrom place (s :: rest) (gap ++ (s.raw ++ after)) = gap ++ cutOutFrom s.finish rest after := by
  have hfinish : s.index ≤ s.finish := Nat.le_add_right _ _
  have hgap : cutOutFrom place (s :: rest) gap = gap := by
    apply cutOutFrom_of_uncovered
    intro i _ hi
    rw [List.any_eq_false]
    intro t ht
    have hle : s.index ≤ t.index := by
      rcases List.mem_cons.1 ht with rfl | ht
      · exact Nat.le_refl _
      · exact hfinish.trans (hrest t ht)
    simp [Span.covers]
    omega
  have hraw : cutOutFrom s.index (s :: rest) s.raw = [] := by
    apply cutOutFrom_of_covered
    intro i hle hlt
    simp [Span.covers, Span.finish, hle, hlt]
  have hafter : cutOutFrom s.finish (s :: rest) after = cutOutFrom s.finish rest after := by
    apply cutOutFrom_congr
    intro i hle _
    have hnot : s.covers i = false := by
      simp [Span.covers]
      omega
    rw [List.any_cons, hnot, Bool.false_or]
  rw [cutOutFrom_append, cutOutFrom_append, hgap, hs, hraw, List.nil_append]
  exact congrArg _ hafter

/-- Token by token the line that is left prints what the line without the spans prints. -/
theorem printed_stripSpans_apart {line : Line} {matched : List QuickAddTokenMatch} :
    ∀ {lastEnd : Nat} {before left : Line}, (∀ m ∈ matched, m.BeginsWord line) → Apart lastEnd matched →
      endsBroken true before = true → printed left = printed (before ++ line.drop lastEnd) →
      foundInPlace line (matched.map (·.span)) left = true →
      printed (stripSpans (matched.map (·.span)) left) =
        printed (before ++ cutOutFrom lastEnd (matched.map (·.span)) (line.drop lastEnd)) := by
  induction matched with
  | nil =>
    intro lastEnd before left _ _ _ hleft _
    rw [List.map_nil, cutOutFrom_nil]
    exact hleft
  | cons m matched ih =>
    intro lastEnd before left hbegins hapart hbroken hleft hfound
    obtain ⟨hm, hbegins⟩ := List.forall_mem_cons.1 hbegins
    obtain ⟨hle, hapart⟩ := hapart
    obtain ⟨gap, hgap, hplace, hbroken⟩ := exists_gap hm hle hbroken
    rw [List.map_cons, foundInPlace, Bool.and_eq_true, Option.any_eq_true] at hfound
    obtain ⟨⟨index, hindex, hlength⟩, hfound⟩ := hfound
    have hindex : indexOf? m.raw left = some index := hindex
    obtain ⟨after, hafter⟩ := prefix_of_indexOf? hindex
    have hsplit : left = left.take index ++ (m.raw ++ after) := by rw [hafter, List.take_append_drop]
    have hstrip : stripToken left m.raw = tidy (left.take index ++ after) := by
      rw [stripToken, removeFirst, hindex]
      show tidy (left.take index ++ left.drop (index + m.raw.length)) = _
      rw [← List.drop_drop, ← hafter, List.drop_left]
    have hraw : m.raw ++ line.drop m.span.finish = line.drop m.index := by
      rw [← hplace, ← List.drop_drop, hgap, List.drop_left]
    have hcut : printed (left.take index ++ after) = printed ((before ++ gap) ++ line.drop m.span.finish) := by
      apply printed_cut hm.head hm.ne_nil hbroken
      · rw [← hsplit, hleft, hgap, List.append_assoc]
      · rw [hafter, hraw]
        exact beq_iff_eq.1 hlength
    have hnext : printed (stripToken left m.raw) = printed ((before ++ gap) ++ line.drop m.span.finish) := by
      rw [hstrip, printed_tidy, hcut]
    have hspans : ∀ t ∈ matched.map (·.span), m.span.finish ≤ t.index := by
      intro t ht
      obtain ⟨other, hother, rfl⟩ := List.mem_map.1 ht
      exact hapart.le_index other hother
    have hrun := ih hbegins hapart hbroken hnext hfound
    have hfirst : cutOutFrom lastEnd (m.span :: matched.map (·.span)) (gap ++ (m.span.raw ++ line.drop m.span.finish)) =
        gap ++ cutOutFrom m.span.finish (matched.map (·.span)) (line.drop m.span.finish) :=
      cutOutFrom_first hplace hspans
    have hgap : line.drop lastEnd = gap ++ (m.span.raw ++ line.drop m.span.finish) := hgap
    rw [List.map_cons, hgap, hfirst, ← List.append_assoc]
    exact hrun

/-! ### What a pass removes -/

/-- The text of the first span first occurs at its place, and those of the others at theirs in the line that is left. -/
def firstInPlace (line : Line) : List Span → Bool
  | [] => true
  | s :: rest => indexOf? s.raw line == some s.index && foundInPlace line rest (stripToken line s.raw)

/-- A pass whose texts are found in their places leaves the line without its spans. -/
def Pass.RemovesSpans (spansOf : Pass) : Prop :=
  ∀ line, firstInPlace line (spansOf line) = true →
    printed (stripSpans (spansOf line) line) = printed (cutOut (spansOf line) line)

theorem foundInPlace_of_first {line : Line} {spans : List Span} (h : firstInPlace line spans = true) :
    foundInPlace line spans line = true := by
  cases spans with
  | nil => rfl
  | cons s rest =>
    rw [firstInPlace, Bool.and_eq_true, beq_iff_eq] at h
    rw [foundInPlace, h.1, h.2]
    simp

theorem removesSpans_toList (spanOf : Line → Option Span) : Pass.RemovesSpans fun line => (spanOf line).toList := by
  intro line h
  cases hspan : spanOf line with
  | none =>
    simp only [hspan, Option.toList_none, cutOut, cutOutFrom_nil]
    rfl
  | some s =>
    simp only [hspan, Option.toList_some, firstInPlace, foundInPlace, Bool.and_true, beq_iff_eq] at h ⊢
    rw [cutOut_singleton (prefix_of_indexOf? h)]
    show printed (stripToken line s.raw) = _
    rw [printed_stripToken, removeFirst, h]
    rfl

section
variable [QuickAddRuntime]

theorem removesSpans_tokens {pfx : Char} (hpfx : isTrimmed pfx = false) (knownTokens : List String) :
    Pass.RemovesSpans (tokenSpans pfx knownTokens) := by
  intro line h
  have hbegins : ∀ m ∈ getQuickAddTokenMatches line pfx knownTokens, m.BeginsWord line :=
    fun m hm => getQuickAddTokenMatches_beginsWord hpfx hm
  have hapart : Apart 0 (getQuickAddTokenMatches line pfx knownTokens) := apart_takeApart (recognised_beginsWord hpfx) 0
  have hbroken : endsBroken true [] = true := rfl
  exact printed_stripSpans_apart hbegins hapart hbroken rfl (foundInPlace_of_first h)

theorem quickAddPasses_removeSpans (projects : List Project) (now : Int) (areas : List Area)
    (options : QuickAddParseOptions) : ∀ spansOf ∈ quickAddPasses projects now areas options, spansOf.RemovesSpans := by
  have hpriority : Pass.RemovesSpans fun working =>
      if options.parsePriority == some false then [] else (levelSpan "priority" priorityTokens working).toList := by
    by_cases hoff : (options.parsePriority == some false) = true
    · simp only [if_pos hoff]
      exact removesSpans_toList fun _ => none
    · simp only [if_neg hoff]
      exact removesSpans_toList _
  intro spansOf hmem
  simp only [quickAddPasses, List.mem_cons, List.not_mem_nil, or_false] at hmem
  rcases hmem with rfl | rfl | rfl | rfl | rfl | rfl | rfl | rfl | rfl | rfl | rfl | rfl | rfl
  · exact removesSpans_tokens (by decide) _
  · exact removesSpans_tokens (by decide) _
  · exact removesSpans_toList _
  · exact removesSpans_toList _
  · exact hpriority
  · exact removesSpans_toList _
  · exact removesSpans_toList _
  · exact removesSpans_toList _
  · exact removesSpans_toList _
  · exact removesSpans_toList _
  · exact removesSpans_toList _
  · exact removesSpans_toList _
  · exact removesSpans_toList _

end

/-! ### The whole line -/

/-- Every pass leaves of the line it reads what is printed outside its spans. -/
def RemoveInPlace : List Pass → Line → Prop
  | [], _ => True
  | spansOf :: passes, line =>
    printed (stripSpans (spansOf line) line) = printed (cutOut (spansOf line) line) ∧
      RemoveInPlace passes (stripSpans (spansOf line) line)

/-- Every pass finds the texts of its spans in their places. -/
def FindInPlace : List Pass → Line → Prop
  | [], _ => True
  | spansOf :: passes, line =>
    firstInPlace line (spansOf line) = true ∧ FindInPlace passes (stripSpans (spansOf line) line)

def decideRemoveInPlace : (passes : List Pass) → (line : Line) → Decidable (RemoveInPlace passes line)
  | [], _ => .isTrue trivial
  | spansOf :: passes, line =>
    have := decideRemoveInPlace passes (stripSpans (spansOf line) line)
    inferInstanceAs (Decidable (_ ∧ _))

instance (passes : List Pass) (line : Line) : Decidable (RemoveInPlace passes line) := decideRemoveInPlace passes line

def decideFindInPlace : (passes : List Pass) → (line : Line) → Decidable (FindInPlace passes line)
  | [], _ => .isTrue trivial
  | spansOf :: passes, line =>
    have := decideFindInPlace passes (stripSpans (spansOf line) line)
    inferInstanceAs (Decidable (_ ∧ _))

instance (passes : List Pass) (line : Line) : Decidable (FindInPlace passes line) := decideFindInPlace passes line

theorem removeInPlace_of_find {passes : List Pass} (hpasses : ∀ spansOf ∈ passes, spansOf.RemovesSpans) :
    ∀ {line : Line}, FindInPlace passes line → RemoveInPlace passes line := by
  induction passes with
  | nil => exact fun _ => trivial
  | cons spansOf passes ih =>
    obtain ⟨hfirst, hpasses⟩ := List.forall_mem_cons.1 hpasses
    intro line hfind
    exact ⟨hfirst line hfind.1, ih hpasses hfind.2⟩

theorem cutOut_sublist (spans : List Span) (line : Line) : (cutOut spans line).Sublist line := by
  have hpairs := (List.filter_sublist (l := line.zipIdx 0)
    (p := fun c => !spans.any fun s => s.covers c.2)).map Prod.fst
  rwa [List.zipIdx_map_fst] at hpairs

/-- What the passes print is, in its order, what the line prints. -/
theorem RemoveInPlace.sublist {passes : List Pass} : ∀ {line : Line}, RemoveInPlace passes line →
    ((printed (runPasses passes line)).map (·.2)).Sublist ((printed line).map (·.2)) := by
  induction passes with
  | nil => exact fun _ => List.Sublist.refl _
  | cons spansOf passes ih =>
    intro line h
    have hcut : ((printed (stripSpans (spansOf line) line)).map (·.2)).Sublist ((printed line).map (·.2)) := by
      rw [h.1, printed, printed, map_snd_printedFrom, map_snd_printedFrom]
      exact (cutOut_sublist _ line).filter _
    exact (ih h.2).trans hcut

theorem mem_of_mem_listed {α : Type} {items : List α} {a : α} (h : a ∈ (listed items).getD []) : a ∈ items := by
  unfold listed at h
  split_ifs at h
  · cases h
  · exact h

section
variable [QuickAddRuntime]

/-- The token is one that was recognised at the start of a word of the line. -/
def IsRecognisedIn (token : String) (pfx : Char) (knownTokens : List String) (line : Line) : Prop :=
  ∃ m ∈ getQuickAddTokenMatches line pfx knownTokens, String.ofList m.token = token ∧ m.BeginsWord line

theorem isRecognisedIn_of_mem {token : String} {pfx : Char} (hpfx : isTrimmed pfx = false) {knownTokens : List String}
    {line : Line} (h : token ∈ (parseTokens line pfx knownTokens).1) : IsRecognisedIn token pfx knownTokens line := by
  obtain ⟨m, hm, rfl⟩ := List.mem_map.1 (List.mem_eraseDups.1 h)
  exact ⟨m, hm, rfl, getQuickAddTokenMatches_beginsWord hpfx hm⟩

/-- What a line with no links in it becomes, when the parser removes what it recognised and nothing else. -/
structure RemovesWhatItRecognised (input : String) (projects : List Project) (now : Int) (areas : List Area)
    (options : QuickAddParseOptions) (result : QuickAddResult) : Prop where
  title : result.title = restoredText (tidy (runPasses (quickAddPasses projects now areas options)
    (protectEscapes (trim input).toList)))
  spans : RemoveInPlace (quickAddPasses projects now areas options) (protectEscapes (trim input).toList)
  /-- Nothing is added, altered or moved. -/
  kept : ((printed (runPasses (quickAddPasses projects now areas options)
    (protectEscapes (trim input).toList))).map (·.2)).Sublist ((printed (protectEscapes (trim input).toList)).map (·.2))
  contexts : ∀ token ∈ result.props.contexts.getD [],
    IsRecognisedIn token '@' options.knownContexts (protectEscapes (trim input).toList)
  tags : ∀ token ∈ result.props.tags.getD [], IsRecognisedIn token '#' options.knownTags
    (stripSpans (tokenSpans '@' options.knownContexts (protectEscapes (trim input).toList))
      (protectEscapes (trim input).toList))

/-- The contexts and tags are those of the first two passes, or none. -/
theorem parseQuickAdd_tokens {input : String} (hlinks : HasNoLinks input) (projects : List Project) (now : Int)
    (areas : List Area) (options : QuickAddParseOptions) (uuid : Nat → String) :
    (parseQuickAdd input projects now areas options uuid).props.contexts.getD [] ⊆
        (parseTokens (protectEscapes (trim input).toList) '@' options.knownContexts).1 ∧
      (parseQuickAdd input projects now areas options uuid).props.tags.getD [] ⊆
        (parseTokens (parseTokens (protectEscapes (trim input).toList) '@' options.knownContexts).2 '#'
          options.knownTags).1 := by
  have hlink := parseLinkCommands_none hlinks now uuid ((protectEscapes (trim input).toList).length + 1)
  unfold parseQuickAdd
  generalize parseLinkCommandsFromWorking = links at hlink ⊢
  generalize parseTokens = tokens
  generalize parsePerson = person
  generalize parseLevel = level
  generalize parseArea = area
  generalize parseNote = note
  generalize parseDateCommand = date
  generalize parseStatus = status
  generalize parseFocus = focus
  generalize parseProject = project
  simp only [hlink]
  have hresult : ∀ (blank : Bool) (dropped kept : QuickAddResult) (contexts tags : List String),
      dropped.props = {} → kept.props.contexts = listed contexts → kept.props.tags = listed tags →
      (if blank = true then dropped else kept).props.contexts.getD [] ⊆ contexts ∧
        (if blank = true then dropped else kept).props.tags.getD [] ⊆ tags := by
    intro blank dropped kept contexts tags hdropped hcontexts htags
    by_cases hblank : blank = true
    · rw [if_pos hblank, hdropped]
      exact ⟨List.nil_subset _, List.nil_subset _⟩
    · rw [if_neg hblank, hcontexts, htags]
      exact ⟨fun _ => mem_of_mem_listed, fun _ => mem_of_mem_listed⟩
  exact hresult _ _ _ _ _ rfl rfl rfl

end

end Mindwtr.Capture
