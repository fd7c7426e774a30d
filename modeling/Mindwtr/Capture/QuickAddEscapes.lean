import Mindwtr.Capture.QuickAdd

/-!
# Escaped text is plain text

A line whose control characters are all escaped has none left when the patterns run, and every pattern needs one. The
sentinels in their place are read back, and nothing that a sentinel and the text around it write together is another
sentinel, so the title is the text.
-/

namespace Mindwtr.Capture

open Mindwtr.Js Mindwtr.Lib

/-- A backslash before every control character. -/
def escapeControls (text : Line) : Line :=
  text.flatMap fun c => if c ∈ quickAddEscapeChars then ['\\', c] else [c]

/-- A sentinel in the place of every control character. -/
def shield (text : Line) : Line := text.flatMap fun c => if c ∈ quickAddEscapeChars then sentinelFor c else [c]

theorem shield_cons (c : Char) (text : Line) :
    shield (c :: text) = (if c ∈ quickAddEscapeChars then sentinelFor c else [c]) ++ shield text := rfl

/-! ### Protecting -/

theorem protectEscapes_cons {c : Char} {rest : Line} (h : c ≠ '\\' ∨ ∀ d ∈ rest.head?, d ∉ quickAddEscapeChars) :
    protectEscapes (c :: rest) = c :: protectEscapes rest := by
  by_cases hc : c = '\\'
  · subst hc
    cases rest with
    | nil => rfl
    | cons d rest =>
      have hd : d ∉ quickAddEscapeChars := by simpa using h
      rw [protectEscapes, if_neg hd]
  · rw [protectEscapes]
    exact fun _ _ heq => absurd heq hc

theorem head_escapeControls (text : Line) : ∀ d ∈ (escapeControls text).head?, d ∉ quickAddEscapeChars := by
  cases text with
  | nil => simp [escapeControls]
  | cons c text =>
    intro d hd
    by_cases hc : c ∈ quickAddEscapeChars
    · have hslash : '\\' ∉ quickAddEscapeChars := by decide
      simp [escapeControls, hc] at hd
      exact hd ▸ hslash
    · simp [escapeControls, hc] at hd
      exact hd ▸ hc

theorem protectEscapes_escapeControls (text : Line) : protectEscapes (escapeControls text) = shield text := by
  induction text with
  | nil => rfl
  | cons c text ih =>
    by_cases hc : c ∈ quickAddEscapeChars
    · have hcons : escapeControls (c :: text) = '\\' :: c :: escapeControls text := by
        simp [escapeControls, hc]
      rw [hcons, protectEscapes, if_pos hc, ih, shield_cons, if_pos hc]
    · have hcons : escapeControls (c :: text) = c :: escapeControls text := by simp [escapeControls, hc]
      rw [hcons, protectEscapes_cons (.inr (head_escapeControls text)), ih, shield_cons, if_neg hc]
      rfl

/-! ### Restoring -/

/-- A text that stands at the start of a line and is followed by a digit. -/
def BeginsWith (text line : Line) : Prop := ∃ digit rest, digit.isDigit = true ∧ line = text ++ digit :: rest

theorem no_digit_in_sentinel : escapeSentinel.any Char.isDigit = false := by decide

/-- The first letters of a sentinel are no digits. -/
theorem not_beginsWith_sentinel {text : Line} (hlength : text.length < escapeSentinel.length) (c : Char) (rest : Line) :
    ¬BeginsWith text (sentinelFor c ++ rest) := by
  rintro ⟨digit, after, hdigit, heq⟩
  have hget : (sentinelFor c ++ rest)[text.length]? = some digit := by simp [heq]
  rw [sentinelFor, List.append_assoc, List.append_assoc, List.getElem?_append_left hlength] at hget
  have hmem : digit ∈ escapeSentinel := List.mem_of_getElem? hget
  exact List.any_eq_false.1 no_digit_in_sentinel digit hmem hdigit

/-- Part of the sentinel with a digit after it stands in the shielded line only where it stands in the text. -/
theorem prefix_of_beginsWith {part : Line} (hlength : part.length < escapeSentinel.length) {text : Line}
    (h : BeginsWith part (shield text)) : part <+: text := by
  induction part generalizing text with
  | nil => exact List.nil_prefix
  | cons a part ih =>
    cases text with
    | nil =>
      obtain ⟨digit, rest, -, heq⟩ := h
      cases heq
    | cons c text =>
      by_cases hc : c ∈ quickAddEscapeChars
      · rw [shield_cons, if_pos hc] at h
        exact absurd h (not_beginsWith_sentinel hlength c _)
      · rw [shield_cons, if_neg hc] at h
        obtain ⟨digit, rest, hdigit, heq⟩ := h
        have hcons : c :: shield text = a :: (part ++ digit :: rest) := heq
        obtain ⟨rfl, hpart⟩ := List.cons.inj hcons
        have hshorter : part.length < escapeSentinel.length := Nat.lt_of_succ_lt hlength
        exact List.cons_prefix_cons.2 ⟨rfl, ih hshorter ⟨digit, rest, hdigit, hpart⟩⟩

theorem beginsWith_of_sentinelAt {line : Line} (h : (sentinelAt line).isSome = true) :
    BeginsWith escapeSentinel line := by
  unfold sentinelAt at h
  dsimp only at h
  split_ifs at h with hcond
  · simp only [Bool.and_eq_true, Bool.not_eq_true', List.isEmpty_eq_false_iff, List.isPrefixOf_iff_prefix] at hcond
    obtain ⟨⟨⟨rest, rfl⟩, hdigits⟩, -⟩ := hcond
    rw [List.drop_left] at hdigits
    cases rest with
    | nil => exact absurd rfl hdigits
    | cons d rest =>
      refine ⟨d, rest, ?_, rfl⟩
      by_contra hd
      exact hdigits (List.takeWhile_cons_of_neg hd)
  · cases h

/-- A character that was not escaped begins no sentinel. -/
theorem sentinelAt_plain {c : Char} (hc : c ∉ quickAddEscapeChars) {text : Line}
    (hfree : ¬escapeSentinel <+: c :: text) : sentinelAt (shield (c :: text)) = none := by
  rw [← Option.not_isSome_iff_eq_none]
  intro hsome
  obtain ⟨digit, rest, hdigit, heq⟩ := beginsWith_of_sentinelAt hsome
  have hsplit : escapeSentinel = '_' :: escapeSentinel.tail := rfl
  rw [shield_cons, if_neg hc, hsplit] at heq
  have hcons : c :: shield text = '_' :: (escapeSentinel.tail ++ digit :: rest) := heq
  obtain ⟨rfl, htail⟩ := List.cons.inj hcons
  apply hfree
  rw [hsplit]
  exact List.cons_prefix_cons.2 ⟨rfl, prefix_of_beginsWith (by decide +kernel) ⟨digit, rest, hdigit, htail⟩⟩

/-- A sentinel is read as the character it was written for. -/
theorem sentinelAt_sentinelFor : ∀ c ∈ quickAddEscapeChars, ∀ rest,
    sentinelAt (sentinelFor c ++ rest) = some (c, (sentinelFor c).length) := by
  intro c hc rest
  simp only [quickAddEscapeChars, List.mem_cons, List.not_mem_nil, or_false] at hc
  rcases hc with rfl | rfl | rfl | rfl | rfl | rfl <;> rfl

theorem restoreFrom_append (text rest : Line) : restoreFrom text.length (text ++ rest) = restoreFrom 0 rest := by
  induction text with
  | nil => rfl
  | cons c text ih => exact ih

/-- What was shielded is restored. -/
theorem restoreEscapes_shield {text : Line} (hfree : ¬escapeSentinel <:+: text) :
    restoreEscapes (shield text) = text := by
  unfold restoreEscapes
  induction text with
  | nil => rfl
  | cons c text ih =>
    have hrest : ¬escapeSentinel <:+: text := fun h => hfree (h.trans (List.suffix_cons c text).isInfix)
    by_cases hc : c ∈ quickAddEscapeChars
    · have hread := sentinelAt_sentinelFor c hc (shield text)
      have hsplit : sentinelFor c ++ shield text = '_' :: ((sentinelFor c).tail ++ shield text) := rfl
      have hlength : (sentinelFor c).length - 1 = (sentinelFor c).tail.length := by simp
      rw [shield_cons, if_pos hc, hsplit, restoreFrom, ← hsplit, hread]
      show c :: restoreFrom ((sentinelFor c).length - 1) ((sentinelFor c).tail ++ shield text) = c :: text
      rw [hlength, restoreFrom_append, ih hrest]
    · have hplain := sentinelAt_plain hc fun h => hfree h.isInfix
      rw [shield_cons, if_neg hc] at hplain ⊢
      show restoreFrom 0 (c :: shield text) = c :: text
      rw [restoreFrom, show sentinelAt (c :: shield text) = none from hplain]
      show c :: restoreFrom 0 (shield text) = c :: text
      rw [ih hrest]

/-! ### White space -/

/-- No two characters of white space are next to each other. -/
def HasNoRuns (line : Line) : Prop := line.IsChain fun a b => ¬(isTrimmed a = true ∧ isTrimmed b = true)

instance (line : Line) : Decidable (HasNoRuns line) := inferInstanceAs (Decidable (List.IsChain _ line))

theorem dropWhile_eq_self_iff_head {line : Line} :
    line.dropWhile isTrimmed = line ↔ ∀ c ∈ line.head?, isTrimmed c = false := by
  rw [List.dropWhile_eq_self_iff]
  cases line <;> simp

theorem rdropWhile_eq_self_iff_last {line : Line} :
    line.rdropWhile isTrimmed = line ↔ ∀ c ∈ line.getLast?, isTrimmed c = false := by
  rw [List.rdropWhile_eq_self_iff]
  rcases line.eq_nil_or_concat with rfl | ⟨rest, c, rfl⟩ <;> simp

/-- Neither end of the line is white space. -/
theorem trimLine_eq_self_iff {line : Line} : trimLine line = line ↔
    (∀ c ∈ line.head?, isTrimmed c = false) ∧ ∀ c ∈ line.getLast?, isTrimmed c = false := by
  rw [← dropWhile_eq_self_iff_head, ← rdropWhile_eq_self_iff_last]
  constructor
  · intro htrim
    have hprefix := List.rdropWhile_prefix isTrimmed (l := line.dropWhile isTrimmed)
    have hlength := congrArg List.length htrim
    have hleft : line.dropWhile isTrimmed = line :=
      (List.dropWhile_suffix isTrimmed).eq_of_length_le (hlength ▸ hprefix.length_le)
    refine ⟨hleft, ?_⟩
    rw [trimLine, hleft] at htrim
    exact htrim
  · rintro ⟨hleft, hright⟩
    rw [trimLine, hleft, hright]

/-- A run with white space in it begins with white space. -/
theorem isTrimmed_head_of_any {c : Char} {run : Line}
    (hchain : (c :: run).IsChain fun a b => (isTrimmed a == isTrimmed b) = true)
    (hany : (c :: run).any isTrimmed = true) : isTrimmed c = true := by
  induction run generalizing c with
  | nil => simpa using hany
  | cons d run ih =>
    rw [List.isChain_cons_cons, beq_iff_eq] at hchain
    by_contra hc
    have hrest : (d :: run).any isTrimmed = true := by simpa [hc] using hany
    exact hc (hchain.1.trans (ih hchain.2 hrest))

theorem collapseRuns_two {line : Line} (h : HasNoRuns line) : collapseRuns 2 line = line := by
  have hrun : ∀ run ∈ line.splitBy fun a b => isTrimmed a == isTrimmed b,
      (if run.any isTrimmed && decide (2 ≤ run.length) then [' '] else run) = run := by
    intro run hmem
    rw [if_neg]
    intro hlong
    rw [Bool.and_eq_true, decide_eq_true_eq] at hlong
    have hchain := List.isChain_of_mem_splitBy hmem
    have hinfix : run <:+: line := List.flatten_splitBy _ line ▸ List.infix_of_mem_flatten hmem
    have hapart := h.infix hinfix
    cases run with
    | nil => simp at hlong
    | cons a run =>
      cases run with
      | nil => simp at hlong
      | cons b run =>
        have ha := isTrimmed_head_of_any hchain hlong.1
        rw [List.isChain_cons_cons, beq_iff_eq] at hchain
        exact (List.isChain_cons_cons.1 hapart).1 ⟨ha, hchain.1 ▸ ha⟩
  calc collapseRuns 2 line = (line.splitBy fun a b => isTrimmed a == isTrimmed b).flatMap id :=
        List.flatMap_congr hrun
    _ = line := by rw [List.flatMap_id, List.flatten_splitBy]

theorem tidy_eq_self {line : Line} (hruns : HasNoRuns line) (htrim : trimLine line = line) : tidy line = line := by
  rw [tidy, collapseRuns_two hruns, htrim]

/-! ### Writing characters out -/

/-- Characters that are written out one by one, white space as it is and the others without any. -/
structure KeepsSpace (f : Char → Line) : Prop where
  nonempty : ∀ c, f c ≠ []
  space : ∀ c, isTrimmed c = true → f c = [c]
  plain : ∀ c, isTrimmed c = false → ∀ d ∈ f c, isTrimmed d = false

namespace KeepsSpace

variable {f : Char → Line}

/-- White space is written only for itself. -/
theorem isTrimmed_of_mem (hf : KeepsSpace f) {c d : Char} (hd : d ∈ f c) (hspace : isTrimmed d = true) :
    isTrimmed c = true := by
  by_contra hc
  rw [Bool.not_eq_true] at hc
  rw [hf.plain c hc d hd] at hspace
  cases hspace

theorem head (hf : KeepsSpace f) (text : Line) (h : ∀ c ∈ text.head?, isTrimmed c = false) :
    ∀ d ∈ (text.flatMap f).head?, isTrimmed d = false := by
  cases text with
  | nil => simp
  | cons c text =>
    intro d hd
    obtain ⟨first, rest, hfirst⟩ := List.exists_cons_of_ne_nil (hf.nonempty c)
    rw [List.flatMap_cons, hfirst] at hd
    obtain rfl : first = d := by simpa using hd
    exact hf.plain c (h c rfl) first (by rw [hfirst]; exact List.mem_cons_self)

theorem last (hf : KeepsSpace f) {text : Line} (h : ∀ c ∈ text.getLast?, isTrimmed c = false) :
    ∀ d ∈ (text.flatMap f).getLast?, isTrimmed d = false := by
  rcases text.eq_nil_or_concat with rfl | ⟨rest, c, rfl⟩
  · simp
  · intro d hd
    have hlast : (f c).getLast? = some d := by
      rw [List.concat_eq_append, List.flatMap_append, List.flatMap_singleton, List.getLast?_append] at hd
      cases hc : (f c).getLast? with
      | none => exact absurd (List.getLast?_eq_none_iff.1 hc) (hf.nonempty c)
      | some e => simpa [hc] using hd
    exact hf.plain c (h c (by simp)) d (List.mem_of_getLast? hlast)

theorem trimLine_eq_self (hf : KeepsSpace f) {text : Line} (h : trimLine text = text) :
    trimLine (text.flatMap f) = text.flatMap f := by
  rw [trimLine_eq_self_iff] at h ⊢
  exact ⟨hf.head text h.1, hf.last h.2⟩

theorem hasNoRuns (hf : KeepsSpace f) {text : Line} (h : HasNoRuns text) : HasNoRuns (text.flatMap f) := by
  induction text with
  | nil => exact List.isChain_nil
  | cons c text ih =>
    have hrest : HasNoRuns text := h.tail
    rw [List.flatMap_cons, HasNoRuns, List.isChain_append]
    refine ⟨?_, ih hrest, ?_⟩
    · by_cases hc : isTrimmed c = true
      · rw [hf.space c hc]
        exact List.isChain_singleton c
      · rw [Bool.not_eq_true] at hc
        apply List.Pairwise.isChain
        apply List.pairwise_of_forall_mem_list
        intro a ha b _ hboth
        rw [hf.plain c hc a ha] at hboth
        exact Bool.false_ne_true hboth.1
    · rintro a ha b hb ⟨hspacea, hspaceb⟩
      have hc : isTrimmed c = true := hf.isTrimmed_of_mem (List.mem_of_getLast? ha) hspacea
      cases text with
      | nil => cases hb
      | cons d text =>
        have hd : isTrimmed d = true := by
          by_contra hd
          rw [Bool.not_eq_true] at hd
          have hhead := hf.head (d :: text) (by simpa using hd) b hb
          rw [hhead] at hspaceb
          cases hspaceb
        exact (List.isChain_cons_cons.1 h).1 ⟨hc, hd⟩

end KeepsSpace

theorem escapeChars_plain : quickAddEscapeChars.all (fun c => !isTrimmed c) = true := by decide

theorem isTrimmed_of_escaped {c : Char} (hc : c ∈ quickAddEscapeChars) : isTrimmed c = false := by
  simpa using List.all_eq_true.1 escapeChars_plain c hc

theorem sentinelFor_plain : quickAddEscapeChars.all (fun c => (sentinelFor c).all fun d => !isTrimmed d) = true := by
  decide

theorem keepsSpace_escape : KeepsSpace fun c => if c ∈ quickAddEscapeChars then ['\\', c] else [c] := by
  constructor
  · intro c
    split_ifs <;> simp
  · intro c hspace
    rw [if_neg]
    intro hc
    rw [isTrimmed_of_escaped hc] at hspace
    cases hspace
  · intro c hc d hd
    split_ifs at hd
    · rcases List.mem_pair.1 hd with rfl | rfl
      · decide
      · exact hc
    · exact List.mem_singleton.1 hd ▸ hc

theorem keepsSpace_shield : KeepsSpace fun c => if c ∈ quickAddEscapeChars then sentinelFor c else [c] := by
  constructor
  · intro c
    split_ifs <;> simp [sentinelFor, escapeSentinel]
  · intro c hspace
    rw [if_neg]
    intro hc
    rw [isTrimmed_of_escaped hc] at hspace
    cases hspace
  · intro c hc d hd
    split_ifs at hd with hescaped
    · simpa using List.all_eq_true.1 (List.all_eq_true.1 sentinelFor_plain c hescaped) d hd
    · exact List.mem_singleton.1 hd ▸ hc

/-! ### No control is left -/

/-- No character of the line controls the parser. -/
def HasNoControls (line : Line) : Prop := ∀ c ∈ line, c ∉ quickAddEscapeChars

theorem sentinelFor_noControls :
    quickAddEscapeChars.all (fun c => (sentinelFor c).all fun d => !quickAddEscapeChars.contains d) = true := by
  decide

theorem hasNoControls_shield (text : Line) : HasNoControls (shield text) := by
  intro d hd
  obtain ⟨c, -, hd⟩ := List.mem_flatMap.1 hd
  split_ifs at hd with hc
  · simpa using List.all_eq_true.1 (List.all_eq_true.1 sentinelFor_noControls c hc) d hd
  · exact List.mem_singleton.1 hd ▸ hc

/-! ### Every pattern needs a control -/

section
open Regex

theorem needs_char {c : Char} (hc : c ∈ quickAddEscapeChars) : Needs (· ∈ quickAddEscapeChars) (char c) := by
  apply Needs.letter
  intro a ha
  exact beq_iff_eq.1 ha ▸ hc

theorem needs_marker : Needs (· ∈ quickAddEscapeChars) (oneOfChars "@#") := by
  apply Needs.letter
  intro a ha
  have hmarker : a = '@' ∨ a = '#' := by simpa using ha
  rcases hmarker with rfl | rfl <;> decide

theorem needs_slash : Needs (· ∈ quickAddEscapeChars) (char '/') := needs_char (by decide)

variable {working : Line} (hfree : HasNoControls working)
include hfree

theorem search_command (name : String) (value : Regex Char) : search (commandPattern name value) working = none :=
  (Needs.sequence ⟨_, by simp, needs_slash⟩).search_eq_none hfree

theorem search_argument (name : String) : search (argumentPattern name) working = none :=
  (Needs.sequence ⟨_, by simp, needs_slash⟩).search_eq_none hfree

theorem search_name {marker : Char} (hmarker : marker ∈ quickAddEscapeChars) (stops : String) :
    search (namePattern marker stops) working = none :=
  (Needs.sequence ⟨_, by simp, needs_char hmarker⟩).search_eq_none hfree

theorem search_quotedName {marker : Char} (hmarker : marker ∈ quickAddEscapeChars) :
    search (quotedNamePattern marker) working = none :=
  (Needs.sequence ⟨_, by simp, needs_char hmarker⟩).search_eq_none hfree

theorem search_status : search statusPattern working = none :=
  (Needs.sequence ⟨_, by simp, needs_slash⟩).search_eq_none hfree

theorem search_focus : search focusPattern working = none :=
  (Needs.sequence ⟨_, by simp, needs_slash⟩).search_eq_none hfree

theorem searchAll_quotedToken : searchAll quotedTokenPattern working = [] := by
  have hgroup : Needs (· ∈ quickAddEscapeChars) (Regex.group 1 (oneOfChars "@#")) := .group needs_marker
  exact (Needs.sequence ⟨_, by simp, hgroup⟩).searchAll_eq_nil hfree

variable [QuickAddRuntime]

theorem searchAll_simpleToken : searchAll simpleTaskTokenPattern working = [] :=
  (Needs.first needs_marker).searchAll_eq_nil hfree

theorem searchAll_richToken : searchAll richTaskTokenPattern working = [] := by
  have hgroup : Needs (· ∈ quickAddEscapeChars) (Regex.group 1 (sequence [oneOfChars "@#",
      notAhead (letter fun c => isTrimmed c || isTokenChar c), lazyPlus (noneOfChars "@#+/!%")])) :=
    .group (.first needs_marker)
  exact (Needs.sequence ⟨_, by simp, hgroup⟩).searchAll_eq_nil hfree

end

/-! ### Every step leaves the line -/

section
variable [QuickAddRuntime] {working : Line} (hfree : HasNoControls working)
include hfree

theorem parseLinkCommands_plain (now : Int) (uuid : Nat → String) (rounds : Nat) :
    parseLinkCommandsFromWorking now uuid rounds [] working = ([], working) := by
  cases rounds with
  | zero => rfl
  | succ rounds => rw [parseLinkCommandsFromWorking, linkCommandPattern, search_command hfree]

theorem knownTokenMatches_plain {pfx : Char} (hpfx : pfx ∈ quickAddEscapeChars) (knownTokens : List String) :
    knownTokenMatches working pfx knownTokens = [] := by
  rw [knownTokenMatches, List.filterMap_eq_nil_iff]
  intro index _
  rw [if_neg]
  rintro ⟨hindex, -⟩
  exact hfree pfx (List.mem_of_getElem? hindex) hpfx

theorem parseTokens_plain {pfx : Char} (hpfx : pfx ∈ quickAddEscapeChars) (knownTokens : List String) :
    parseTokens working pfx knownTokens = ([], working) := by
  have hnone : getQuickAddTokenMatches working pfx knownTokens = [] := by
    simp [getQuickAddTokenMatches, quotedTokenMatches, simpleTokenMatches, richTokenMatches, takeApart,
      searchAll_quotedToken hfree, searchAll_simpleToken hfree, searchAll_richToken hfree,
      knownTokenMatches_plain hfree hpfx]
  simp [parseTokens, hnone]

omit [QuickAddRuntime] in
theorem matchQuickAddQuotedName_plain {marker : Char} (hmarker : marker ∈ quickAddEscapeChars) :
    matchQuickAddQuotedName working marker = none := by
  rw [matchQuickAddQuotedName, search_quotedName hfree hmarker, Option.bind_none]

theorem parsePerson_plain (knownPeople : List String) : parsePerson working knownPeople = (none, working) := by
  rw [parsePerson, matchQuickAddQuotedName_plain hfree (by decide), search_name hfree (by decide)]

theorem parseLevel_plain (command : String) (levels : List String) :
    parseLevel working command levels = (none, working) := by
  rw [parseLevel, search_argument hfree]

theorem parseArea_plain (areas : List Area) : parseArea working areas = (none, working) := by
  rw [parseArea, search_argument hfree]
  show parseAreaName working areas = _
  rw [parseAreaName, matchQuickAddQuotedName_plain hfree (by decide), search_name hfree (by decide)]

omit [QuickAddRuntime] in
theorem parseNote_plain : parseNote working = (none, working) := by
  rw [parseNote, search_command hfree]

theorem parseDateCommand_plain (command : DateCommand) (now : Int) (defaultScheduleTime : Option String) :
    parseDateCommand command working now defaultScheduleTime = { value := none, working, invalidCommand := none } := by
  rw [parseDateCommand, search_command hfree]

theorem parseStatus_plain : parseStatus working = (none, working) := by
  rw [parseStatus, search_status hfree]

omit [QuickAddRuntime] in
theorem parseFocus_plain : parseFocus working = (false, working) := by
  rw [parseFocus, search_focus hfree]

theorem parseProject_plain (projects : List Project) : parseProject working projects = { working } := by
  rw [parseProject, search_argument hfree]
  show parseProjectName working projects = _
  rw [parseProjectName, matchQuickAddQuotedName_plain hfree (by decide), search_name hfree (by decide)]

end

/-- A text whose control characters are all escaped is the title, and nothing else is read from it. -/
theorem parseQuickAdd_escapeControls [QuickAddRuntime] (text : String) (htrim : trim text = text)
    (hruns : HasNoRuns text.toList) (hsentinel : ¬escapeSentinel <:+: text.toList) (projects : List Project)
    (now : Int) (areas : List Area) (options : QuickAddParseOptions)
    (hdates : options.naturalLanguageDates = some false) (uuid : Nat → String) :
    parseQuickAdd (String.ofList (escapeControls text.toList)) projects now areas options uuid = { title := text } := by
  have hline : trimLine text.toList = text.toList := by
    have hlist := congrArg String.toList htrim
    rwa [trim, String.toList_ofList] at hlist
  have hinput : trim (String.ofList (escapeControls text.toList)) = String.ofList (escapeControls text.toList) := by
    rw [trim, String.toList_ofList]
    exact congrArg String.ofList (keepsSpace_escape.trimLine_eq_self hline)
  have hworking : protectEscapes (trim (String.ofList (escapeControls text.toList))).toList = shield text.toList := by
    rw [hinput, String.toList_ofList, protectEscapes_escapeControls]
  have hfree := hasNoControls_shield text.toList
  have htidy : tidy (shield text.toList) = shield text.toList :=
    tidy_eq_self (keepsSpace_shield.hasNoRuns hruns) (keepsSpace_shield.trimLine_eq_self hline)
  have htitle : restoredText (tidy (shield text.toList)) = text := by
    rw [restoredText, htidy, restoreEscapes_shield hsentinel, String.ofList_toList]
  have hat : '@' ∈ quickAddEscapeChars := by decide
  have hhash : '#' ∈ quickAddEscapeChars := by decide
  unfold parseQuickAdd
  rw [hworking]
  simp only [parseLinkCommands_plain hfree, parseTokens_plain hfree hat, parseTokens_plain hfree hhash,
    parsePerson_plain hfree, parseLevel_plain hfree, ite_self, parseArea_plain hfree, parseNote_plain hfree,
    parseDateCommand_plain hfree, parseStatus_plain hfree, parseFocus_plain hfree, parseProject_plain hfree, htitle]
  simp [detectedDateOf, hdates, listed]

/-! ### A line with every control -/

/-- Letters and digits as in ASCII, no dates and links as they are written. -/
@[reducible] def asciiQuickAdd : QuickAddRuntime where
  toRuntime := isoRuntime
  isLetter := Char.isAlpha
  isNumber := Char.isDigit
  dateValue _ _ _ _ := none
  detectTrailingDate _ _ := none
  normalizeLinkAttachmentInput s := (s, s)

def everyControl : String := "Ask \\@home +1 for #3, 5% of a/b!"

theorem parseQuickAdd_escapeControls_every :
    @parseQuickAdd asciiQuickAdd (String.ofList (escapeControls everyControl.toList)) [] 0 []
        { knownContexts := ["@home"], naturalLanguageDates := some false } (fun _ => "") = { title := everyControl } :=
  @parseQuickAdd_escapeControls asciiQuickAdd everyControl (by decide +kernel) (by decide +kernel) (by decide +kernel)
    [] 0 [] { knownContexts := ["@home"], naturalLanguageDates := some false } rfl _

end Mindwtr.Capture
