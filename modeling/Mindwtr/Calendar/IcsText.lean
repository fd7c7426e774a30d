import Mathlib

/-!
# The text of a calendar file

`unfoldIcsLines`, `unescapeIcsText` and `splitIcsTextList` of `ics.ts` against the encodings that RFC 5545 prescribes.
A text that is escaped and read back loses each backslash before an `n`; everything else is read as it was written.
-/

namespace Mindwtr.Calendar

abbrev Text := List Char

/-! ### Escapes -/

/-- Every backslash before such a character, with it, replaced. -/
def replaceEscaped (accepts : Char → Bool) (replacement : Char) : Text → Text
  | '\\' :: c :: rest =>
    if accepts c then replacement :: replaceEscaped accepts replacement rest
    else '\\' :: replaceEscaped accepts replacement (c :: rest)
  | c :: rest => c :: replaceEscaped accepts replacement rest
  | [] => []

def isNewlineMark (c : Char) : Bool := c == 'n' || c == 'N'

def unescapeIcsText (value : Text) : Text :=
  let value := replaceEscaped (· == '\\') '\\' value
  let value := replaceEscaped isNewlineMark '\n' value
  let value := replaceEscaped (· == ',') ',' value
  replaceEscaped (· == ';') ';' value

/-- The parts of a list so far and the part that is being read. -/
def splitIcsFrom (current : Text) : Text → List Text
  | '\\' :: c :: rest => splitIcsFrom (current ++ ['\\', c]) rest
  | ',' :: rest => current :: splitIcsFrom [] rest
  | c :: rest => splitIcsFrom (current ++ [c]) rest
  | [] => [current]

def splitIcsTextList (value : Text) : List Text := splitIcsFrom [] value

/-- The escapes of RFC 5545; a line break is written with either letter. -/
def escapeIcsText (capital : Bool) (text : Text) : Text :=
  text.flatMap fun c =>
    if c = '\\' then ['\\', '\\']
    else if c = '\n' then ['\\', if capital then 'N' else 'n']
    else if c = ',' ∨ c = ';' then ['\\', c]
    else [c]

/-! ### Lines -/

/-- `.replace(/\r\n/g, '\n')`. -/
def replaceCrLf : Text → Text
  | '\r' :: '\n' :: rest => '\n' :: replaceCrLf rest
  | c :: rest => c :: replaceCrLf rest
  | [] => []

def normalizeLineEnds (input : Text) : Text := (replaceCrLf input).map fun c => if c = '\r' then '\n' else c

def isFoldMark (c : Char) : Bool := c == ' ' || c == '\t'

/-- What a raw line does to the lines before it, of which the last is the first of the list. -/
def addRawLine (lines : List Text) (raw : Text) : List Text :=
  match lines, raw with
  | line :: before, c :: rest => if isFoldMark c then (line ++ rest) :: before else raw :: lines
  | _, _ => raw :: lines

def unfoldIcsLines (input : Text) : List Text :=
  (((normalizeLineEnds input).splitOn '\n').foldl addRawLine []).reverse

/-- A content line that RFC 5545 folds: after the first part each begins with a blank or a tab on a line of its own. -/
structure FoldedLine where
  first : Text
  parts : List (Bool × Text)
  noBreak : ∀ c ∈ first ++ parts.flatMap (·.2), c ≠ '\r' ∧ c ≠ '\n'

namespace FoldedLine

def content (line : FoldedLine) : Text := line.first ++ line.parts.flatMap (·.2)

def foldMark (tab : Bool) : Char := if tab then '\t' else ' '

def folded (line : FoldedLine) : Text :=
  line.first ++ line.parts.flatMap fun part => '\r' :: '\n' :: foldMark part.1 :: part.2

end FoldedLine

/-! ### Reading escapes back -/

section
variable {accepts : Char → Bool} {replacement : Char}

theorem replaceEscaped_plain {c : Char} (hc : c ≠ '\\') (rest : Text) :
    replaceEscaped accepts replacement (c :: rest) = c :: replaceEscaped accepts replacement rest := by
  rw [replaceEscaped]
  intro d rest heq
  exact absurd heq hc

theorem replaceEscaped_slash {c : Char} (hc : accepts c = true) (rest : Text) :
    replaceEscaped accepts replacement ('\\' :: c :: rest) =
      replacement :: replaceEscaped accepts replacement rest := by
  rw [replaceEscaped, if_pos hc]

/-- A backslash stays before a character that is not of the kind. -/
theorem replaceEscaped_keeps {rest : Text} (h : ∀ c ∈ rest.head?, accepts c = false) :
    replaceEscaped accepts replacement ('\\' :: rest) = '\\' :: replaceEscaped accepts replacement rest := by
  cases rest with
  | nil => rfl
  | cons c rest =>
    have hc : accepts c = false := h c rfl
    rw [replaceEscaped, if_neg (by simp [hc])]

theorem length_replaceEscaped_le (text : Text) : (replaceEscaped accepts replacement text).length ≤ text.length := by
  fun_induction replaceEscaped accepts replacement text with
  | case1 c rest hc ih =>
    simp only [List.length_cons]
    omega
  | case2 c rest hc ih =>
    simp only [List.length_cons] at ih ⊢
    omega
  | case3 c rest hne ih =>
    simp only [List.length_cons]
    omega
  | case4 => exact Nat.le_refl _

/-- A backslash stands before a character of the kind. -/
def HasEscaped (accepts : Char → Bool) (text : Text) : Prop := ∃ c, accepts c = true ∧ ['\\', c] <:+: text

theorem hasEscaped_cons {c : Char} {rest : Text} :
    HasEscaped accepts (c :: rest) ↔
      (c = '\\' ∧ ∃ d ∈ rest.head?, accepts d = true) ∨ HasEscaped accepts rest := by
  constructor
  · rintro ⟨d, hd, hinfix⟩
    rcases List.infix_cons_iff.1 hinfix with hprefix | hinfix
    · obtain ⟨rfl, after, hafter⟩ := List.cons_prefix_cons.1 hprefix
      exact .inl ⟨rfl, d, by simp [← hafter], hd⟩
    · exact .inr ⟨d, hd, hinfix⟩
  · rintro (⟨rfl, d, hhead, hd⟩ | ⟨d, hd, hinfix⟩)
    · cases rest with
      | nil => cases hhead
      | cons e rest =>
        obtain rfl : e = d := Option.some.inj hhead
        exact ⟨e, hd, [], rest, rfl⟩
    · exact ⟨d, hd, List.infix_cons_iff.2 (.inr hinfix)⟩

theorem not_hasEscaped_nil : ¬HasEscaped accepts [] := by
  rintro ⟨c, -, hinfix⟩
  cases List.infix_nil.1 hinfix

theorem length_replaceEscaped_lt {text : Text} (h : HasEscaped accepts text) :
    (replaceEscaped accepts replacement text).length < text.length := by
  fun_induction replaceEscaped accepts replacement text with
  | case1 c rest hc ih =>
    have hle := @length_replaceEscaped_le accepts replacement rest
    simp only [List.length_cons]
    omega
  | case2 c rest hc ih =>
    rcases hasEscaped_cons.1 h with ⟨-, d, hd, haccepts⟩ | hrest
    · obtain rfl : c = d := Option.some.inj hd
      exact absurd haccepts hc
    · have hlt := ih hrest
      rw [List.length_cons, @List.length_cons _ _ (c :: rest)]
      exact Nat.succ_lt_succ hlt
  | case3 c rest hne ih =>
    rcases hasEscaped_cons.1 h with ⟨rfl, d, hd, -⟩ | hrest
    · cases rest with
      | nil => cases hd
      | cons e rest => exact absurd rfl (hne e rest rfl)
    · exact Nat.succ_lt_succ (ih hrest)
  | case4 => exact absurd h not_hasEscaped_nil

theorem replaceEscaped_eq_self {text : Text} (h : ¬HasEscaped accepts text) :
    replaceEscaped accepts replacement text = text := by
  induction text with
  | nil => rfl
  | cons c rest ih =>
    rw [hasEscaped_cons, not_or] at h
    by_cases hc : c = '\\'
    · subst hc
      rw [replaceEscaped_keeps, ih h.2]
      intro d hd
      by_contra hne
      exact h.1 ⟨rfl, d, hd, by simpa using hne⟩
    · rw [replaceEscaped_plain hc, ih h.2]

theorem replaceEscaped_eq_self_iff (text : Text) :
    replaceEscaped accepts replacement text = text ↔ ¬HasEscaped accepts text := by
  constructor
  · intro heq h
    have hlt := @length_replaceEscaped_lt accepts replacement _ h
    rw [heq] at hlt
    exact Nat.lt_irrefl _ hlt
  · exact replaceEscaped_eq_self

end

/-- A backslash before every character of a list. -/
def slashed (chars : List Char) (text : Text) : Text := text.flatMap fun c => if c ∈ chars then ['\\', c] else [c]

section
variable {chars : List Char} {c : Char} (text : Text)

theorem slashed_mem (hc : c ∈ chars) : slashed chars (c :: text) = '\\' :: c :: slashed chars text := by
  simp [slashed, hc]

theorem slashed_not_mem (hc : c ∉ chars) : slashed chars (c :: text) = c :: slashed chars text := by
  simp [slashed, hc]

/-- A slashed text begins with none of the characters. -/
theorem head_slashed (hchars : '\\' ∉ chars) : ∀ d ∈ (slashed chars text).head?, d ∉ chars := by
  intro d hd
  cases text with
  | nil => cases hd
  | cons e text =>
    by_cases he : e ∈ chars
    · rw [slashed_mem text he] at hd
      obtain rfl : '\\' = d := Option.some.inj hd
      exact hchars
    · rw [slashed_not_mem text he] at hd
      obtain rfl : e = d := Option.some.inj hd
      exact he

end

/-- Reading back the escapes of one character leaves those of the others. -/
theorem replaceEscaped_slashed {x : Char} {chars : List Char} (hchars : '\\' ∉ x :: chars) (hx : x ∉ chars)
    (text : Text) : replaceEscaped (· == x) x (slashed (x :: chars) text) = slashed chars text := by
  induction text with
  | nil => rfl
  | cons c text ih =>
    by_cases hcx : c = x
    · subst hcx
      rw [slashed_mem text List.mem_cons_self, slashed_not_mem text hx, replaceEscaped_slash (by simp), ih]
    · by_cases hc : c ∈ chars
      · have hslash : c ≠ '\\' := fun heq => hchars (heq ▸ List.mem_cons_of_mem x hc)
        rw [slashed_mem text (List.mem_cons_of_mem x hc), slashed_mem text hc, replaceEscaped_keeps (by simp [hcx]),
          replaceEscaped_plain hslash, ih]
      · have hnone : c ∉ x :: chars := by simp [hcx, hc]
        rw [slashed_not_mem text hnone, slashed_not_mem text hc]
        by_cases hslash : c = '\\'
        · subst hslash
          rw [replaceEscaped_keeps, ih]
          intro d hd
          have hnot := head_slashed text hchars d hd
          simp only [List.mem_cons, not_or] at hnot
          simp [hnot.1]
        · rw [replaceEscaped_plain hslash, ih]

/-! ### Texts -/

/-- The escapes of a text whose backslashes are not escaped. -/
def escapeBreaks (capital : Bool) (text : Text) : Text :=
  text.flatMap fun c =>
    if c = '\n' then ['\\', if capital then 'N' else 'n'] else if c = ',' ∨ c = ';' then ['\\', c] else [c]

section
variable (capital : Bool) (text : Text)

theorem escapeBreaks_newline : escapeBreaks capital ('\n' :: text) =
    '\\' :: (if capital then 'N' else 'n') :: escapeBreaks capital text := rfl

theorem escapeBreaks_mark {c : Char} (hc : c = ',' ∨ c = ';') :
    escapeBreaks capital (c :: text) = '\\' :: c :: escapeBreaks capital text := by
  have hne : c ≠ '\n' := by rcases hc with rfl | rfl <;> decide
  simp [escapeBreaks, hne, hc]

theorem escapeBreaks_plain {c : Char} (hne : c ≠ '\n') (hc : ¬(c = ',' ∨ c = ';')) :
    escapeBreaks capital (c :: text) = c :: escapeBreaks capital text := by
  simp [escapeBreaks, hne, hc]

/-- The escapes of backslashes are read first. -/
theorem replaceEscaped_escapeIcsText :
    replaceEscaped (· == '\\') '\\' (escapeIcsText capital text) = escapeBreaks capital text := by
  induction text with
  | nil => rfl
  | cons c text ih =>
    by_cases hslash : c = '\\'
    · subst hslash
      have hcons : escapeIcsText capital ('\\' :: text) = '\\' :: '\\' :: escapeIcsText capital text := rfl
      rw [hcons, replaceEscaped_slash rfl, ih, escapeBreaks_plain capital text (by decide) (by decide)]
    · by_cases hbreak : c = '\n'
      · subst hbreak
        have hcons : escapeIcsText capital ('\n' :: text) =
            '\\' :: (if capital then 'N' else 'n') :: escapeIcsText capital text := rfl
        have hmark : (if capital then 'N' else 'n') ≠ '\\' := by cases capital <;> decide
        rw [hcons, replaceEscaped_keeps (by simpa using hmark), replaceEscaped_plain hmark, ih, escapeBreaks_newline]
      · by_cases hc : c = ',' ∨ c = ';'
        · have hcons : escapeIcsText capital (c :: text) = '\\' :: c :: escapeIcsText capital text := by
            simp [escapeIcsText, hslash, hbreak, hc]
          rw [hcons, replaceEscaped_keeps (by simpa using hslash), replaceEscaped_plain hslash, ih,
            escapeBreaks_mark capital text hc]
        · have hcons : escapeIcsText capital (c :: text) = c :: escapeIcsText capital text := by
            simp [escapeIcsText, hslash, hbreak, hc]
          rw [hcons, replaceEscaped_plain hslash, ih, escapeBreaks_plain capital text hbreak hc]

theorem head_escapeBreaks (h : ∀ c ∈ text.head?, isNewlineMark c = false) :
    ∀ c ∈ (escapeBreaks capital text).head?, isNewlineMark c = false := by
  intro d hd
  cases text with
  | nil => cases hd
  | cons c text =>
    by_cases hbreak : c = '\n'
    · subst hbreak
      obtain rfl : '\\' = d := Option.some.inj hd
      rfl
    · by_cases hc : c = ',' ∨ c = ';'
      · rw [escapeBreaks_mark capital text hc] at hd
        obtain rfl : '\\' = d := Option.some.inj hd
        rfl
      · rw [escapeBreaks_plain capital text hbreak hc] at hd
        obtain rfl : c = d := Option.some.inj hd
        exact h c rfl

end

/-- The line breaks are read next, with every backslash that stands before an `n` in the text. -/
theorem replaceEscaped_escapeBreaks (capital : Bool) (text : Text) :
    replaceEscaped isNewlineMark '\n' (escapeBreaks capital text) =
      slashed [',', ';'] (replaceEscaped isNewlineMark '\n' text) := by
  have hmark : isNewlineMark (if capital then 'N' else 'n') = true := by cases capital <;> rfl
  fun_induction replaceEscaped isNewlineMark '\n' text with
  | case1 c rest hc ih =>
    have hbreak : c ≠ '\n' := by
      rintro rfl
      cases hc
    have hplain : ¬(c = ',' ∨ c = ';') := by rintro (rfl | rfl) <;> cases hc
    rw [escapeBreaks_plain capital _ (by decide) (by decide), escapeBreaks_plain capital rest hbreak hplain,
      replaceEscaped_slash hc, ih, slashed_not_mem _ (by decide)]
  | case2 c rest hc ih =>
    have hhead := head_escapeBreaks capital (c :: rest) (by simpa using hc)
    rw [escapeBreaks_plain capital _ (by decide) (by decide), replaceEscaped_keeps hhead, ih,
      slashed_not_mem _ (by decide)]
  | case3 c rest hne ih =>
    by_cases hslash : c = '\\'
    · subst hslash
      cases rest with
      | nil => rfl
      | cons d rest => exact absurd rfl (hne d rest rfl)
    · by_cases hbreak : c = '\n'
      · subst hbreak
        rw [escapeBreaks_newline, replaceEscaped_slash hmark, ih, slashed_not_mem _ (by decide)]
      · by_cases hc : c = ',' ∨ c = ';'
        · have hnot : isNewlineMark c = false := by rcases hc with rfl | rfl <;> rfl
          rw [escapeBreaks_mark capital rest hc, replaceEscaped_keeps (by simpa using hnot),
            replaceEscaped_plain hslash, ih, slashed_mem _ (by simpa using hc)]
        · rw [escapeBreaks_plain capital rest hbreak hc, replaceEscaped_plain hslash, ih,
            slashed_not_mem _ (by simpa using hc)]
  | case4 => rfl

/-- A text comes back with its backslashes before an `n` read as line breaks. -/
theorem unescapeIcsText_escapeIcsText (capital : Bool) (text : Text) :
    unescapeIcsText (escapeIcsText capital text) = replaceEscaped isNewlineMark '\n' text := by
  have hnone : ∀ text : Text, slashed [] text = text := by
    intro text
    simp [slashed]
  rw [unescapeIcsText, replaceEscaped_escapeIcsText, replaceEscaped_escapeBreaks]
  show replaceEscaped _ _ (replaceEscaped _ _ _) = _
  rw [replaceEscaped_slashed (by decide) (by decide), replaceEscaped_slashed (by decide) (by decide), hnone]

/-! ### Lists -/

theorem splitIcsFrom_plain {c : Char} (hslash : c ≠ '\\') (hcomma : c ≠ ',') (current rest : Text) :
    splitIcsFrom current (c :: rest) = splitIcsFrom (current ++ [c]) rest := by
  rw [splitIcsFrom]
  · intro d rest heq
    exact absurd heq hslash
  · exact hcomma

/-- An escaped text is one part. -/
theorem splitIcsFrom_escapeIcsText (capital : Bool) (text current rest : Text) :
    splitIcsFrom current (escapeIcsText capital text ++ rest) =
      splitIcsFrom (current ++ escapeIcsText capital text) rest := by
  induction text generalizing current with
  | nil => simp [escapeIcsText]
  | cons c text ih =>
    have hpair : ∀ d : Char, escapeIcsText capital (c :: text) = '\\' :: d :: escapeIcsText capital text →
        splitIcsFrom current (escapeIcsText capital (c :: text) ++ rest) =
          splitIcsFrom (current ++ escapeIcsText capital (c :: text)) rest := by
      intro d hcons
      rw [hcons, List.cons_append, List.cons_append, splitIcsFrom, ih, List.append_assoc]
      rfl
    by_cases hslash : c = '\\'
    · subst hslash
      exact hpair '\\' rfl
    · by_cases hbreak : c = '\n'
      · subst hbreak
        exact hpair _ rfl
      · by_cases hc : c = ',' ∨ c = ';'
        · apply hpair c
          simp [escapeIcsText, hslash, hbreak, hc]
        · have hcons : escapeIcsText capital (c :: text) = c :: escapeIcsText capital text := by
            simp [escapeIcsText, hslash, hbreak, hc]
          rw [not_or] at hc
          rw [hcons, List.cons_append, splitIcsFrom_plain hslash hc.1, ih, List.append_assoc]
          rfl

def escapeIcsTextList (capital : Bool) (texts : List Text) : Text :=
  List.intercalate [','] (texts.map (escapeIcsText capital))

theorem splitIcsTextList_escapeIcsTextList (capital : Bool) {texts : List Text} (hne : texts ≠ []) :
    splitIcsTextList (escapeIcsTextList capital texts) = texts.map (escapeIcsText capital) := by
  unfold splitIcsTextList escapeIcsTextList
  induction texts with
  | nil => exact absurd rfl hne
  | cons text texts ih =>
    cases texts with
    | nil =>
      have hpart := splitIcsFrom_escapeIcsText capital text [] []
      rw [List.append_nil, List.nil_append] at hpart
      simpa [splitIcsFrom] using hpart
    | cons next texts =>
      have hpart := splitIcsFrom_escapeIcsText capital text []
        (',' :: List.intercalate [','] ((next :: texts).map (escapeIcsText capital)))
      rw [splitIcsFrom, ih (List.cons_ne_nil next texts)] at hpart
      rw [List.map_cons, List.map_cons, List.intercalate_cons_cons]
      simpa using hpart

/-- A list comes back when it has a part and every part comes back. -/
theorem splitIcsTextList_unescape_iff (capital : Bool) (texts : List Text) :
    (splitIcsTextList (escapeIcsTextList capital texts)).map unescapeIcsText = texts ↔
      texts ≠ [] ∧ ∀ text ∈ texts, ¬HasEscaped isNewlineMark text := by
  by_cases hne : texts = []
  · subst hne
    simp [escapeIcsTextList, splitIcsTextList, splitIcsFrom]
  · rw [splitIcsTextList_escapeIcsTextList capital hne, List.map_map]
    have hparts : texts.map (unescapeIcsText ∘ escapeIcsText capital) = texts ↔
        ∀ text ∈ texts, unescapeIcsText (escapeIcsText capital text) = text := by
      constructor
      · intro h text hmem
        exact List.map_inj_left.1 (h.trans (List.map_id texts).symm) text hmem
      · intro h
        exact (List.map_congr_left h).trans (List.map_id texts)
    rw [hparts]
    simp only [unescapeIcsText_escapeIcsText, replaceEscaped_eq_self_iff, ne_eq, hne, not_false_eq_true, true_and]

/-! ### Folded lines -/

theorem addRawLine_mark {c : Char} (hc : isFoldMark c = true) (line rest : Text) (before : List Text) :
    addRawLine (line :: before) (c :: rest) = (line ++ rest) :: before := by
  simp [addRawLine, hc]

/-- A text without carriage returns. -/
theorem replaceCrLf_append {text : Text} (h : ∀ c ∈ text, c ≠ '\r') (rest : Text) :
    replaceCrLf (text ++ rest) = text ++ replaceCrLf rest := by
  induction text with
  | nil => rfl
  | cons c text ih =>
    have hcons : replaceCrLf (c :: (text ++ rest)) = c :: replaceCrLf (text ++ rest) := by
      rw [replaceCrLf]
      intro rest heq
      exact absurd heq (h c List.mem_cons_self)
    rw [List.cons_append, hcons, ih fun d hd => h d (List.mem_cons_of_mem c hd)]
    rfl

namespace FoldedLine

/-- The raw lines, as they stand between line ends. -/
def rawLines (first : Text) (parts : List (Bool × Text)) : List Text :=
  first :: parts.map fun part => foldMark part.1 :: part.2

theorem foldMark_plain (tab : Bool) : foldMark tab ≠ '\r' ∧ foldMark tab ≠ '\n' := by cases tab <;> decide

theorem isFoldMark_foldMark (tab : Bool) : isFoldMark (foldMark tab) = true := by cases tab <;> rfl

theorem normalizeLineEnds_folded (line : FoldedLine) :
    normalizeLineEnds line.folded = List.intercalate ['\n'] (rawLines line.first line.parts) := by
  obtain ⟨first, parts, hplain⟩ := line
  show (replaceCrLf (first ++ parts.flatMap fun part => '\r' :: '\n' :: foldMark part.1 :: part.2)).map _ = _
  induction parts generalizing first with
  | nil =>
    simp only [List.flatMap_nil, List.append_nil] at hplain ⊢
    have hnone := replaceCrLf_append (fun c hc => (hplain c hc).1) []
    rw [List.append_nil] at hnone
    rw [hnone, replaceCrLf, List.append_nil]
    have hmap : first.map (fun c => if c = '\r' then '\n' else c) = first := by
      rw [List.map_congr_left fun c hc => if_neg (hplain c hc).1, List.map_id']
    simpa [rawLines] using hmap
  | cons part parts ih =>
    obtain ⟨tab, text⟩ := part
    simp only [List.flatMap_cons] at hplain ⊢
    have hfirst : ∀ c ∈ first, c ≠ '\r' := fun c hc => (hplain c (List.mem_append_left _ hc)).1
    have hnext : ∀ c ∈ (foldMark tab :: text) ++ parts.flatMap (·.2), c ≠ '\r' ∧ c ≠ '\n' := by
      intro c hc
      rw [List.cons_append, List.mem_cons] at hc
      rcases hc with rfl | hc
      · exact foldMark_plain tab
      · exact hplain c (List.mem_append_right _ hc)
    have hmap : first.map (fun c => if c = '\r' then '\n' else c) = first := by
      rw [List.map_congr_left fun c hc => if_neg (hfirst c hc), List.map_id']
    have hrest := ih (foldMark tab :: text) hnext
    rw [List.cons_append, List.cons_append, replaceCrLf_append hfirst, replaceCrLf, List.map_append, hmap,
      List.map_cons, hrest]
    simp [rawLines, List.intercalate_cons_cons]

theorem foldl_addRawLine (first : Text) (parts : List (Bool × Text)) :
    (rawLines first parts).foldl addRawLine [] = [first ++ parts.flatMap (·.2)] := by
  have hparts : ∀ line : Text,
      (parts.map fun part => foldMark part.1 :: part.2).foldl addRawLine [line] = [line ++ parts.flatMap (·.2)] := by
    induction parts with
    | nil =>
      intro line
      simp
    | cons part parts ih =>
      intro line
      rw [List.map_cons, List.foldl_cons, addRawLine_mark (isFoldMark_foldMark part.1), ih, List.append_assoc]
      rfl
  exact hparts first

theorem unfoldIcsLines_folded (line : FoldedLine) : unfoldIcsLines line.folded = [line.content] := by
  have hbreaks : ∀ raw ∈ rawLines line.first line.parts, '\n' ∉ raw := by
    intro raw hraw hmem
    rcases List.mem_cons.1 hraw with rfl | hraw
    · exact (line.noBreak _ (List.mem_append_left _ hmem)).2 rfl
    · obtain ⟨part, hpart, rfl⟩ := List.mem_map.1 hraw
      rcases List.mem_cons.1 hmem with heq | hmem
      · exact (foldMark_plain part.1).2 heq.symm
      · exact (line.noBreak _ (List.mem_append_right _ (List.mem_flatMap.2 ⟨part, hpart, hmem⟩))).2 rfl
  rw [unfoldIcsLines, normalizeLineEnds_folded, List.splitOn_intercalate _ hbreaks (List.cons_ne_nil _ _),
    foldl_addRawLine]
  rfl

end FoldedLine

/-- A text is read back exactly when no backslash stands before an `n` in it, a list when it has a part and all its
parts are; a folded line always is. -/
theorem icsText_decodes_iff (capital : Bool) (text : Text) (texts : List Text) (line : FoldedLine) :
    (unescapeIcsText (escapeIcsText capital text) = text ↔ ¬HasEscaped isNewlineMark text) ∧
      ((splitIcsTextList (escapeIcsTextList capital texts)).map unescapeIcsText = texts ↔
        texts ≠ [] ∧ ∀ text ∈ texts, ¬HasEscaped isNewlineMark text) ∧
      unfoldIcsLines line.folded = [line.content] := by
  refine ⟨?_, splitIcsTextList_unescape_iff capital texts, line.unfoldIcsLines_folded⟩
  rw [unescapeIcsText_escapeIcsText, replaceEscaped_eq_self_iff]

/-- A path of Windows is broken in two lines. -/
theorem unescapeIcsText_path :
    unescapeIcsText (escapeIcsText false ['C', ':', '\\', 'n', 'o', 't', 'e', 's']) =
        ['C', ':', '\n', 'o', 't', 'e', 's'] ∧
      ¬∀ capital text, unescapeIcsText (escapeIcsText capital text) = text := by
  have hpath : unescapeIcsText (escapeIcsText false ['C', ':', '\\', 'n', 'o', 't', 'e', 's']) =
      ['C', ':', '\n', 'o', 't', 'e', 's'] := by decide
  refine ⟨hpath, ?_⟩
  intro h
  rw [h] at hpath
  exact absurd hpath (by decide)

end Mindwtr.Calendar
