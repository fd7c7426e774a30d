import Mindwtr.Capture.QuickAdd

/-!
# The spans of a quick-add line

The parser is a list of passes. A pass recognises spans of the line it reads, and cuts each by a search for its text.
The spans are listed here with their places, pass by pass, and the title is the line that the last pass leaves.
-/

namespace Mindwtr.Capture

open Mindwtr.Js Mindwtr.Lib

/-- A text and where it stands in a line. -/
structure Span where
  index : Nat
  raw : Line
deriving DecidableEq, Repr

def Span.finish (s : Span) : Nat := s.index + s.raw.length

def Span.covers (s : Span) (place : Nat) : Bool := decide (s.index ≤ place) && decide (place < s.finish)

/-- The line without the characters of these spans; its first character has this place. -/
def cutOutFrom (place : Nat) (spans : List Span) (line : Line) : Line :=
  ((line.zipIdx place).filter fun c => !spans.any fun s => s.covers c.2).map (·.1)

def cutOut (spans : List Span) (line : Line) : Line := cutOutFrom 0 spans line

/-- What a pass does: the text of each span is searched for and cut. -/
def stripSpans (spans : List Span) (line : Line) : Line := spans.foldl (fun line s => stripToken line s.raw) line

abbrev Pass := Line → List Span

/-! ### The passes -/

def Span.ofFound (found : Regex.Found Char) : Span := { index := found.index, raw := found.text }

/-- What begins with the first character of a match that is not white space. -/
def Span.ofMarker (found : Regex.Found Char) (raw : Line) : Span :=
  { index := found.index + (found.text.takeWhile isTrimmed).length, raw }

def patternSpan (pattern : Regex Char) (working : Line) : Option Span :=
  (Regex.search pattern working).map Span.ofFound

def quotedNameSpan (marker : Char) (working : Line) : Option Span :=
  (Regex.search (quotedNamePattern marker) working).map fun found =>
    Span.ofMarker found (found.text.dropWhile isTrimmed)

section
variable [QuickAddRuntime]

def tokenSpans (pfx : Char) (knownTokens : List String) (working : Line) : List Span :=
  (getQuickAddTokenMatches working pfx knownTokens).map fun m => { index := m.index, raw := m.raw }

def personSpan (knownPeople : List String) (working : Line) : Option Span :=
  match matchQuickAddQuotedName working '%' with
  | some _ => quotedNameSpan '%' working
  | none =>
    (Regex.search (namePattern '%' "@#+/!%") working).bind fun found =>
      match matchKnownQuickAddNamePrefix (groupText found 1) knownPeople with
      | some (consumedRaw, _) => some (Span.ofMarker found ('%' :: consumedRaw))
      | none =>
        if trimLine (restoreEscapes (firstWord (groupText found 1))) = [] then none
        else some (Span.ofMarker found ('%' :: firstWord (groupText found 1)))

def levelSpan (command : String) (levels : List String) (working : Line) : Option Span :=
  if (parseLevel working command levels).1.isSome then patternSpan (argumentPattern command) working else none

def areaNameSpan (areas : List Area) (working : Line) : Option Span :=
  if (parseAreaName working areas).1.isNone then none
  else
    match matchQuickAddQuotedName working '!' with
    | some _ => quotedNameSpan '!' working
    | none =>
      (Regex.search (namePattern '!' "@#+/!%") working).bind fun found =>
        if areas = [] then some (Span.ofMarker found ('!' :: firstWord (groupText found 1)))
        else
          (matchKnownQuickAddNamePrefix (groupText found 1) (areas.map fun area => String.ofList (areaName area))).map
            fun known => Span.ofMarker found ('!' :: known.1)

def areaSpan (areas : List Area) (working : Line) : Option Span :=
  match Regex.search (argumentPattern "area") working with
  | some found => if (parseArea working areas).1.isSome then some (Span.ofFound found) else none
  | none => areaNameSpan areas working

def noteSpan (working : Line) : Option Span := patternSpan (commandPattern "note" (lazyPlus anything)) working

def dateSpan (command : DateCommand) (now : Int) (defaultScheduleTime : Option String) (working : Line) : Option Span :=
  if (parseDateCommand command working now defaultScheduleTime).value.isSome then
    patternSpan (commandPattern command.name (lazyPlus anything)) working
  else none

def projectNameSpan (projects : List Project) (working : Line) : Option Span :=
  match matchQuickAddQuotedName working '+' with
  | some _ => quotedNameSpan '+' working
  | none =>
    (Regex.search (namePattern '+' "@#+/%") working).map fun found =>
      match matchKnownQuickAddNamePrefix (groupText found 1)
          ((projects.filter fun project => !isArchivedProject project).map fun project =>
            String.ofList (projectTitleOf project)) with
      | some (consumedRaw, _) => Span.ofMarker found ('+' :: consumedRaw)
      | none => Span.ofFound found

def projectSpan (projects : List Project) (working : Line) : Option Span :=
  match Regex.search (argumentPattern "project") working with
  | some found => some (Span.ofFound found)
  | none => projectNameSpan projects working

/-- The passes after the one for links, in their order. -/
def quickAddPasses (projects : List Project) (now : Int) (areas : List Area) (options : QuickAddParseOptions) :
    List Pass :=
  [tokenSpans '@' options.knownContexts,
    tokenSpans '#' options.knownTags,
    fun working => (personSpan options.knownPeople working).toList,
    fun working => (levelSpan "energy" energyTokens working).toList,
    fun working =>
      if options.parsePriority == some false then [] else (levelSpan "priority" priorityTokens working).toList,
    fun working => (areaSpan areas working).toList,
    fun working => (noteSpan working).toList,
    fun working => (dateSpan .start now options.defaultScheduleTime working).toList,
    fun working => (dateSpan .due now none working).toList,
    fun working => (dateSpan .review now options.defaultScheduleTime working).toList,
    fun working => (patternSpan statusPattern working).toList,
    fun working => (patternSpan focusPattern working).toList,
    fun working => (projectSpan projects working).toList]

/-- The line that the passes leave. -/
def runPasses : List Pass → Line → Line
  | [], line => line
  | spansOf :: passes, line => runPasses passes (stripSpans (spansOf line) line)

/-! ### What each pass leaves -/

variable (working : Line)

theorem parseTokens_line (pfx : Char) (knownTokens : List String) :
    (parseTokens working pfx knownTokens).2 = stripSpans (tokenSpans pfx knownTokens working) working := by
  simp [parseTokens, stripSpans, tokenSpans, List.foldl_map]

omit [QuickAddRuntime] in
/-- A name in quotes has a span with its text. -/
theorem quotedNameSpan_raw {marker : Char} {raw value : Line}
    (h : matchQuickAddQuotedName working marker = some (raw, value)) :
    (quotedNameSpan marker working).map (·.raw) = some raw := by
  obtain ⟨found, hfound, hvalue⟩ := Option.bind_eq_some_iff.1 h
  dsimp only at hvalue
  split_ifs at hvalue
  obtain ⟨rfl, -⟩ := Prod.mk.inj (Option.some.inj hvalue)
  simp [quotedNameSpan, hfound, Span.ofMarker]

omit [QuickAddRuntime] in
theorem stripSpans_of_raw {span : Option Span} {raw : Line} (h : span.map (·.raw) = some raw) :
    stripSpans span.toList working = stripToken working raw := by
  obtain ⟨s, rfl, rfl⟩ := Option.map_eq_some_iff.1 h
  rfl

theorem parsePerson_line (knownPeople : List String) :
    (parsePerson working knownPeople).2 = stripSpans (personSpan knownPeople working).toList working := by
  unfold parsePerson personSpan
  cases hquoted : matchQuickAddQuotedName working '%' with
  | some quoted => exact (stripSpans_of_raw working (quotedNameSpan_raw working hquoted)).symm
  | none =>
    cases Regex.search (namePattern '%' "@#+/!%") working with
    | none => rfl
    | some found =>
      simp only [Option.bind_some]
      cases matchKnownQuickAddNamePrefix (groupText found 1) knownPeople with
      | some known => rfl
      | none =>
        simp only
        split_ifs <;> rfl

theorem parseLevel_line (command : String) (levels : List String) :
    (parseLevel working command levels).2 = stripSpans (levelSpan command levels working).toList working := by
  unfold levelSpan parseLevel patternSpan
  cases Regex.search (argumentPattern command) working with
  | none => rfl
  | some found =>
    by_cases hknown : String.ofList (lowerCase (trimLine (restoreEscapes (groupText found 1)))) ∈ levels
    · simp only [if_pos hknown]
      rfl
    · simp only [if_neg hknown]
      rfl

theorem parseAreaName_line (areas : List Area) :
    (parseAreaName working areas).2 = stripSpans (areaNameSpan areas working).toList working := by
  unfold areaNameSpan parseAreaName
  cases hquoted : matchQuickAddQuotedName working '!' with
  | some quoted =>
    simp only
    cases findAreaByName areas quoted.2 with
    | none => rfl
    | some found => exact (stripSpans_of_raw working (quotedNameSpan_raw working hquoted)).symm
  | none =>
    cases Regex.search (namePattern '!' "@#+/!%") working with
    | none => rfl
    | some found =>
      simp only [Option.bind_some]
      by_cases hareas : areas = []
      · simp only [if_pos hareas]
        by_cases hid : looksLikeId (restoreEscapes (firstWord (groupText found 1))) = true
        · simp only [if_pos hid]
          rfl
        · simp only [if_neg hid]
          rfl
      · simp only [if_neg hareas]
        cases matchKnownQuickAddNamePrefix (groupText found 1) (areas.map fun area => String.ofList (areaName area)) with
        | none => rfl
        | some known =>
          obtain hfound | ⟨area, hfound⟩ := (findAreaByName areas known.2).eq_none_or_eq_some
          · simp only [hfound]
            rfl
          · simp only [hfound]
            rfl

theorem parseArea_line (areas : List Area) :
    (parseArea working areas).2 = stripSpans (areaSpan areas working).toList working := by
  have hname := parseAreaName_line working areas
  unfold areaSpan parseArea
  cases Regex.search (argumentPattern "area") working with
  | none => exact hname
  | some found =>
    obtain harea | ⟨areaId, harea⟩ :=
      (areaOfToken areas (trimLine (restoreEscapes (groupText found 1)))).eq_none_or_eq_some
    · simp only [harea]
      rfl
    · simp only [harea]
      rfl

omit [QuickAddRuntime] in
theorem parseNote_line : (parseNote working).2 = stripSpans (noteSpan working).toList working := by
  unfold noteSpan parseNote patternSpan
  cases Regex.search (commandPattern "note" (lazyPlus anything)) working with
  | none => rfl
  | some found => rfl

theorem parseDateCommand_line (command : DateCommand) (now : Int) (defaultScheduleTime : Option String) :
    (parseDateCommand command working now defaultScheduleTime).working =
      stripSpans (dateSpan command now defaultScheduleTime working).toList working := by
  unfold dateSpan parseDateCommand patternSpan
  cases Regex.search (commandPattern command.name (lazyPlus anything)) working with
  | none => rfl
  | some found =>
    obtain hvalue | ⟨value, hvalue⟩ := (QuickAddRuntime.dateValue command
      (String.ofList (trimLine (groupText found 1))) now defaultScheduleTime).eq_none_or_eq_some
    · simp only [hvalue]
      rfl
    · simp only [hvalue]
      rfl

theorem parseStatus_line :
    (parseStatus working).2 = stripSpans (patternSpan statusPattern working).toList working := by
  unfold parseStatus patternSpan
  cases Regex.search statusPattern working with
  | none => rfl
  | some found => rfl

omit [QuickAddRuntime] in
theorem parseFocus_line : (parseFocus working).2 = stripSpans (patternSpan focusPattern working).toList working := by
  unfold parseFocus patternSpan
  cases Regex.search focusPattern working with
  | none => rfl
  | some found => rfl

theorem parseProjectName_line (projects : List Project) :
    (parseProjectName working projects).working = stripSpans (projectNameSpan projects working).toList working := by
  unfold projectNameSpan parseProjectName
  cases hquoted : matchQuickAddQuotedName working '+' with
  | some quoted =>
    have hstrip := (stripSpans_of_raw working (quotedNameSpan_raw working hquoted)).symm
    simp only
    cases findProjectByTitle projects quoted.2 with
    | none => exact hstrip
    | some found => exact hstrip
  | none =>
    cases Regex.search (namePattern '+' "@#+/%") working with
    | none => rfl
    | some found =>
      simp only [Option.map_some]
      cases matchKnownQuickAddNamePrefix (groupText found 1)
          ((projects.filter fun project => !isArchivedProject project).map fun project =>
            String.ofList (projectTitleOf project)) with
      | some known => rfl
      | none =>
        simp only
        split_ifs <;> rfl

theorem parseProject_line (projects : List Project) :
    (parseProject working projects).working = stripSpans (projectSpan projects working).toList working := by
  have hname := parseProjectName_line working projects
  unfold projectSpan parseProject
  cases Regex.search (argumentPattern "project") working with
  | none => exact hname
  | some found => rfl

end

/-- A line in which no link is written. -/
def HasNoLinks (input : String) : Prop :=
  Regex.search linkCommandPattern (protectEscapes (trim input).toList) = none

instance (input : String) : Decidable (HasNoLinks input) := inferInstanceAs (Decidable (_ = none))

theorem parseLinkCommands_none {line : Line} (h : Regex.search linkCommandPattern line = none) [QuickAddRuntime]
    (now : Int) (uuid : Nat → String) (rounds : Nat) :
    parseLinkCommandsFromWorking now uuid rounds [] line = ([], line) := by
  cases rounds with
  | zero => rfl
  | succ rounds => rw [parseLinkCommandsFromWorking, h]

/-- The title is what the passes leave. -/
theorem parseQuickAdd_title [QuickAddRuntime] {input : String} (hlinks : HasNoLinks input) (projects : List Project)
    (now : Int) (areas : List Area) (options : QuickAddParseOptions) (uuid : Nat → String) :
    (parseQuickAdd input projects now areas options uuid).title =
      restoredText (tidy (runPasses (quickAddPasses projects now areas options)
        (protectEscapes (trim input).toList))) := by
  have hlink := parseLinkCommands_none hlinks now uuid ((protectEscapes (trim input).toList).length + 1)
  have htokens := fun working => parseTokens_line working
  have hperson := fun working => parsePerson_line working
  have hlevel := fun working => parseLevel_line working
  have harea := fun working => parseArea_line working
  have hnote := fun working => parseNote_line working
  have hdate := fun working => parseDateCommand_line working
  have hstatus := fun working => parseStatus_line working
  have hfocus := fun working => parseFocus_line working
  have hproject := fun working => parseProject_line working
  unfold parseQuickAdd
  -- what the passes do plays no part in the order in which they hand the line on
  generalize parseLinkCommandsFromWorking = links at hlink ⊢
  generalize parseTokens = tokens at htokens ⊢
  generalize parsePerson = person at hperson ⊢
  generalize parseLevel = level at hlevel ⊢
  generalize parseArea = area at harea ⊢
  generalize parseNote = note at hnote ⊢
  generalize parseDateCommand = date at hdate ⊢
  generalize parseStatus = status at hstatus ⊢
  generalize parseFocus = focus at hfocus ⊢
  generalize parseProject = project at hproject ⊢
  simp only [hlink]
  rw [quickAddPasses, runPasses, ← htokens]
  rcases tokens (protectEscapes (trim input).toList) '@' options.knownContexts with ⟨contexts, line⟩
  dsimp only
  rw [runPasses, ← htokens]
  rcases tokens line '#' options.knownTags with ⟨tags, line⟩
  dsimp only
  rw [runPasses, ← hperson]
  rcases person line options.knownPeople with ⟨assignedTo, line⟩
  dsimp only
  rw [runPasses, ← hlevel]
  rcases level line "energy" energyTokens with ⟨energyLevel, line⟩
  dsimp only
  have hpriority : stripSpans (if options.parsePriority == some false then []
        else (levelSpan "priority" priorityTokens line).toList) line =
      (if options.parsePriority == some false then (none, line) else level line "priority" priorityTokens).2 := by
    split_ifs
    · rfl
    · exact (hlevel line _ _).symm
  rw [runPasses, hpriority]
  rcases (if options.parsePriority == some false then ((none : Option String), line)
    else level line "priority" priorityTokens) with ⟨priority, line⟩
  dsimp only
  rw [runPasses, ← harea]
  rcases area line areas with ⟨areaId, line⟩
  dsimp only
  rw [runPasses, ← hnote]
  rcases note line with ⟨description, line⟩
  dsimp only
  rw [runPasses, ← hdate, runPasses, ← hdate, runPasses, ← hdate, runPasses, ← hstatus]
  rcases status (date .review (date .due (date .start line now options.defaultScheduleTime).working now none).working
    now options.defaultScheduleTime).working with ⟨status, line⟩
  dsimp only
  rw [runPasses, ← hfocus]
  rcases focus line with ⟨focusToday, line⟩
  dsimp only
  rw [runPasses, ← hproject, runPasses]
  by_cases hblank : (project line projects).blank = true
  · rw [if_pos hblank]
  · rw [if_neg hblank]

end Mindwtr.Capture
