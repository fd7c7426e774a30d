import Mindwtr.Capture.QuickAddText
import Mindwtr.Entity.TaskLoad

/-!
# Quick add

`parseQuickAdd` of `quick-add.ts`. The patterns run one after the other over a line from which every token that was
applied has been cut. Reading a date in natural language and normalizing a link are taken as they are given by the
engine and its libraries. The projects, areas and names that are not given are none.
-/

namespace Mindwtr.Capture

open Mindwtr.Js Mindwtr.Lib

/-! ### What is around the parser -/

inductive DateCommand where
  | start | due | review
deriving DecidableEq, Repr

def DateCommand.name : DateCommand → String
  | .start => "start"
  | .due => "due"
  | .review => "review"

structure QuickAddDetectedDate where
  date : String
  matchedText : String
  titleWithoutDate : String
deriving DecidableEq, Repr

class QuickAddRuntime extends Runtime where
  /-- `\p{L}` and `\p{N}`. -/
  isLetter : Char → Bool
  isNumber : Char → Bool
  /-- The value that a date command gets from its text, at a time and with the default time of the schedule. -/
  dateValue : DateCommand → String → Int → Option String → Option String
  detectTrailingDate : String → Int → Option QuickAddDetectedDate
  /-- The title and the address of a link. -/
  normalizeLinkAttachmentInput : String → String × String

structure QuickAddParseOptions where
  knownContexts : List String := []
  knownTags : List String := []
  knownPeople : List String := []
  defaultScheduleTime : Option String := none
  preserveText : Option Bool := none
  naturalLanguageDates : Option Bool := none
  parsePriority : Option Bool := none
deriving DecidableEq, Repr

/-- The properties of a task that a line can name. -/
structure QuickAddProps where
  status : Option String := none
  startTime : Option String := none
  dueDate : Option String := none
  reviewAt : Option String := none
  description : Option String := none
  contexts : Option (List String) := none
  tags : Option (List String) := none
  attachments : Option (List Attachment) := none
  projectId : Option String := none
  areaId : Option String := none
  energyLevel : Option String := none
  priority : Option String := none
  assignedTo : Option String := none
  isFocusedToday : Option Bool := none
deriving DecidableEq, Repr

structure QuickAddResult where
  title : String
  props : QuickAddProps := {}
  projectTitle : Option String := none
  invalidDateCommands : Option (List String) := none
  detectedDate : Option QuickAddDetectedDate := none
deriving DecidableEq, Repr

/-- The text that a found group writes. -/
def groupText (found : Regex.Found Char) (number : Nat) : Line := (found.group? number).getD []

/-- A value that is not empty, else none. -/
def nonEmpty (s : String) : Option String := if s = "" then none else some s

def restoredText (line : Line) : String := String.ofList (restoreEscapes line)

section
variable [QuickAddRuntime]

def lowerCase (line : Line) : Line := (Runtime.toLowerCase (String.ofList line)).toList

/-- `[\p{L}\p{N}_-]`. -/
def isTokenChar (c : Char) : Bool :=
  QuickAddRuntime.isLetter c || QuickAddRuntime.isNumber c || c == '_' || c == '-'

section
open Regex

def simpleTaskTokenPattern : Regex Char := seq (oneOfChars "@#") (plus (letter isTokenChar))

def richTaskTokenPattern : Regex Char :=
  sequence [wordStart,
    group 1 (sequence [oneOfChars "@#", notAhead (letter fun c => isTrimmed c || isTokenChar c),
      lazyPlus (noneOfChars "@#+/!%")]),
    quickAddInlineControlBoundary]

end

/-! ### Links -/

def buildQuickAddLinkAttachment (input : String) (now : Int) (id : String) : Option Attachment :=
  let (title, uri) := QuickAddRuntime.normalizeLinkAttachmentInput input
  if isBlank uri then none
  else
    let createdAt := some (Json.str (Runtime.toISOString now))
    some { id, kind := some (.str "link"), title := some (.str title), uri := some (.str uri), createdAt,
           updatedAt := createdAt }

def linkCommandPattern : Regex Char := commandPattern "link" (.many false anything)

/-- The links that are still in the line, and the line without their commands; every command shortens it. -/
def parseLinkCommandsFromWorking (now : Int) (uuid : Nat → String) : Nat → List Attachment → Line →
    List Attachment × Line
  | 0, attachments, working => (attachments, working)
  | rounds + 1, attachments, working =>
    match Regex.search linkCommandPattern working with
    | none => (attachments, working)
    | some found =>
      let rawLink := restoredText (trimLine (groupText found 1))
      let attachment := (nonEmpty rawLink).bind fun rawLink =>
        buildQuickAddLinkAttachment rawLink now (uuid attachments.length)
      let stripped := stripToken working found.text
      let attachments := attachments ++ attachment.toList
      if stripped = working then (attachments, working)
      else parseLinkCommandsFromWorking now uuid rounds attachments stripped

/-! ### Contexts and tags -/

structure QuickAddTokenMatch where
  token : Line
  raw : Line
  index : Nat
  finish : Nat
deriving DecidableEq, Repr

def normalizeKnownQuickAddToken (pfx : Char) (token : String) : Option Line :=
  let trimmed := collapseWhitespace (restoreEscapes token.toList)
  if trimmed = [] ∨ trimmed = [pfx] then none else some (if [pfx].isPrefixOf trimmed then trimmed else pfx :: trimmed)

def isQuickAddTokenStartBoundary (working : Line) (index : Nat) : Bool :=
  index == 0 || (working[index - 1]?).any isTrimmed

def isQuickAddTokenEndBoundary (working : Line) (index : Nat) : Bool :=
  (working[index]?).all fun c => isTrimmed c || !isTokenChar c

/-- A match of a token that is the end of what was found. -/
def matchAtEnd (found : Regex.Found Char) (raw token : Line) : QuickAddTokenMatch :=
  let index := found.index + (found.text.length - raw.length)
  { token, raw, index, finish := index + raw.length }

def quotedTokenMatches (working : Line) (pfx : Char) : List QuickAddTokenMatch :=
  (Regex.searchAll quotedTokenPattern working).filterMap fun found =>
    let raw := found.text.dropWhile isTrimmed
    let value := collapseWhitespace (unescapeQuotes (((found.group? 2).or (found.group? 3)).getD []))
    if groupText found 1 ≠ [pfx] ∨ value = [] then none else some (matchAtEnd found raw (pfx :: restoreEscapes value))

/-- The tokens that are known, each once, the longest first. -/
def knownTokenCandidates (pfx : Char) (knownTokens : List String) : List Line :=
  ((knownTokens.filterMap (normalizeKnownQuickAddToken pfx)).eraseDups).mergeSort fun a b => b.length ≤ a.length

def knownTokenMatches (working : Line) (pfx : Char) (knownTokens : List String) : List QuickAddTokenMatch :=
  (List.range working.length).filterMap fun index =>
    if working[index]? = some pfx ∧ isQuickAddTokenStartBoundary working index = true then
      ((knownTokenCandidates pfx knownTokens).find? fun token =>
        ((lowerCase working).drop index).take token.length == lowerCase token &&
          isQuickAddTokenEndBoundary working (index + token.length)).map fun candidate =>
        { token := candidate, raw := (working.drop index).take candidate.length, index
          finish := index + candidate.length }
    else none

def simpleTokenMatches (working : Line) (pfx : Char) : List QuickAddTokenMatch :=
  (Regex.searchAll simpleTaskTokenPattern working).filterMap fun found =>
    if [pfx].isPrefixOf found.text && isQuickAddTokenStartBoundary working found.index then
      some (matchAtEnd found found.text (restoreEscapes found.text))
    else none

def richTokenMatches (working : Line) (pfx : Char) : List QuickAddTokenMatch :=
  (Regex.searchAll richTaskTokenPattern working).filterMap fun found =>
    let raw := groupText found 1
    let token := collapseWhitespace raw
    if [pfx].isPrefixOf token then some (matchAtEnd found raw (restoreEscapes token)) else none

/-- From left to right, those that do not begin inside the one that was taken before. -/
def takeApart : Nat → List QuickAddTokenMatch → List QuickAddTokenMatch
  | _, [] => []
  | lastEnd, m :: rest => if m.index < lastEnd then takeApart lastEnd rest else m :: takeApart m.finish rest

/-- The leftmost first, of those at one place the longest. -/
def beforeMatch (a b : QuickAddTokenMatch) : Bool :=
  decide (a.index < b.index) || (a.index == b.index && decide (b.finish - b.index ≤ a.finish - a.index))

def getQuickAddTokenMatches (working : Line) (pfx : Char) (knownTokens : List String) : List QuickAddTokenMatch :=
  takeApart 0 ((quotedTokenMatches working pfx ++ knownTokenMatches working pfx knownTokens ++
    simpleTokenMatches working pfx ++ richTokenMatches working pfx).mergeSort beforeMatch)

/-- The tokens of a line, each once, and the line without them. -/
def parseTokens (working : Line) (pfx : Char) (knownTokens : List String) : List String × Line :=
  let found := getQuickAddTokenMatches working pfx knownTokens
  ((found.map fun m => String.ofList m.token).eraseDups, found.foldl (fun working m => stripToken working m.raw) working)

/-! ### Names -/

def normalizeQuickAddName (name : Line) : Line := lowerCase (collapseWhitespace name)

/-- The ends of the words of a text. -/
def wordEnds (rawToken : Line) : List Nat :=
  (Regex.searchAll (.plus (.letter fun c => !isTrimmed c)) rawToken).map fun found => found.index + found.text.length

/-- The longest known name that the text begins with, as it stands there and as a value. -/
def matchKnownQuickAddNamePrefix (rawToken : Line) (knownNames : List String) : Option (Line × Line) :=
  (wordEnds rawToken).reverse.findSome? fun finish =>
    let consumedRaw := rawToken.take finish
    let value := collapseWhitespace (restoreEscapes consumedRaw)
    if knownNames.any fun name => normalizeQuickAddName name.toList == normalizeQuickAddName value then
      some (consumedRaw, value)
    else none

/-- A name in quotes after a marker: its text in the line and its value. -/
def matchQuickAddQuotedName (working : Line) (marker : Char) : Option (Line × Line) :=
  (Regex.search (quotedNamePattern marker) working).bind fun found =>
    let inside := ([1, 2, 3, 4, 5].findSome? found.group?).getD []
    let value := collapseWhitespace (restoreEscapes (unescapeQuotes inside))
    if value = [] then none else some (found.text.dropWhile isTrimmed, value)

def firstWord (rawFull : Line) : Line := (rawFull.dropWhile isTrimmed).takeWhile fun c => !isTrimmed c

/-- `/^[0-9a-f-]{8,}$/i`. -/
def looksLikeId (value : Line) : Bool :=
  decide (8 ≤ value.length) && value.all fun c => "0123456789abcdef-".toList.contains c.toLower

def canonicalPersonName (knownPeople : List String) (value : Line) : String :=
  (knownPeople.find? fun name => normalizeQuickAddName name.toList == normalizeQuickAddName value).getD
    (String.ofList value)

/-- A name that is not known is its first word. -/
def parsePerson (working : Line) (knownPeople : List String) : Option String × Line :=
  match matchQuickAddQuotedName working '%' with
  | some (raw, value) => (some (canonicalPersonName knownPeople value), stripToken working raw)
  | none =>
    match Regex.search (namePattern '%' "@#+/!%") working with
    | none => (none, working)
    | some found =>
      let rawFull := groupText found 1
      match matchKnownQuickAddNamePrefix rawFull knownPeople with
      | some (consumedRaw, value) =>
        (some (canonicalPersonName knownPeople value), stripToken working ('%' :: consumedRaw))
      | none =>
        let restoredFirst := trimLine (restoreEscapes (firstWord rawFull))
        if restoredFirst = [] then (none, working)
        else (some (String.ofList restoredFirst), stripToken working ('%' :: firstWord rawFull))

/-! ### Levels -/

def energyTokens : List String := ["low", "medium", "high"]
def priorityTokens : List String := ["low", "medium", "high", "urgent"]

/-- A level after a command; one that is unknown stays in the line. -/
def parseLevel (working : Line) (command : String) (levels : List String) : Option String × Line :=
  match Regex.search (argumentPattern command) working with
  | none => (none, working)
  | some found =>
    let token := String.ofList (lowerCase (trimLine (restoreEscapes (groupText found 1))))
    if token ∈ levels then (some token, stripToken working found.text) else (none, working)

/-! ### Areas -/

def areaName (area : Area) : Line := ((asStr? area.name).getD "").toList

def findAreaByName (areas : List Area) (value : Line) : Option Area :=
  areas.find? fun area => normalizeQuickAddName (areaName area) == normalizeQuickAddName value

/-- The area that `/area:` names. -/
def areaOfToken (areas : List Area) (token : Line) : Option String :=
  if token = [] then none
  else
    match (areas.find? fun area => area.id == String.ofList token).or
        (areas.find? fun area => lowerCase (areaName area) == lowerCase token) with
    | some matched => some matched.id
    | none => if areas = [] ∧ looksLikeId token = true then some (String.ofList token) else none

/-- An area after an exclamation mark; one that is unknown stays in the line. -/
def parseAreaName (working : Line) (areas : List Area) : Option String × Line :=
  match matchQuickAddQuotedName working '!' with
  | some (raw, value) =>
    match findAreaByName areas value with
    | some found => (some found.id, stripToken working raw)
    | none => (none, working)
  | none =>
    match Regex.search (namePattern '!' "@#+/!%") working with
    | none => (none, working)
    | some found =>
      let rawFull := groupText found 1
      if areas = [] then
        let restoredFirst := restoreEscapes (firstWord rawFull)
        if looksLikeId restoredFirst then
          (some (String.ofList restoredFirst), stripToken working ('!' :: firstWord rawFull))
        else (none, working)
      else
        match matchKnownQuickAddNamePrefix rawFull (areas.map fun area => String.ofList (areaName area)) with
        | none => (none, working)
        | some (consumedRaw, value) =>
          match findAreaByName areas value with
          | some found => (some found.id, stripToken working ('!' :: consumedRaw))
          | none => (none, working)

def parseArea (working : Line) (areas : List Area) : Option String × Line :=
  match Regex.search (argumentPattern "area") working with
  | some found =>
    match areaOfToken areas (trimLine (restoreEscapes (groupText found 1))) with
    | some areaId => (some areaId, stripToken working found.text)
    | none => (none, working)
  | none => parseAreaName working areas

/-! ### Notes and dates -/

def parseNote (working : Line) : Option String × Line :=
  match Regex.search (commandPattern "note" (lazyPlus anything)) working with
  | some found => (some (restoredText (trimLine (groupText found 1))), stripToken working found.text)
  | none => (none, working)

structure DateCommandResult where
  value : Option String
  working : Line
  invalidCommand : Option String

def parseDateCommand (command : DateCommand) (working : Line) (now : Int) (defaultScheduleTime : Option String) :
    DateCommandResult :=
  match Regex.search (commandPattern command.name (lazyPlus anything)) working with
  | none => { value := none, working, invalidCommand := none }
  | some found =>
    let dateText := String.ofList (trimLine (groupText found 1))
    match QuickAddRuntime.dateValue command dateText now defaultScheduleTime with
    | none => { value := none, working, invalidCommand := some s!"/{command.name}:{dateText}" }
    | some value => { value := some value, working := stripToken working found.text, invalidCommand := none }

/-! ### The status -/

def parseStatus (working : Line) : Option String × Line :=
  match Regex.search statusPattern working with
  | some found =>
    let token := String.ofList (lowerCase (groupText found 1))
    let status := if token = "in-progress" ∨ token = "archived" then normalizeTaskStatus (some (.str token)) else token
    (some status, stripToken working found.text)
  | none => (none, working)

def parseFocus (working : Line) : Bool × Line :=
  match Regex.search focusPattern working with
  | some found => (true, stripToken working found.text)
  | none => (false, working)

/-! ### Projects -/

def projectTitleOf (project : Project) : Line := ((asStr? project.title).getD "").toList

def isArchivedProject (project : Project) : Bool := project.status == some (.str "archived")

def findProjectByTitle (projects : List Project) (value : Line) : Option Project :=
  projects.find? fun project =>
    !isArchivedProject project && normalizeQuickAddName (projectTitleOf project) == normalizeQuickAddName value

/-- What a line says about the project. -/
structure ProjectReference where
  projectId : Option String := none
  projectTitle : Option String := none
  /-- The line ends with a token that names nothing; the parser then drops all it has found. -/
  blank : Bool := false
  working : Line

/-- A project after a plus sign; one that is unknown is taken as it is written. -/
def parseProjectName (working : Line) (projects : List Project) : ProjectReference :=
  match matchQuickAddQuotedName working '+' with
  | some (raw, value) =>
    match findProjectByTitle projects value with
    | some found => { projectId := some found.id, working := stripToken working raw }
    | none => { projectTitle := some (String.ofList value), working := stripToken working raw }
  | none =>
    match Regex.search (namePattern '+' "@#+/%") working with
    | none => { working }
    | some found =>
      let rawFull := groupText found 1
      let activeTitles := (projects.filter fun project => !isArchivedProject project).map fun project =>
        String.ofList (projectTitleOf project)
      match matchKnownQuickAddNamePrefix rawFull activeTitles with
      | some (consumedRaw, value) =>
        { projectId := (findProjectByTitle projects value).map (·.id)
          working := stripToken working ('+' :: consumedRaw) }
      | none =>
        let rawProject := restoreEscapes (collapseWhitespace rawFull)
        let working := stripToken working found.text
        if rawProject = [] then { blank := true, working }
        else if projects = [] ∧ looksLikeId rawProject = true then
          { projectId := some (String.ofList rawProject), working }
        else { projectTitle := some (String.ofList rawProject), working }

def parseProject (working : Line) (projects : List Project) : ProjectReference :=
  match Regex.search (argumentPattern "project") working with
  | some found =>
    { projectId := nonEmpty (String.ofList (groupText found 1)), working := stripToken working found.text }
  | none => parseProjectName working projects

/-! ### The line -/

def listed {α : Type} (items : List α) : Option (List α) := if items.isEmpty then none else some items

def duePattern : Regex Char := Regex.sequence [wordStart, char '/', text true "due:"]

/-- The title, and where the line has no due date of its own the date that it ends with. -/
def detectedDateOf (title : String) (now : Int) (options : QuickAddParseOptions) (hasDueDate : Bool) :
    Option QuickAddDetectedDate :=
  if hasDueDate || options.naturalLanguageDates == some false then none
  else
    (QuickAddRuntime.detectTrailingDate title now).map fun detected =>
      if options.preserveText == some true then { detected with titleWithoutDate := title } else detected

def parseQuickAdd (input : String) (projects : List Project) (now : Int) (areas : List Area)
    (options : QuickAddParseOptions) (uuid : Nat → String) : QuickAddResult :=
  let line := protectEscapes (trim input).toList
  let hadExplicitDueCommand := (Regex.search duePattern line).isSome
  let (attachments, working) := parseLinkCommandsFromWorking now uuid (line.length + 1) [] line
  let (contexts, working) := parseTokens working '@' options.knownContexts
  let (tags, working) := parseTokens working '#' options.knownTags
  let (assignedTo, working) := parsePerson working options.knownPeople
  let (energyLevel, working) := parseLevel working "energy" energyTokens
  let (priority, working) :=
    if options.parsePriority == some false then (none, working) else parseLevel working "priority" priorityTokens
  let (areaId, working) := parseArea working areas
  let (description, working) := parseNote working
  let started := parseDateCommand .start working now options.defaultScheduleTime
  let due := parseDateCommand .due started.working now none
  let reviewed := parseDateCommand .review due.working now options.defaultScheduleTime
  let (status, working) := parseStatus reviewed.working
  let (focusToday, working) := parseFocus working
  let project := parseProject working projects
  let title := restoredText (tidy project.working)
  if project.blank then { title }
  else
    { title
      props :=
        { status := (status.bind nonEmpty).or (if focusToday then some "next" else none)
          startTime := started.value.bind nonEmpty
          dueDate := due.value.bind nonEmpty
          reviewAt := reviewed.value.bind nonEmpty
          description := description.bind nonEmpty
          contexts := listed contexts
          tags := listed tags
          attachments := listed attachments
          projectId := project.projectId.bind nonEmpty
          areaId := areaId.bind nonEmpty
          energyLevel
          priority
          assignedTo := assignedTo.bind nonEmpty
          isFocusedToday := if focusToday then some true else none }
      projectTitle := project.projectTitle
      invalidDateCommands :=
        listed (started.invalidCommand.toList ++ due.invalidCommand.toList ++ reviewed.invalidCommand.toList)
      detectedDate :=
        detectedDateOf title now options ((due.value.bind nonEmpty).isSome || hadExplicitDueCommand) }

end

end Mindwtr.Capture
