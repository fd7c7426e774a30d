import Mindwtr.Entity.LocalCalendar
import Mindwtr.Import.CsvExport

/-!
# The cells of an imported row

How `mindwtr-csv-import.ts` reads the text of one cell. The word NULL stands for an empty cell, as in the exports of
databases.
-/

namespace Mindwtr.Import

open Mindwtr.Js

/-- `/^null$/iu`. -/
def isNullWord (value : String) : Bool := value.toList.map Char.toLower == ['n', 'u', 'l', 'l']

section
variable [Runtime]

def readCell (row : List String) (headerIndex : List (String × Nat)) (key : String) : String :=
  let value := getCell row headerIndex key
  if isNullWord value then "" else value

/-- `value || undefined`. -/
def nonEmpty (value : String) : Option String := if value = "" then none else some value

def isTokenBreak (c : Char) : Bool := c == ',' || c == ';'

def splitTokens (value : String) : List String :=
  ((value.toList.splitOnP isTokenBreak).map fun token => trim (String.ofList token)).filter fun token => token != ""

def parseContexts (value : String) : List String := dedupeStrings ((splitTokens value).filterMap normalizeContextName)

def parseTags (value : String) : List String :=
  dedupeStrings ((splitTokens value).map fun tag => normalizeTagId (String.ofList (tag.toList.dropWhile (· == '#'))))

def parsePriority (value : String) : Option String :=
  let trimmed := Runtime.toLowerCase (trim value)
  if trimmed = "high" ∨ trimmed = "1" then some "high"
  else if trimmed = "medium" ∨ trimmed = "2" then some "medium"
  else if trimmed = "low" ∨ trimmed = "3" then some "low"
  else none

def parseEnergy (value : String) : Option String :=
  let trimmed := Runtime.toLowerCase (trim value)
  if trimmed = "high" ∨ trimmed = "medium" ∨ trimmed = "low" then some trimmed else none

def validStatuses : List String := ["inbox", "next", "waiting", "someday", "reference", "done", "archived"]

def resolveStatus (raw : String) (hasProject hasCompletedAt hasCancelledAt : Bool) : String :=
  let trimmed := Runtime.toLowerCase (trim raw)
  if trimmed = "" then
    if hasCancelledAt then "archived" else if hasCompletedAt then "done" else if hasProject then "next" else "inbox"
  else if trimmed ∈ validStatuses then trimmed
  else "inbox"

def toNumber (value : String) (fallback : Rat) : Rat := (Runtime.toNumber value).getD fallback

end

/-! ### Checklists -/

def isLineTerminator (c : Char) : Bool := c == '\n' || c == '\r' || c == '\u2028' || c == '\u2029'

/-- `/^\[([ xX])\]\s*(.*)$/u`: the mark and the text after it. -/
def checklistItemPattern (line : String) : Option (Char × String) :=
  match line.toList with
  | '[' :: mark :: ']' :: rest =>
    let title := rest.dropWhile isTrimmed
    if (mark == ' ' || mark == 'x' || mark == 'X') && !title.any isLineTerminator then some (mark, String.ofList title)
    else none
  | _ => none

def parseChecklistLine (line : String) : ChecklistItem :=
  match checklistItemPattern line with
  | none => { title := line, isCompleted := false }
  | some (mark, title) =>
    { title := if trim title = "" then line else trim title, isCompleted := mark != ' ' }

/-- The items of a cell and how many the limit counts. -/
def parseChecklist (value : String) : Except JsError (List ChecklistItem × Nat) :=
  if isBlank value then .ok ([], 0)
  else do
    let itemCount ← assertImportChecklistItemCount value
    let lines := ((value.toList.splitOnP isChecklistBreak).map fun line => trim (String.ofList line)).filter fun line =>
      line != ""
    .ok (lines.map parseChecklistLine, itemCount)

/-! ### Dates -/

/-- `value.replace(/(\.\d{3})\d+/u, '$1')`. -/
def shortenFraction : List Char → List Char
  | [] => []
  | c :: rest =>
    if c = '.' ∧ 4 ≤ (rest.takeWhile Char.isDigit).length then c :: (rest.take 3 ++ rest.dropWhile Char.isDigit)
    else c :: shortenFraction rest

/-- `/^(Z|[+-]\d{2}:?\d{2})$/iu`. -/
def isZone : List Char → Bool
  | ['Z'] => true
  | ['z'] => true
  | [sign, a, b, c, d] => (sign == '+' || sign == '-') && a.isDigit && b.isDigit && c.isDigit && d.isDigit
  | [sign, a, b, ':', c, d] => (sign == '+' || sign == '-') && a.isDigit && b.isDigit && c.isDigit && d.isDigit
  | _ => false

/-- `value.replace(/ (Z|[+-]\d{2}:?\d{2})$/iu, '$1')`. -/
def closeUpZone : List Char → List Char
  | [] => []
  | c :: rest => if c = ' ' ∧ isZone rest then rest else c :: closeUpZone rest

def normalizeSqlTimestampShape (value : String) : String :=
  String.ofList (closeUpZone (shortenFraction value.toList))

/-- `(\d{2})(?::(\d{2})(?::(\d{2})(?:\.\d{1,3})?)?)?`. -/
def clockTime : Scan (Int × Int × Int) := do
  let hour ← Scan.digits 2
  let minutes ← Scan.optional do
    Scan.char ':'
    let minute ← Scan.digits 2
    let second ← Scan.optional do
      Scan.char ':'
      let second ← Scan.digits 2
      let _ ← Scan.optional do
        Scan.char '.'
        Scan.digitRun 3
      return second
    return (minute, second.getD 0)
  return (hour, minutes.getD (0, 0))

def isValidClockTime (clock : Int × Int × Int) : Bool := decide (clock.1 < 24 ∧ clock.2.1 < 60 ∧ clock.2.2 < 60)

/-- `(?:Z|[+-](\d{2}):?(\d{2}))`, ignoring case. -/
def zoneOffset : Scan (Int × Int) := fun cs =>
  match Scan.oneOf ['Z', 'z'] cs with
  | some (_, rest) => some ((0, 0), rest)
  | none => (do
    let _ ← Scan.oneOf ['+', '-']
    let hour ← Scan.digits 2
    let _ ← Scan.optional (Scan.char ':')
    let minute ← Scan.digits 2
    return (hour, minute) : Scan (Int × Int)) cs

def calendarComponents : Scan Bool := do
  let (year, month, day) ← Scan.calendarDate
  let clock ← Scan.optional do
    let _ ← Scan.oneOf [' ', 'T', 't']
    clockTime
  let offset ← Scan.optional zoneOffset
  let (offsetHour, offsetMinute) := offset.getD (0, 0)
  return isValidCalendarDate year month day && clock.all isValidClockTime && decide (offsetHour < 24 ∧ offsetMinute < 60)

def hasValidCalendarComponents (value : String) : Bool := (calendarComponents.run? value).getD true

/-- `/^(\d{4}-\d{2}-\d{2})[ T](\d{2}:\d{2}(?::\d{2}(?:\.\d{1,3})?)?)$/u`, with whether its day and its time exist. -/
def wallClock : Scan Bool := do
  let (year, month, day) ← Scan.calendarDate
  let _ ← Scan.oneOf [' ', 'T']
  let hour ← Scan.digits 2
  Scan.char ':'
  let minute ← Scan.digits 2
  let second ← Scan.optional do
    Scan.char ':'
    let second ← Scan.digits 2
    let _ ← Scan.optional do
      Scan.char '.'
      Scan.digitRun 3
    return second
  return isValidCalendarDate year month day && isValidClockTime (hour, minute, second.getD 0)

/-- `/Z$|[+-]\d{2}:?\d{2}$/iu`. -/
def endsWithZone (value : String) : Bool := value.toList.tails.any isZone

/-- `/\d{1,2}:\d{2}/u`. -/
def hasClock (value : String) : Bool :=
  value.toList.tails.any fun
    | a :: ':' :: b :: c :: _ => a.isDigit && b.isDigit && c.isDigit
    | _ => false

section
variable [LocalCalendar]

def formatLocalDate (time : Int) : String :=
  toString (getFullYear time) ++ "-" ++ padded 2 (getMonth time + 1) ++ "-" ++ padded 2 (getDate time)

def formatLocalDateTime (time : Int) : String :=
  let (hour, minute, second, millisecond) := LocalCalendar.localClock time
  formatLocalDate time ++ "T" ++ padded 2 hour ++ ":" ++ padded 2 minute ++ ":" ++ padded 2 second ++ "." ++
    padded 3 millisecond

def parseCsvDateValue (value : String) : Option String :=
  let trimmed := normalizeSqlTimestampShape (trim value)
  if trimmed = "" then none
  else
    match Scan.calendarDate.run? trimmed with
    | some (year, month, day) => if isValidCalendarDate year month day then some trimmed else none
    | none =>
      match wallClock.run? trimmed with
      | some valid => if valid then some (String.ofList (trimmed.toList.set 10 'T')) else none
      | none =>
        if !hasValidCalendarComponents trimmed then none
        else
          (safeParseDate (some (.str trimmed))).map fun parsed =>
            if endsWithZone trimmed then Runtime.toISOString parsed
            else if hasClock trimmed then formatLocalDateTime parsed
            else formatLocalDate parsed

def normalizeEntityTimestamp (value : String) : Option String :=
  let normalized := normalizeSqlTimestampShape (trim value)
  if !hasValidCalendarComponents normalized then none
  else (safeParseDate (some (.str normalized))).map Runtime.toISOString

end

/-! ### Recurrences -/

section
variable [Runtime]

def supportedRruleKeys : List String := ["FREQ", "INTERVAL", "BYDAY", "BYMONTHDAY", "COUNT", "UNTIL", "WKST"]

def isFluidToken (part : String) : Bool := Runtime.toUpperCase part == mindwtrCsvFluidRecurrenceToken

def parseRecurrenceCell (raw : String) : Option Json :=
  let value := trim raw
  if value = "" then none
  else
    let parts := ((splitOn ';' value).map trim).filter fun part => part != ""
    let ruleParts := parts.filter fun part => !isFluidToken part
    let supported := ruleParts.all fun part =>
      supportedRruleKeys.contains (Runtime.toUpperCase (String.ofList (part.toList.takeWhile (· != '='))))
    let recurrence :=
      if supported then normalizeRecurrenceForLoad (some (.str (";".intercalate ruleParts))) else none
    recurrence.map fun recurrence =>
      if parts.any isFluidToken then .obj (setProp "strategy" (some (.str "fluid")) (recordOf (some recurrence)))
      else recurrence

end

end Mindwtr.Import
