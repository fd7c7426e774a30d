import Mindwtr.Entity.Dates
import Mindwtr.Entity.Types
import Mindwtr.Js.Equality

/-!
# Recurrences

`recurrence.ts`: how a recurrence is read when a task is loaded or merged. An older client stores the
rule as a word or as an RFC 5545 fragment, and a newer one keeps the fragment beside the fields and
writes the series id into it. Normalising a record reads it at the names of `Recurrence` only, so two
records that read the same have the same normal form (`normalizeRecurrenceForLoad_congr`).

The types make `byDay` a list of strings; another element, on which the code throws, is dropped here.
-/

namespace Mindwtr

open Mindwtr.Js

def recurrenceRules : List String := ["daily", "weekly", "monthly", "yearly"]

def rruleSeriesIdKey : String := "X-MINDWTR-SERIES-ID"

def weekdayOrder : List String := ["SU", "MO", "TU", "WE", "TH", "FR", "SA"]

def rruleFreqMap : List (String × String) :=
  [("DAILY", "daily"), ("WEEKLY", "weekly"), ("MONTHLY", "monthly"), ("YEARLY", "yearly")]

structure ParsedRRule where
  rule : Option String := none
  byDay : Option (List String) := none
  byMonthDay : Option (List Rat) := none
  interval : Option Rat := none
  weekStart : Option String := none
  count : Option Int := none
  untilDate : Option String := none

/-- `part.slice(0, part.indexOf("="))`, where an index of -1 drops the last code unit. -/
def tokenName (part : String) : String :=
  if '=' ∈ part.toList then String.ofList (part.toList.takeWhile (· != '='))
  else String.ofList part.toList.dropLast

/-- `part.slice(part.indexOf("=") + 1)`. -/
def tokenValue (part : String) : String :=
  if '=' ∈ part.toList then String.ofList ((part.toList.dropWhile (· != '=')).drop 1) else part

def strings (values : List String) : Json := .arr (values.map .str)
def numbers (values : List Rat) : Json := .arr (values.map .num)

section
variable [Runtime]

def isSeriesIdToken (part : String) : Bool :=
  Runtime.toUpperCase (trim (tokenName part)) == rruleSeriesIdKey

def getSeriesIdFromRRule (rrule : Option String) : Option String :=
  match rrule with
  | none => none
  | some rrule =>
    match (splitOn ';' rrule).find? isSeriesIdToken with
    | none => none
    | some token =>
      let raw := trim (tokenValue token)
      if raw = "" then none
      else
        match Runtime.decodeURIComponent raw with
        | some decoded => if trim decoded = "" then none else some (trim decoded)
        | none => some raw

def withSeriesIdInRRule (rrule seriesId : String) : String :=
  let parts := (splitOn ';' rrule).filter fun part => !isSeriesIdToken part
  ";".intercalate (parts ++ [rruleSeriesIdKey ++ "=" ++ Runtime.encodeURIComponent seriesId])

/-! ### Tokens -/

/-- `/^(-1|1|2|3|4)?(SU|MO|TU|WE|TH|FR|SA)$/`. -/
def parseByDayToken (token : String) : Option String :=
  let trimmed := trim (Runtime.toUpperCase token)
  let ordinals := ["", "-1", "1", "2", "3", "4"]
  if (ordinals.flatMap fun ordinal => weekdayOrder.map (ordinal ++ ·)).contains trimmed then some trimmed
  else none

def normalizeWeekdays (days : List String) : Option (List String) :=
  match (days.filterMap parseByDayToken).eraseDups with
  | [] => none
  | normalized => some normalized

/-- `normalizeWeekStart(String(value || ''))`. -/
def normalizeWeekStart (value : Option Json) : Option String :=
  let text := if truthy value then (value.map toStr).getD "" else ""
  (parseByDayToken text).filter fun day => weekdayOrder.contains day

/-- Numbers of a month's days; -1 is its last day. -/
def normalizeMonthDays (days : List String) : Option (List Rat) :=
  let normalized := (days.filterMap Runtime.toNumber).filter fun day =>
    decide (1 ≤ day ∧ day ≤ 31 ∨ day = -1)
  match normalized.eraseDups.insertionSort (· ≤ ·) with
  | [] => none
  | unique => some unique

def normalizeAnchorDay (value : Option Json) : Option Int :=
  match asNum? value with
  | none => none
  | some n => if 1 ≤ n.floor ∧ n.floor ≤ 31 then some n.floor else none

/-- `(\d{4})(\d{2})(\d{2})`, as it is written. -/
def compactDate (s : String) : Option (String × List Char) :=
  let cs := s.toList
  let part (start len : Nat) : String := String.ofList ((cs.drop start).take len)
  if 8 ≤ cs.length ∧ (cs.take 8).all Char.isDigit then
    some (part 0 4 ++ "-" ++ part 4 2 ++ "-" ++ part 6 2, cs.drop 8)
  else none

/-- `T(\d{2})(\d{2})(\d{2})?(Z)?$`, ignoring case: the time and whether it is in UTC. -/
def compactTime (cs : List Char) : Option (String × Bool) :=
  match cs with
  | t :: rest =>
    let time := rest.takeWhile Char.isDigit
    let zone := rest.dropWhile Char.isDigit
    let isUtc := zone = ['Z'] ∨ zone = ['z']
    if (t = 'T' ∨ t = 't') ∧ (time.length = 4 ∨ time.length = 6) ∧ (zone = [] ∨ isUtc) then
      let seconds := if time.length = 6 then time.drop 4 else ['0', '0']
      some (String.ofList (time.take 2 ++ [':'] ++ (time.drop 2).take 2 ++ [':'] ++ seconds), isUtc)
    else none
  | [] => none

def parseUntilToken (value : Option String) : Option String :=
  let trimmed := trim (value.getD "")
  match compactDate trimmed with
  | none => none
  | some (date, []) => some date
  | some (date, rest) =>
    match compactTime rest with
    | none => none
    | some (time, isUtc) =>
      let iso := date ++ "T" ++ time ++ (if isUtc then "Z" else "")
      (safeParseDate (some (.str iso))).map fun parsed =>
        if isUtc then Runtime.toISOString parsed else Runtime.formatLocal parsed

def formatUntilToken (untilDate : Option String) : Option String :=
  let trimmed := trim (untilDate.getD "")
  if trimmed = "" then none
  else if (Scan.calendarDate.run? trimmed).isSome then
    some (String.ofList (trimmed.toList.filter (· != '-')))
  else
    (safeParseDate (some (.str trimmed))).map fun parsed =>
      let (year, month, day) := civilFromDays (parsed / 86400000)
      let t := parsed % 86400000
      let two (n : Int) : String := padStart 2 (toString n)
      padStart 4 (toString year) ++ two month ++ two day ++ "T" ++ two (t / 3600000) ++
        two (t / 60000 % 60) ++ two (t / 1000 % 60) ++ "Z"

/-- The tokens of a fragment by upper-case name; a later one replaces an earlier one. -/
def rruleTokens (rrule : String) : List (String × String) :=
  (splitOn ';' rrule).foldl (fun acc part =>
    match splitOn '=' part with
    | key :: value :: _ =>
      if key = "" ∨ value = "" then acc
      else (Runtime.toUpperCase key, value) :: acc.filter (·.1 != Runtime.toUpperCase key)
    | _ => acc) []

def parseRRuleString (rrule : String) : ParsedRRule :=
  let tokens := rruleTokens rrule
  let token (name : String) : Option String := tokens.lookup name
  { rule := (token "FREQ").bind fun freq => rruleFreqMap.lookup (Runtime.toUpperCase freq)
    byDay := (token "BYDAY").bind fun days => normalizeWeekdays (splitOn ',' days)
    byMonthDay := (token "BYMONTHDAY").bind fun days => normalizeMonthDays (splitOn ',' days)
    interval := ((token "INTERVAL").bind Runtime.toNumber).filter (0 < ·)
    weekStart := normalizeWeekStart ((token "WKST").map .str)
    count := (((token "COUNT").bind Runtime.toNumber).filter (0 < ·)).map mathRound
    untilDate := parseUntilToken (token "UNTIL") }

def normalizeWeeklyByDay (days : List String) : Option (List String) :=
  (normalizeWeekdays days).bind fun normalized =>
    match (normalized.filter weekdayOrder.contains).eraseDups with
    | [] => none
    | weekly => some weekly

/-- The `BYDAY` or `BYMONTHDAY` part. -/
def byDayPart (rule : String) (byDay : Option (List String)) (byMonthDay : Option (List Rat)) :
    List String :=
  match normalizeWeekdays (byDay.getD []) with
  | some days =>
    if rule = "weekly" then
      match normalizeWeeklyByDay days with
      | some weekly => ["BYDAY=" ++ ",".intercalate (weekdayOrder.filter weekly.contains)]
      | none => []
    else if rule = "monthly" then
      let ordered := days.insertionSort fun a b => Runtime.localeCompare a b ≤ 0
      ["BYDAY=" ++ ",".intercalate ordered]
    else []
  | none =>
    if rule = "monthly" then
      match normalizeMonthDays ((byMonthDay.getD []).map Runtime.numberToString) with
      | some days => ["BYMONTHDAY=" ++ ",".intercalate (days.map Runtime.numberToString)]
      | none => []
    else []

def buildRRuleString (rule : String) (byDay : Option (List String)) (interval : Option Rat)
    (byMonthDay : Option (List Rat)) (weekStart : Option String) (count : Option Int)
    (untilDate : Option String) : String :=
  let interval := match interval.filter (1 < ·) with
    | some n => ["INTERVAL=" ++ Runtime.numberToString n]
    | none => []
  let count := match count.filter (0 < ·) with
    | some n => ["COUNT=" ++ Runtime.numberToString n]
    | none => []
  let weekStart := match normalizeWeekStart (weekStart.map .str) with
    | some day => if rule = "weekly" then ["WKST=" ++ day] else []
    | none => []
  let untilPart := match formatUntilToken untilDate with
    | some token => ["UNTIL=" ++ token]
    | none => []
  ";".intercalate (["FREQ=" ++ Runtime.toUpperCase rule] ++ interval ++ byDayPart rule byDay byMonthDay ++
    count ++ weekStart ++ untilPart)

/-! ### The normal form -/

/-- `count ? { count } : {}`. -/
def countProperty (count : Option Int) : Option Json :=
  (count.filter (· != 0)).map fun n => .num n

/-- A stored word or fragment. -/
def recurrenceOfString (value : String) : Option Json :=
  let trimmed := trim value
  if trimmed = "" then none
  else if trimmed ∈ recurrenceRules then some (.obj [("rule", .str trimmed)])
  else
    let parsed := parseRRuleString trimmed
    parsed.rule.map fun rule => .obj (definedEntries
      [("rule", some (.str rule)), ("byDay", parsed.byDay.map strings),
        ("byMonthDay", parsed.byMonthDay.map numbers), ("weekStart", parsed.weekStart.map .str),
        ("count", countProperty parsed.count), ("until", parsed.untilDate.map .str),
        ("rrule", some (.str trimmed))])

/-- `typeof value === "string" && value.trim().length > 0 ? value : undefined`. -/
def nonBlank (value : Option Json) : Option String := (asStr? value).filter fun s => !isBlank s

/-- The properties of the normal form of a record that reads as `read`. -/
def recurrenceFields (read : String → Option Json) (rule : String) (parsed : ParsedRRule)
    (rrule : Option String) : List (String × Option Json) :=
  let seriesId := ((nonBlank (read "seriesId")).map trim).or (getSeriesIdFromRRule rrule)
  let strategy := (read "strategy").filter fun s => s == .str "fluid" || s == .str "strict"
  let byDay := (((read "byDay").bind Json.asArr?).bind fun days =>
    normalizeWeekdays (days.filterMap Json.asStr?)).or parsed.byDay
  let byMonthDay := (((read "byMonthDay").bind Json.asArr?).bind fun days =>
    normalizeMonthDays (days.map toStr)).or parsed.byMonthDay
  let weekStart := (normalizeWeekStart (read "weekStart")).or parsed.weekStart
  let count := (((asNum? (read "count")).filter (0 < ·)).map mathRound).or parsed.count
  let untilDate := (nonBlank (read "until")).or parsed.untilDate
  let completedOccurrences := ((asNum? (read "completedOccurrences")).filter (0 ≤ ·)).map Rat.floor
  let anchor (name : String) : Option Json := (normalizeAnchorDay (read name)).map fun n => .num n
  let compatibleRRule := match seriesId with
    | some seriesId => some (withSeriesIdInRRule (rrule.getD (buildRRuleString rule byDay parsed.interval
        byMonthDay weekStart count untilDate)) seriesId)
    | none => rrule
  [("rule", some (.str rule)), ("seriesId", seriesId.map .str), ("strategy", strategy),
    ("byDay", byDay.map strings), ("byMonthDay", byMonthDay.map numbers),
    ("weekStart", weekStart.map .str), ("count", countProperty count), ("until", untilDate.map .str),
    ("completedOccurrences", completedOccurrences.map fun n => .num n),
    ("anchorDay", anchor "anchorDay"), ("startAnchorDay", anchor "startAnchorDay"),
    ("dueAnchorDay", anchor "dueAnchorDay"), ("reviewAnchorDay", anchor "reviewAnchorDay"),
    ("rrule", compatibleRRule.map .str)]

def recurrenceOfRecord (read : String → Option Json) : Option Json :=
  let rrule := (nonBlank (read "rrule")).map trim
  let parsed := (rrule.map parseRRuleString).getD {}
  let explicitRule := (asStr? (read "rule")).filter recurrenceRules.contains
  (explicitRule.or parsed.rule).map fun rule =>
    .obj (definedEntries (recurrenceFields read rule parsed rrule))

def normalizeRecurrenceForLoad (value : Option Json) : Option Json :=
  match value with
  | some (.str s) => recurrenceOfString s
  | some (.obj entries) => recurrenceOfRecord fun key => lookup key entries
  | _ => none

theorem normalizeRecurrenceForLoad_congr {as bs : List (String × Json)}
    (h : ∀ key, lookup key as = lookup key bs) :
    normalizeRecurrenceForLoad (some (.obj as)) = normalizeRecurrenceForLoad (some (.obj bs)) := by
  simp only [normalizeRecurrenceForLoad, h]

end

end Mindwtr
