import Mindwtr.Entity.LocalCalendar
import Mindwtr.Js.Map

/-!
# Recurring calendar events

`parseRRule` and `expandRecurringEvent` of `ics.ts`, with the candidates of a month and of a year. Local dates are
those of a time zone without daylight saving time, `zone` milliseconds ahead of UTC: a date is the number of its day
and the time of the day. The cursor of a loop is the number of its period, counted from that of the start.
-/

namespace Mindwtr.Ics

open Mindwtr.Js

/-! ### Local dates -/

def dayMs : Int := 86400000

def dayOf (zone time : Int) : Int := (time + zone) / dayMs
def clockOf (zone time : Int) : Int := (time + zone) % dayMs
def timeOf (zone day clock : Int) : Int := day * dayMs + clock - zone

/-- Months are numbered through, from January of the year 0. -/
def monthStart (month : Int) : Int := daysFromCivil (month / 12) (month % 12 + 1) 1

def monthOf (day : Int) : Int :=
  let date := civilFromDays day
  12 * date.1 + (date.2.1 - 1)

def getFullYear (day : Int) : Int := monthOf day / 12
def getMonth (day : Int) : Int := monthOf day % 12
def getDate (day : Int) : Int := day - monthStart (monthOf day) + 1
def getDay (day : Int) : Int := (day + 4) % 7

/-- The day of `new Date(year, month, date)`. -/
def newDay (year month date : Int) : Int := monthStart (12 * fullYear year + month) + date - 1

/-! ### Rules -/

inductive Frequency where
  | daily
  | weekly
  | monthly
  | yearly
deriving DecidableEq, Repr

structure WeekdayToken where
  weekday : Int
  ordinal : Option Int
deriving DecidableEq, Repr

structure ParsedRRule where
  freq : Frequency
  interval : Int
  untilDate : Option Int
  count : Option Int
  byDay : Option (List WeekdayToken)
  byMonth : Option (List Int)
  byMonthDay : Option (List Int)
deriving DecidableEq, Repr

/-- `parseInt(text, 10)`; `none` is `NaN`. -/
def parseInt (text : List Char) : Option Int :=
  let rest := text.dropWhile isTrimmed
  let sign : Int := if rest.head? = some '-' then -1 else 1
  let digits := (if rest.head? = some '-' ∨ rest.head? = some '+' then rest.tail else rest).takeWhile Char.isDigit
  (digits? digits).map (sign * ·)

/-- `parseIcsDateTime` of a value without parameters. -/
def parseIcsDateTime (zone : Int) (value : String) : Option Int :=
  let trimmed := (trim value).toList
  if trimmed.length = 8 ∧ trimmed.all Char.isDigit then
    match digits? (trimmed.take 4), digits? ((trimmed.drop 4).take 2), digits? (trimmed.drop 6) with
    | some year, some month, some date => some (timeOf zone (newDay year (month - 1) date) 0)
    | _, _, _ => none
  else
    let isUtc := trimmed.getLast? == some 'Z'
    let base := if isUtc then trimmed.dropLast else trimmed
    if base.length = 15 ∧ base[8]? = some 'T' then
      match digits? (base.take 4), digits? ((base.drop 4).take 2), digits? ((base.drop 6).take 2),
        digits? ((base.drop 9).take 2), digits? ((base.drop 11).take 2), digits? (base.drop 13) with
      | some year, some month, some date, some hour, some minute, some second =>
        some (timeOf (if isUtc then 0 else zone) (newDay year (month - 1) date)
          (((hour * 60 + minute) * 60 + second) * 1000))
      | _, _, _, _, _, _ => none
    else none

def weekdayOf (name : List Char) : Option Int :=
  if name = ['S', 'U'] then some 0
  else if name = ['M', 'O'] then some 1
  else if name = ['T', 'U'] then some 2
  else if name = ['W', 'E'] then some 3
  else if name = ['T', 'H'] then some 4
  else if name = ['F', 'R'] then some 5
  else if name = ['S', 'A'] then some 6
  else none

/-- `/^([+-]?\d{1,2})?(SU|MO|TU|WE|TH|FR|SA)$/`, where an ordinal is not 0. -/
def weekdayToken (token : List Char) : Option WeekdayToken :=
  match weekdayOf (token.drop (token.length - 2)) with
  | none => none
  | some weekday =>
    let sign := token.take (token.length - 2)
    let digits := if sign.head? = some '-' ∨ sign.head? = some '+' then sign.tail else sign
    if sign = [] then some { weekday, ordinal := none }
    else if digits.length ≤ 2 ∧ digits.all Char.isDigit then
      match parseInt sign with
      | some ordinal => if ordinal = 0 then none else some { weekday, ordinal := some ordinal }
      | none => none
    else none

def nonEmpty {α : Type} (l : List α) : Option (List α) := if l = [] then none else some l

section
variable [Runtime]

def readPart (parts : JsMap String) (part : List Char) : JsMap String :=
  match part.splitOn '=' with
  | key :: value :: _ =>
    if key = [] ∨ value = [] then parts
    else parts.set (Runtime.toUpperCase (trim (String.ofList key))) (trim (String.ofList value))
  | _ => parts

def frequencyOf (name : String) : Option Frequency :=
  if name = "DAILY" then some .daily
  else if name = "WEEKLY" then some .weekly
  else if name = "MONTHLY" then some .monthly
  else if name = "YEARLY" then some .yearly
  else none

def parseRRule (zone : Int) (raw : String) : Option ParsedRRule :=
  let map := (raw.toList.splitOn ';').foldl readPart .empty
  let value (key : String) : Option (List Char) := ((map.get? key).filter (· != "")).map String.toList
  match ((map.get? "FREQ").map Runtime.toUpperCase).bind frequencyOf with
  | none => none
  | some freq =>
    some
      { freq
        interval := max 1 ((parseInt ((value "INTERVAL").getD ['1'])).getD 1)
        untilDate := (value "UNTIL").bind fun text => parseIcsDateTime zone (String.ofList text)
        count := ((value "COUNT").bind parseInt).filter (· != 0)
        byDay := (value "BYDAY").bind fun text =>
          nonEmpty ((text.splitOn ',').filterMap fun token =>
            weekdayToken (Runtime.toUpperCase (trim (String.ofList token))).toList).eraseDups
        byMonth := (value "BYMONTH").bind fun text =>
          nonEmpty (((text.splitOn ',').filterMap parseInt).filter fun m => 1 ≤ m && m ≤ 12).eraseDups
        byMonthDay := (value "BYMONTHDAY").bind fun text =>
          nonEmpty (((text.splitOn ',').filterMap parseInt).filter fun d => (0 < d && d ≤ 31) || d = -1).eraseDups }

end

/-! ### Candidates -/

/-- The date in its month. -/
def getNthWeekdayOfMonth (year month weekday ordinal : Int) : Option Int :=
  let candidate :=
    if 0 < ordinal then newDay year month (1 + (weekday - getDay (newDay year month 1) + 7) % 7 + (ordinal - 1) * 7)
    else
      let lastOfMonth := newDay year (month + 1) 0
      newDay year month (getDate lastOfMonth - (getDay lastOfMonth - weekday + 7) % 7 + (ordinal + 1) * 7)
  if getMonth candidate = month then some (getDate candidate) else none

/-- The days a token names; a month has less than six of a weekday. -/
def weekdayDays (year month : Int) (token : WeekdayToken) : List Int :=
  match token.ordinal with
  | some ordinal => (getNthWeekdayOfMonth year month token.weekday ordinal).toList.map (newDay year month)
  | none =>
    let offset := (token.weekday - getDay (newDay year month 1) + 7) % 7
    ((List.range 6).map fun k : Nat => newDay year month (1 + offset + 7 * (k : Int))).takeWhile fun day =>
      getMonth day = month

def monthDays (year month : Int) (dates : List Int) : List Int :=
  (dates.map fun date => if date = -1 then newDay year (month + 1) 0 else newDay year month date).filter fun day =>
    getMonth day = month

def sortedDays (days : List Int) : List Int := days.insertionSort (· ≤ ·)

/-- A day that is met twice is listed twice, if it was named by its date. -/
def getMonthlyCandidates (month : Int) (rule : ParsedRRule) (fallbackMonthDay : Int) : List Int :=
  match rule.byMonthDay, rule.byDay with
  | some dates, _ => sortedDays (monthDays (month / 12) (month % 12) dates)
  | none, some tokens => sortedDays (tokens.flatMap (weekdayDays (month / 12) (month % 12))).eraseDups
  | none, none => [newDay (month / 12) (month % 12) fallbackMonthDay].filter fun day => getMonth day = month % 12

def candidatesOfMonth (year month : Int) (rule : ParsedRRule) (fallbackMonthDay : Int) : List Int :=
  match rule.byMonthDay, rule.byDay with
  | some dates, _ => monthDays year month dates
  | none, some tokens => tokens.flatMap (weekdayDays year month)
  | none, none => [newDay year month fallbackMonthDay].filter fun day => getMonth day = month

def getYearlyCandidates (year : Int) (rule : ParsedRRule) (fallbackMonth fallbackMonthDay : Int) : List Int :=
  sortedDays (((rule.byMonth.getD [fallbackMonth]).flatMap fun monthNumber =>
    candidatesOfMonth year (monthNumber - 1) rule fallbackMonthDay)).eraseDups

/-! ### Loops -/

/-- What the loops of one call share. -/
structure Expansion where
  start : Int
  durationMs : Int
  rangeStart : Int
  rangeEnd : Int
  untilDate : Option Int
  countLimit : Option Int
  maxPerEvent : Nat

structure LoopState where
  out : List Int := []
  generated : Nat := 0

def intersectsRange (start stop rangeStart rangeEnd : Int) : Bool := start < rangeEnd && rangeStart < stop

namespace Expansion
variable (e : Expansion)

def windowStart : Int := e.rangeStart - e.durationMs

def keeps (start : Int) : Bool := intersectsRange start (start + e.durationMs) e.rangeStart e.rangeEnd

/-- `addOccurrence(start)` and `generated += 1`. -/
def addOccurrence (s : LoopState) (start : Int) : LoopState :=
  { out := if e.keeps start then s.out ++ [start] else s.out, generated := s.generated + 1 }

/-- `countLimit && generated >= countLimit`. -/
def reachedCount (generated : Nat) : Bool := e.countLimit.any fun n => n ≠ 0 && n ≤ (generated : Int)

def shouldStop (generated : Nat) (candidateStart : Int) : Bool :=
  e.untilDate.any (· < candidateStart) || e.reachedCount generated || e.maxPerEvent ≤ generated

/-- The inner loop, and whether it has returned. Past the window it does where `pastReturns`. Without a count of
occurrences `reachedCount` says no, so the loop of the years may leave that question out. -/
def forCandidates (pastReturns : Bool) : List Int → LoopState → Bool × LoopState
  | [], s => (false, s)
  | candidate :: rest, s =>
    if candidate < e.start then forCandidates pastReturns rest s
    else if e.rangeEnd < candidate then if pastReturns then (true, s) else forCandidates pastReturns rest s
    else if e.shouldStop s.generated candidate then (true, s)
    else if e.reachedCount (s.generated + 1) then (true, e.addOccurrence s candidate)
    else if e.maxPerEvent ≤ s.generated + 1 then (true, e.addOccurrence s candidate)
    else forCandidates pastReturns rest (e.addOccurrence s candidate)

/-- The outer loop, from the period `k` on, over `fuel` periods at most. -/
def walkPeriods (pastReturns : Bool) (inWindow : Nat → Bool) (candidates : Nat → List Int) :
    Nat → Nat → LoopState → LoopState
  | 0, _, s => s
  | fuel + 1, k, s =>
    if inWindow k && s.generated < e.maxPerEvent then
      if (e.forCandidates pastReturns (candidates k) s).1 then (e.forCandidates pastReturns (candidates k) s).2
      else walkPeriods pastReturns inWindow candidates fuel (k + 1) (e.forCandidates pastReturns (candidates k) s).2
    else s

/-- The loop of the days. -/
def walkDays (day : Nat → Int) : Nat → Nat → LoopState → LoopState
  | 0, _, s => s
  | fuel + 1, k, s =>
    if day k ≤ e.rangeEnd && !e.shouldStop s.generated (day k) then
      walkDays day fuel (k + 1) (if e.start ≤ day k then e.addOccurrence s (day k) else s)
    else s

end Expansion

/-- `while (isPast(k)) k += 1`, `fuel` times at most. -/
def skipPeriods (isPast : Nat → Bool) : Nat → Nat → Nat
  | 0, k => k
  | fuel + 1, k => if isPast k then skipPeriods isPast fuel (k + 1) else k

/-! ### The expansion -/

section
variable (zone : Int) (e : Expansion) (rule : ParsedRRule)

def weekdays : List Int :=
  match rule.byDay with
  | some tokens => (tokens.map (·.weekday)).eraseDups
  | none => [getDay (dayOf zone e.start)]

/-- `startOfWeek(event.start, { weekStartsOn: 1 })`. -/
def weekStart : Int := dayOf zone e.start - (getDay (dayOf zone e.start) + 6) % 7

def weekCursor (k : Nat) : Int := weekStart zone e + 7 * (rule.interval * k)

def weekCandidates (k : Nat) : List Int :=
  (weekdays zone e rule).map fun day =>
    timeOf zone (weekCursor zone e rule k + (day - getDay (weekCursor zone e rule k) + 7) % 7) (clockOf zone e.start)

def monthCursor (k : Nat) : Int :=
  12 * fullYear (getFullYear (dayOf zone e.start)) + getMonth (dayOf zone e.start) + rule.interval * k

def monthCandidates (k : Nat) : List Int :=
  (getMonthlyCandidates (monthCursor zone e rule k) rule (getDate (dayOf zone e.start))).map fun day =>
    timeOf zone day (clockOf zone e.start)

def yearCursor (k : Nat) : Int := getFullYear (dayOf zone e.start) + rule.interval * k

def yearCandidates (k : Nat) : List Int :=
  (getYearlyCandidates (yearCursor zone e rule k) rule (getMonth (dayOf zone e.start) + 1)
    (getDate (dayOf zone e.start))).map fun day => timeOf zone day (clockOf zone e.start)

def dayCursor (k : Nat) : Int := e.start + rule.interval * k * dayMs

/-- Enough periods to pass the end of the window. -/
def periodsLeft (cursorDay : Int) : Nat := (dayOf zone e.rangeEnd - cursorDay).toNat + 1

/-- The period each loop without a count starts from. -/
def jumpDays : Nat :=
  if e.start < e.windowStart then
    let jumps := ((dayOf zone e.windowStart - dayOf zone e.start) / rule.interval).toNat
    skipPeriods (fun k => dayCursor e rule k < e.windowStart)
      ((dayOf zone e.windowStart - dayOf zone (dayCursor e rule jumps)).toNat + 1) jumps
  else 0

def jumpWeeks : Nat :=
  if timeOf zone (weekCursor zone e rule 0) 0 < e.windowStart then
    let jumps := ((dayOf zone e.windowStart - weekCursor zone e rule 0) / 7 / rule.interval).toNat
    skipPeriods (fun k => timeOf zone (weekCursor zone e rule k + 7) 0 < e.windowStart)
      ((dayOf zone e.windowStart - weekCursor zone e rule jumps).toNat + 1) jumps
  else 0

def jumpMonths : Nat :=
  if timeOf zone (monthStart (monthCursor zone e rule 0)) 0 < e.windowStart then
    let jumps := ((monthOf (dayOf zone e.windowStart) - monthCursor zone e rule 0) / rule.interval).toNat
    skipPeriods (fun k => timeOf zone (monthStart (monthCursor zone e rule k + rule.interval)) 0 < e.windowStart)
      ((monthOf (dayOf zone e.windowStart) - monthCursor zone e rule jumps).toNat + 1) jumps
  else 0

def jumpYears : Nat :=
  if yearCursor zone e rule 0 < getFullYear (dayOf zone e.windowStart) then
    ((getFullYear (dayOf zone e.windowStart) - yearCursor zone e rule 0) / rule.interval).toNat
  else 0

/-- The starts of the occurrences; `counted` says that the rule has a positive count. -/
def expandStarts : List Int :=
  let counted := e.countLimit.any (0 < ·)
  match rule.freq with
  | .daily =>
    let first := if counted then 0 else jumpDays zone e rule
    (e.walkDays (dayCursor e rule) (periodsLeft zone e (dayOf zone (dayCursor e rule first))) first {}).out
  | .weekly =>
    let first := if counted then 0 else jumpWeeks zone e rule
    (e.walkPeriods counted (fun k => timeOf zone (weekCursor zone e rule k) 0 ≤ e.rangeEnd) (weekCandidates zone e rule)
      (periodsLeft zone e (weekCursor zone e rule first)) first {}).out
  | .monthly =>
    let first := if counted then 0 else jumpMonths zone e rule
    (e.walkPeriods counted (fun k => timeOf zone (monthStart (monthCursor zone e rule k)) 0 ≤ e.rangeEnd)
      (monthCandidates zone e rule) (periodsLeft zone e (monthStart (monthCursor zone e rule first))) first {}).out
  | .yearly =>
    let first := if counted then 0 else jumpYears zone e rule
    (e.walkPeriods true (fun k => yearCursor zone e rule k ≤ getFullYear (dayOf zone e.rangeEnd))
      (yearCandidates zone e rule) (periodsLeft zone e (monthStart (12 * yearCursor zone e rule first))) first {}).out

end

structure ParsedVEvent where
  uid : String
  summary : String
  start : Int
  stop : Int
  allDay : Bool
  description : Option String := none
  location : Option String := none
  rrule : Option ParsedRRule := none

structure ExternalCalendarEvent where
  id : String
  sourceId : String
  title : String
  start : String
  stop : String
  allDay : Bool
  description : Option String
  location : Option String
deriving DecidableEq, Repr

structure ParseIcsOptions where
  sourceId : String
  rangeStart : Int
  rangeEnd : Int
  maxOccurrencesPerEvent : Option Nat := none

section
variable [Runtime]

def createStableEventId (sourceId uid startIso : String) : String := sourceId ++ ":" ++ uid ++ ":" ++ startIso

def occurrenceAt (event : ParsedVEvent) (options : ParseIcsOptions) (durationMs start : Int) : ExternalCalendarEvent where
  id := createStableEventId options.sourceId event.uid (Runtime.toISOString start)
  sourceId := options.sourceId
  title := event.summary
  start := Runtime.toISOString start
  stop := Runtime.toISOString (start + durationMs)
  allDay := event.allDay
  description := event.description
  location := event.location

def expansionOf (event : ParsedVEvent) (options : ParseIcsOptions) (rule : ParsedRRule) : Expansion where
  start := event.start
  durationMs := max 0 (event.stop - event.start)
  rangeStart := options.rangeStart
  rangeEnd := options.rangeEnd
  untilDate := rule.untilDate
  countLimit := rule.count
  maxPerEvent := options.maxOccurrencesPerEvent.getD 1000

def expandRecurringEvent (zone : Int) (event : ParsedVEvent) (options : ParseIcsOptions) :
    List ExternalCalendarEvent :=
  let durationMs := max 0 (event.stop - event.start)
  match event.rrule with
  | none =>
    if intersectsRange event.start event.stop options.rangeStart options.rangeEnd &&
        intersectsRange event.start (event.start + durationMs) options.rangeStart options.rangeEnd then
      [occurrenceAt event options durationMs event.start]
    else []
  | some rule => (expandStarts zone (expansionOf event options rule) rule).map (occurrenceAt event options durationMs)

end

end Mindwtr.Ics
