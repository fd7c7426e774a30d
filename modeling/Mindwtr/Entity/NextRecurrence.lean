import Mindwtr.Entity.LocalCalendar
import Mindwtr.Entity.TaskLoad

/-!
# The next occurrence of a recurring task

`createNextRecurringTask` of `recurrence.ts`, with `task-relative-start.ts`. One schedule field of the
task is the anchor of its series. The next anchor is found by the rule, from the anchor itself or from
the time of the completion, and the other fields keep their distance in days to it. A generated id is
taken from `uuid`, the ids in the order in which the code asks for them.
-/

namespace Mindwtr

open Mindwtr.Js Mindwtr.Sync

/-! ### Schedule fields -/

inductive ScheduleField where
  | startTime | dueDate | reviewAt
deriving DecidableEq, Repr

/-- The dates of a task, `none` where the field is empty. -/
structure ScheduleDates where
  startTime : Option String := none
  dueDate : Option String := none
  reviewAt : Option String := none
deriving DecidableEq, Repr

def ScheduleDates.get (dates : ScheduleDates) : ScheduleField → Option String
  | .startTime => dates.startTime
  | .dueDate => dates.dueDate
  | .reviewAt => dates.reviewAt

def nonEmptyString (v : Option Json) : Option String := (asStr? v).filter (· != "")

def scheduleDates (task : Task) : ScheduleDates where
  startTime := nonEmptyString task.startTime
  dueDate := nonEmptyString task.dueDate
  reviewAt := nonEmptyString task.reviewAt

/-- The first field that has a date, in the order due, start, review. -/
def getRecurrenceScheduleAnchorField (dates : ScheduleDates) : Option ScheduleField :=
  [ScheduleField.dueDate, .startTime, .reviewAt].find? fun field => (dates.get field).isSome

def parseDate [Runtime] (s : Option String) : Option Int := safeParseDate (s.map .str)

/-- A finished task is followed by a task that is up next. -/
def nextStatus (previousStatus : Option Json) : Option Json :=
  if isTaskFinished previousStatus then some (.str "next") else previousStatus

theorem not_finished_nextStatus (previousStatus : Option Json) :
    isTaskFinished (nextStatus previousStatus) = false := by
  rw [nextStatus]
  split_ifs with hfinished
  · decide +kernel
  · exact Bool.eq_false_iff.2 hfinished

/-! ### Reading a recurrence -/

section
variable [Runtime]

def parsedRRule (value : Option Json) : ParsedRRule :=
  ((nonEmptyString (prop value "rrule")).map parseRRuleString).getD {}

def getRecurrenceRule (value : Option Json) : Option String :=
  match value with
  | some (.str s) => if s ∈ recurrenceRules then some s else none
  | _ => ((asStr? (prop value "rule")).filter recurrenceRules.contains).or (parsedRRule value).rule

def hasRecurrenceRule (value : Option Json) : Bool := (getRecurrenceRule value).isSome

/-- Whether the strategy is `fluid`; every other one is `strict`. -/
def isFluid (value : Option Json) : Bool := prop value "strategy" == some (.str "fluid")

def getRecurrenceByDay (value : Option Json) : Option (List String) :=
  (((prop value "byDay").bind Json.asArr?).bind fun days => normalizeWeekdays (days.filterMap Json.asStr?)).or
    (parsedRRule value).byDay

def getRecurrenceByMonthDay (value : Option Json) : Option (List Rat) :=
  (((prop value "byMonthDay").bind Json.asArr?).bind fun days => normalizeMonthDays (days.map toStr)).or
    (parsedRRule value).byMonthDay

def getRecurrenceInterval (value : Option Json) : Rat := (parsedRRule value).interval.getD 1

def getRecurrenceWeekStart (value : Option Json) : Option String :=
  (normalizeWeekStart (prop value "weekStart")).or (parsedRRule value).weekStart

def getRecurrenceCountValue (value : Option Json) : Option Int :=
  (((asNum? (prop value "count")).filter (0 < ·)).map mathRound).or ((parsedRRule value).count.filter (0 < ·))

def getRecurrenceUntilValue (value : Option Json) : Option String :=
  (nonEmptyString (prop value "until")).or (parsedRRule value).untilDate

def getRecurrenceCompletedOccurrencesValue (value : Option Json) : Option Int :=
  ((asNum? (prop value "completedOccurrences")).filter (0 ≤ ·)).map Rat.floor

end

def anchorKey : ScheduleField → String
  | .startTime => "startAnchorDay"
  | .dueDate => "dueAnchorDay"
  | .reviewAt => "reviewAnchorDay"

def getRecurrenceFieldAnchorDay (value : Option Json) (field : ScheduleField) : Option Int :=
  normalizeAnchorDay (prop value (anchorKey field))

section
variable [LocalCalendar]

def getDateDay (value : Option String) : Option Int := (parseDate value).map getDate

/-- The day of a field, the anchor of the whole recurrence being that of its owner only. -/
def resolveRecurrenceFieldAnchorDay (recurrence : Option Json) (dates : ScheduleDates)
    (field : ScheduleField) : Option Int :=
  let globalAnchor := normalizeAnchorDay (prop recurrence "anchorDay")
  let ownerField := getRecurrenceScheduleAnchorField dates
  ((getRecurrenceFieldAnchorDay recurrence field).or
    (if some field = ownerField then globalAnchor else none)).or (getDateDay (dates.get field))

/-- The properties a new recurrence has for its anchors. -/
def getNextRecurrenceAnchorDays (task : Task) (rule : String) : List (String × Int) :=
  if rule = "monthly" ∨ rule = "yearly" then
    let day := resolveRecurrenceFieldAnchorDay task.recurrence (scheduleDates task)
    let anchorDay := (((normalizeAnchorDay (prop task.recurrence "anchorDay")).or (day .dueDate)).or
      (day .startTime)).or (day .reviewAt)
    [("anchorDay", anchorDay), ("startAnchorDay", day .startTime), ("dueAnchorDay", day .dueDate),
      ("reviewAnchorDay", day .reviewAt)].filterMap fun e => e.2.map fun n => (e.1, n)
  else []

/-! ### Stepping by a rule -/

def weekdayIndex (weekday : String) : Int := weekdayOrder.idxOf weekday

def getLastDayOfMonth (year month : Int) : Option Int := (newDate year (month + 1) 0 midnight).map getDate

def buildDateWithTime (year month day : Int) (base : Int) : Date :=
  newDate year month day (LocalCalendar.localClock base)

/-- `anchorDay` of the month, or the last day of a shorter month. -/
def clampedDate (base year month : Int) (anchorDay : Option Int) : Date :=
  (getLastDayOfMonth year month).bind fun lastDay =>
    buildDateWithTime year month (min (anchorDay.getD (getDate base)) lastDay) base

def addMonthsClamped (base : Int) (interval : Rat) (anchorDay : Option Int) : Date :=
  let seed := newDate (getFullYear base) (truncate (getMonth base + interval)) 1 (LocalCalendar.localClock base)
  seed.bind fun seed => clampedDate base (getFullYear seed) (getMonth seed) anchorDay

def addYearsClamped (base : Int) (interval : Rat) (anchorDay : Option Int) : Date :=
  clampedDate base (truncate (getFullYear base + interval)) (getMonth base) anchorDay

def addInterval (base : Int) (rule : String) (interval : Rat) (anchorDay : Option Int) : Date :=
  if rule = "daily" then LocalCalendar.addDays base interval
  else if rule = "weekly" then LocalCalendar.addWeeks base interval
  else if rule = "monthly" then addMonthsClamped base interval anchorDay
  else addYearsClamped base interval anchorDay

def orderWeekdaysByWeekStart (weekStart : String) : List String :=
  let startIndex := weekdayOrder.idxOf weekStart
  weekdayOrder.drop startIndex ++ weekdayOrder.take startIndex

/-- The first listed weekday after `base`, in its own week or in one of the weeks that are `interval`
apart. -/
def nextWeeklyByDay (base : Int) (byDay : List String) (interval : Rat) (weekStart : Option String) : Date :=
  match normalizeWeeklyByDay byDay with
  | none => LocalCalendar.addWeeks base interval
  | some normalizedDays =>
    let safeInterval := if 0 < interval then interval else 1
    let normalizedWeekStart := (normalizeWeekStart ((weekStart.getD "MO") |> Json.str |> some)).getD "MO"
    let orderedDays := (orderWeekdaysByWeekStart normalizedWeekStart).filter normalizedDays.contains
    let weekStartIndex := weekdayIndex normalizedWeekStart
    let anchorWeekStart := shiftDate base (-(((LocalCalendar.getDay base - weekStartIndex + 7) % 7 : Int) : Rat))
    let found := (List.range 53).findSome? fun step =>
      let candidateWeekStart := anchorWeekStart.bind (LocalCalendar.addWeeks · (step * safeInterval))
      orderedDays.findSome? fun weekday =>
        let dayOffset := (weekdayIndex weekday - weekStartIndex + 7) % 7
        let candidate := candidateWeekStart.bind (LocalCalendar.addDays · (dayOffset : Rat))
        if step = 0 ∧ candidate.any (· ≤ base) then none else some candidate
    found.getD (LocalCalendar.addWeeks base safeInterval)

/-- The weekday with this number in the month, counted from the end where the number is negative. -/
def getNthWeekdayOfMonth (year month : Int) (weekday : String) (ordinal : Int) : Date :=
  let inMonth (candidate : Date) : Date := candidate.filter fun time => getMonth time == month
  if ordinal = 0 then none
  else if 0 < ordinal then
    (newDate year month 1 midnight).bind fun firstOfMonth =>
      let offset := (weekdayIndex weekday - LocalCalendar.getDay firstOfMonth + 7) % 7
      inMonth (newDate year month (1 + offset + (ordinal - 1) * 7) midnight)
  else
    (newDate year (month + 1) 0 midnight).bind fun lastOfMonth =>
      let offset := (LocalCalendar.getDay lastOfMonth - weekdayIndex weekday + 7) % 7
      inMonth (newDate year month (getDate lastOfMonth - offset) midnight)

/-- `/^(-?\d)?(SU|MO|TU|WE|TH|FR|SA)$/`. -/
def parseOrdinalByDay (token : String) : Option (String × Option Int) :=
  let cs := token.toList
  let weekday := String.ofList (cs.drop (cs.length - 2))
  if weekday ∈ weekdayOrder then
    match cs.take (cs.length - 2) with
    | [] => some (weekday, none)
    | ['-', d] => (digits? [d]).map fun n => (weekday, some (-n))
    | [d] => (digits? [d]).map fun n => (weekday, some n)
    | _ => none
  else none

/-- The days of a month that one token names, at the clock time of `base`. -/
def monthCandidates (base year month : Int) (candidate : String × Option Int) : List Int :=
  match candidate.2 with
  | some ordinal =>
    ((getNthWeekdayOfMonth year month candidate.1 ordinal).bind fun result =>
      buildDateWithTime (getFullYear result) (getMonth result) (getDate result) base).toList
  | none =>
    (List.range ((getLastDayOfMonth year month).getD 0).toNat).filterMap fun day =>
      (buildDateWithTime year month (day + 1) base).filter fun result =>
        LocalCalendar.getDay result == weekdayIndex candidate.1

/-- The earliest candidate after `base` of the first month that has one, the months being `interval`
apart. -/
def firstInMonths (base : Int) (interval : Rat) (candidates : Int → Int → List Int) : Except JsError Date :=
  let safeInterval := if 0 < interval then interval else 1
  let inMonth (step : Nat) : Date :=
    (LocalCalendar.addMonths base (step * safeInterval)).bind fun monthDate =>
      ((candidates (getFullYear monthDate) (getMonth monthDate)).filter fun date =>
        step != 0 || decide (base < date)).min?
  if isInfinite (safeInterval * 12) then
    -- the bound of the loop is infinite, and a month this far away is no date and has no candidates
    match inMonth 0 with
    | some date => .ok (some date)
    | none => .error .endless
  else .ok (((List.range 13).findSome? inMonth).or (LocalCalendar.addMonths base safeInterval))

def nextMonthlyByDay (base : Int) (byDay : List String) (interval : Rat) : Except JsError Date :=
  match normalizeWeekdays byDay with
  | none => .ok (LocalCalendar.addMonths base interval)
  | some normalized =>
    firstInMonths base interval fun year month =>
      (normalized.filterMap parseOrdinalByDay).flatMap (monthCandidates base year month)

def nextMonthlyByMonthDay (base : Int) (byMonthDay : List Rat) (interval : Rat) : Except JsError Date :=
  match normalizeMonthDays (byMonthDay.map Runtime.numberToString) with
  | none => .ok (LocalCalendar.addMonths base interval)
  | some normalized =>
    firstInMonths base interval fun year month =>
      normalized.filterMap fun day =>
        (if day = -1 then buildDateWithTime year (month + 1) 0 base
          else buildDateWithTime year month (truncate day) base).filter fun date => getMonth date == month

/-! ### The next date of a field -/

/-- What a recurrence says about its steps. -/
structure StepRule where
  rule : String
  byDay : Option (List String)
  byMonthDay : Option (List Rat)
  interval : Rat
  weekStart : Option String

def nextDateFrom (base formatBase : Int) (r : StepRule) (anchorDay : Option Int) : Except JsError Date :=
  let simple : Date := addInterval base r.rule r.interval (some (anchorDay.getD (getDate formatBase)))
  match r.byDay.filter (· != []), r.byMonthDay.filter (· != []) with
  | some byDay, _ =>
    if r.rule = "weekly" then .ok (nextWeeklyByDay base byDay r.interval r.weekStart)
    else if r.rule = "monthly" then nextMonthlyByDay base byDay r.interval
    else .ok simple
  | none, some byMonthDay =>
    if r.rule = "monthly" then nextMonthlyByMonthDay base byMonthDay r.interval else .ok simple
  | none, none => .ok simple

/-- `nextDate` in the form `baseIso` has. -/
def formatLike (baseIso : String) (formatBase : Int) (nextDate : Date) : Except JsError String :=
  if isDateOnly baseIso then formatted LocalCalendar.formatDate nextDate
  else if hasTimezone baseIso then formatted Runtime.toISOString nextDate
  else if hasTimeComponent baseIso then
    formatted LocalCalendar.formatMinute (nextDate.bind fun next =>
      buildDateWithTime (getFullYear next) (getMonth next) (getDate next) formatBase)
  else formatted LocalCalendar.formatMinute nextDate

/-- The date after `baseIso`, in the form `baseIso` has. -/
def nextIsoFrom (baseIso : String) (fallbackBase : Int) (r : StepRule) (searchBase anchorDay : Option Int) :
    Except JsError String := do
  let formatBase := (parseDate (some baseIso)).getD fallbackBase
  let nextDate ← nextDateFrom (searchBase.getD formatBase) formatBase r anchorDay
  formatLike baseIso formatBase nextDate

/-- A day-aligned rule skips the units before the last of its interval. -/
def nextFluidIsoFrom (baseIso : String) (fallbackBase : Int) (r : StepRule) : Except JsError String :=
  let hasByDay := (r.byDay.filter (· != [])).isSome
  let hasByMonthDay := (r.byMonthDay.filter (· != [])).isSome
  let dayAligned := (r.rule == "weekly" && hasByDay) || (r.rule == "monthly" && (hasByDay || hasByMonthDay))
  if !dayAligned || decide (r.interval ≤ 1) then nextIsoFrom baseIso fallbackBase r none none
  else
    let base := (parseDate (some baseIso)).getD fallbackBase
    let shiftedBase :=
      if r.rule = "weekly" then LocalCalendar.addWeeks base (r.interval - 1)
      else LocalCalendar.addMonths base (r.interval - 1)
    match shiftedBase with
    | some shifted => nextIsoFrom baseIso fallbackBase { r with interval := 1 } (some shifted) none
    | none => .error invalidTime

def preserveDateOnlyFormat (nextIso sourceIso : String) : String :=
  if isDateOnly sourceIso then ((parseDate (some nextIso)).map LocalCalendar.formatDate).getD nextIso else nextIso

/-- The field that lies as many days from the next anchor as `sourceIso` does from the anchor. -/
def shiftScheduleFieldFromAnchor (sourceIso sourceAnchorIso nextAnchorIso : String) : Except JsError String :=
  match parseDate (some sourceIso), parseDate (some sourceAnchorIso), parseDate (some nextAnchorIso) with
  | some source, some sourceAnchor, some nextAnchor =>
    let days := LocalCalendar.differenceInCalendarDays source sourceAnchor
    let shifted := (LocalCalendar.addDays nextAnchor days).bind fun time =>
      atClock time (LocalCalendar.localClock source)
    if isDateOnly sourceIso then formatted LocalCalendar.formatDate shifted
    else if hasTimezone sourceIso then formatted Runtime.toISOString shifted
    else formatted LocalCalendar.formatMinute shifted
  | _, _, _ => .ok sourceIso

def rebuildScheduleField (dates : ScheduleDates) (anchorField : ScheduleField) (sourceAnchorIso nextAnchorIso : String)
    (field : ScheduleField) : Except JsError (Option String) :=
  match dates.get field with
  | none => .ok none
  | some sourceIso =>
    if field = anchorField then .ok (some (preserveDateOnlyFormat nextAnchorIso sourceIso))
    else (shiftScheduleFieldFromAnchor sourceIso sourceAnchorIso nextAnchorIso).map some

def rebuildScheduleFieldsFromAnchor (dates : ScheduleDates) (anchorField : ScheduleField) (nextAnchorIso : String) :
    Except JsError ScheduleDates :=
  match dates.get anchorField with
  | none => .ok {}
  | some sourceAnchorIso => do
    let rebuild := rebuildScheduleField dates anchorField sourceAnchorIso nextAnchorIso
    let startTime ← rebuild .startTime
    let dueDate ← rebuild .dueDate
    let reviewAt ← rebuild .reviewAt
    return { startTime, dueDate, reviewAt }

/-! ### Catching up -/

/-- How many steps a rule without days can be taken at once. -/
def estimatedSteps (base projectionBase : Int) (rule : String) (interval : Rat) : Int :=
  let dayNumber (time : Int) : Int :=
    LocalCalendar.utcDayNumber (getFullYear time) (getMonth time) (getDate time)
  let days := max 0 (dayNumber projectionBase - dayNumber base)
  let years := getFullYear projectionBase - getFullYear base
  let months := max 0 (years * 12 + getMonth projectionBase - getMonth base)
  if rule = "daily" then ((days : Rat) / interval).floor
  else if rule = "weekly" then ((days : Rat) / (interval * 7)).floor
  else if rule = "monthly" then ((months : Rat) / interval).floor
  else (((max 0 years : Int) : Rat) / interval).floor

/-- Steps on until the date is after `projectionBase`; `steps` have been taken before. -/
def projectSteps (projectionBase : Int) (r : StepRule) (anchorDay : Option Int) :
    Nat → String → Int → Except JsError (String × Int)
  | 0, nextIso, steps => .ok (nextIso, steps)
  | guard + 1, nextIso, steps =>
    match parseDate (some nextIso) with
    | none => .ok (nextIso, steps)
    | some parsedNext =>
      if projectionBase < parsedNext then .ok (nextIso, steps)
      else do
        let followingIso ← nextIsoFrom nextIso projectionBase r none anchorDay
        if followingIso = nextIso then return (nextIso, steps)
        else projectSteps projectionBase r anchorDay guard followingIso (steps + 1)

/-- How many steps are taken at once: all but the last of those that lie before `projectionBase`. -/
def skippedSteps (baseIso : String) (projectionBase : Int) (r : StepRule) : Int :=
  let safeInterval := if 0 < r.interval then r.interval else 1
  let hasComplexCalendarRule := (r.byDay.filter (· != [])).isSome || (r.byMonthDay.filter (· != [])).isSome
  match parseDate (some baseIso) with
  | some base =>
    if base < projectionBase ∧ !hasComplexCalendarRule then
      max 0 (estimatedSteps base projectionBase r.rule safeInterval - 1)
    else 0
  | none => 0

/-- The date and the number of steps it is away. -/
def projectStrictIsoFrom (baseIso : String) (projectionBase : Int) (r : StepRule) (anchorDay : Option Int) :
    Except JsError (String × Int) := do
  let safeInterval := if 0 < r.interval then r.interval else 1
  let skippedSteps := skippedSteps baseIso projectionBase r
  let fastForwardedBaseIso ←
    if 0 < skippedSteps then
      let wide := { r with byDay := none, byMonthDay := none, interval := safeInterval * skippedSteps }
      nextIsoFrom baseIso projectionBase wide none anchorDay
    else .ok baseIso
  let nextIso ← nextIsoFrom fastForwardedBaseIso projectionBase { r with interval := safeInterval } none anchorDay
  projectSteps projectionBase r anchorDay 1000 nextIso (skippedSteps + 1)

/-! ### Relative starts -/

def pad2 (n : Int) : String := padStart 2 (toString n)

def formatLocalDate : Date → String
  | some time => toString (getFullYear time) ++ "-" ++ pad2 (getMonth time + 1) ++ "-" ++ pad2 (getDate time)
  | none => "NaN-NaN-NaN"

def formatLocalDateTime (date : Date) : String :=
  formatLocalDate date ++ "T" ++
    match date with
    | some time => pad2 (LocalCalendar.localClock time).1 ++ ":" ++ pad2 (LocalCalendar.localClock time).2.1
    | none => "NaN:NaN"

def addOffset (date : Int) (amount : Rat) (unit : String) : Date :=
  if unit = "minute" then shiftMinutes date amount
  else if unit = "hour" then shiftHours date amount
  else if unit = "day" then shiftDate date amount
  else shiftDate date (amount * 7)

def computeRelativeStartTime (dueDate : Option String) (offset : Option Json) :
    Except JsError (Option String) :=
  match dueDate.filter (· != ""), prop offset "unit", prop offset "amount" with
  | some dueDate, some (.str unit), some (.num amount) =>
    match parseDate (some dueDate) with
    | none => .ok none
    | some due =>
      if !hasTimeComponent dueDate && (unit == "minute" || unit == "hour") then .ok none
      else
        let computed := addOffset due amount unit
        if hasTimezone dueDate then (formatted Runtime.toISOString computed).map some
        else if !hasTimeComponent dueDate && (unit == "day" || unit == "week") then
          .ok (some (formatLocalDate computed))
        else .ok (some (formatLocalDateTime computed))
  | _, _, _ => .ok none

/-! ### The next task -/

/-- The next dates of the task, and whether its start still follows its due date. -/
def nextSchedule (task : Task) (r : StepRule) (fluid : Bool) (completedAtIso : String) (completedAtDate : Int) :
    Except JsError ScheduleDates := do
  let dates := scheduleDates task
  match getRecurrenceScheduleAnchorField dates with
  | none => return {}
  | some anchorField =>
    let sourceAnchorIso := (dates.get anchorField).getD ""
    let anchorDay := resolveRecurrenceFieldAnchorDay task.recurrence dates anchorField
    let next ←
      if fluid then nextFluidIsoFrom completedAtIso completedAtDate r
      else nextIsoFrom sourceAnchorIso completedAtDate r none anchorDay
    let rebuilt ← rebuildScheduleFieldsFromAnchor dates anchorField (preserveDateOnlyFormat next sourceAnchorIso)
    -- a start that is over when the task is completed is caught up with
    let late := (parseDate rebuilt.startTime).any (· ≤ completedAtDate)
    if !fluid && decide (anchorField = .dueDate) && rebuilt.startTime.isSome && !truthy task.relativeStartOffset &&
        late then
      let (caughtUp, _) ← projectStrictIsoFrom sourceAnchorIso completedAtDate r anchorDay
      rebuildScheduleFieldsFromAnchor dates anchorField (preserveDateOnlyFormat caughtUp sourceAnchorIso)
    else return rebuilt

def shouldStopAtUntil (nextIso untilDate : Option String) : Bool :=
  match parseDate nextIso, untilDate with
  | some next, some untilDate =>
    if isDateOnly untilDate then jsLt untilDate (LocalCalendar.formatDate next)
    else (parseDate (some untilDate)).any (· < next)
  | _, _ => false

/-- `new Date(completedAtIso)`, or the current time where that is invalid. -/
def completionDate (completedAtIso : String) (clock : Int) : Int :=
  (parseDate (some completedAtIso)).getD ((dateParse completedAtIso).getD clock)

def duplicatedAttachments (attachments : List Attachment) (completedAtIso : String) (uuid : Nat → String) :
    List Attachment :=
  (attachments.filter fun a => !truthy a.deletedAt).mapIdx fun k attachment =>
    { attachment with
      id := uuid k
      createdAt := some (.str completedAtIso)
      updatedAt := some (.str completedAtIso)
      deletedAt := none }

def resetChecklist (checklist : Option Json) (uuid : Nat → String) : Option Json :=
  match checklist.bind Json.asArr? with
  | some (item :: items) =>
    some (.arr ((item :: items).mapIdx fun k item =>
      .obj (setProp "isCompleted" (some (.bool false)) (setProp "id" (some (.str (uuid k))) (recordOf (some item))))))
  | _ => none

def nextRecurrence (task : Task) (r : StepRule) (count : Option Int) (untilDate : Option String)
    (nextCompletedOccurrences : Int) : Json :=
  let seriesId := ((asStr? (prop task.recurrence "seriesId")).map trim).filter (· != "")
  let anchors := (getNextRecurrenceAnchorDays task r.rule).map fun e => (e.1, Json.num e.2)
  let seriesId := Json.str (seriesId.getD task.id)
  match task.recurrence with
  | some (.obj recurrence) =>
    let base := spread (setProp "seriesId" (some seriesId) recurrence) anchors
    let base := if r.byMonthDay.isSome then setProp "byMonthDay" (r.byMonthDay.map numbers) base else base
    let base :=
      if (asNum? (lookup "count" recurrence)).isSome ∨ count.any (· != 0) then
        setProp "count" (count.map fun n => .num n) base
      else base
    let base :=
      if (asStr? (lookup "until" recurrence)).isSome ∨ untilDate.any (· != "") then
        setProp "until" (untilDate.map .str) base
      else base
    let base :=
      if count.any (· != 0) then setProp "completedOccurrences" (some (.num nextCompletedOccurrences)) base else base
    .obj (if truthy (lookup "rrule" recurrence) then
      setProp "rrule" (some (.str (buildRRuleString r.rule r.byDay (some r.interval) r.byMonthDay r.weekStart count
        untilDate))) base
      else base)
  | _ => .obj ([("rule", .str r.rule), ("seriesId", seriesId)] ++ anchors)

def ifTrue (v : Option Json) : Option Json := if truthy v then some (.bool true) else none

/-- The rule of a task's recurrence. -/
def stepRule (recurrence : Option Json) (rule : String) : StepRule where
  rule
  byDay := getRecurrenceByDay recurrence
  byMonthDay := getRecurrenceByMonthDay recurrence
  interval := getRecurrenceInterval recurrence
  weekStart := getRecurrenceWeekStart recurrence

/-- The next dates with the start that follows the due date. -/
def withRelativeStart (task : Task) (dates : ScheduleDates) : Except JsError (ScheduleDates × Option Json) := do
  let computed ←
    if truthy task.relativeStartOffset then computeRelativeStartTime dates.dueDate task.relativeStartOffset
    else .ok none
  return ({ dates with startTime := computed.or dates.startTime },
    if computed.isSome then task.relativeStartOffset else none)

/-- A task without dates starts again at a distance from its completion. -/
def withDeferredStart (dates : ScheduleDates) (r : StepRule) (completedAtIso : String) (completedAtDate : Int) :
    Except JsError ScheduleDates :=
  if dates.startTime.isNone && dates.dueDate.isNone && dates.reviewAt.isNone then do
    let completedAtDatePart := (datePart? completedAtIso).getD (LocalCalendar.formatDate completedAtDate)
    let startTime ← nextFluidIsoFrom completedAtDatePart completedAtDate r
    return { dates with startTime := some startTime }
  else return dates

/-- Whether the completed occurrence was the last one. -/
def endsSeries (recurrence : Option Json) (dates : ScheduleDates) : Bool :=
  let completedOccurrences := (getRecurrenceCompletedOccurrencesValue recurrence).getD 0
  (getRecurrenceCountValue recurrence).any (fun n => n != 0 && decide (n ≤ completedOccurrences + 1)) ||
    shouldStopAtUntil ((dates.dueDate.or dates.startTime).or dates.reviewAt) (getRecurrenceUntilValue recurrence)

/-- The record of the next occurrence. -/
def recurringTask (task : Task) (r : StepRule) (dates : ScheduleDates) (relativeStartOffset : Option Json)
    (completedAtIso : String) (previousStatus : Option Json) (uuid : Nat → String) : Task :=
  let attachments := duplicatedAttachments (task.attachments.getD []) completedAtIso uuid
  let generated (k : Nat) : String := uuid (attachments.length + k)
  { id := generated 0
    title := task.title
    status := nextStatus previousStatus
    priority := task.priority
    energyLevel := task.energyLevel
    assignedTo := task.assignedTo
    taskMode := task.taskMode
    startTime := dates.startTime.map .str
    relativeStartOffset
    dueDate := dates.dueDate.map .str
    recurrence := some (nextRecurrence task r (getRecurrenceCountValue task.recurrence)
      (getRecurrenceUntilValue task.recurrence)
      ((getRecurrenceCompletedOccurrencesValue task.recurrence).getD 0 + 1))
    showFutureRecurrence := ifTrue task.showFutureRecurrence
    suppressMindwtrReminders := ifTrue task.suppressMindwtrReminders
    repeatReminderMinutes := task.repeatReminderMinutes
    tags := orElse task.tags (some (.arr []))
    contexts := orElse task.contexts (some (.arr []))
    checklist := resetChecklist task.checklist fun k => generated (k + 1)
    description := task.description
    textDirection := task.textDirection
    attachments := if attachments = [] then none else some attachments
    location := task.location
    projectId := task.projectId
    sectionId := task.sectionId
    areaId := task.areaId
    isFocusedToday := some (.bool false)
    completedAt := none
    cancelledAt := none
    timeEstimate := task.timeEstimate
    reviewAt := dates.reviewAt.map .str
    rev := none
    revBy := none
    createdAt := some (.str completedAtIso)
    updatedAt := some (.str completedAtIso)
    deletedAt := none }

/-- `none` where the series ends. -/
def createNextRecurringTask (task : Task) (completedAtIso : String) (previousStatus : Option Json) (clock : Int)
    (uuid : Nat → String) : Except JsError (Option Task) :=
  match getRecurrenceRule task.recurrence with
  | none => .ok none
  | some rule => do
    let r := stepRule task.recurrence rule
    let completedAtDate := completionDate completedAtIso clock
    let scheduled ← nextSchedule task r (isFluid task.recurrence) completedAtIso completedAtDate
    let (started, relativeStartOffset) ← withRelativeStart task scheduled
    let dates ← withDeferredStart started r completedAtIso completedAtDate
    if endsSeries task.recurrence dates then return none
    else return some (recurringTask task r dates relativeStartOffset completedAtIso previousStatus uuid)

theorem createNextRecurringTask_some {task next : Task} {completedAtIso : String} {previousStatus : Option Json}
    {clock : Int} {uuid : Nat → String}
    (h : createNextRecurringTask task completedAtIso previousStatus clock uuid = .ok (some next)) :
    ∃ r dates offset, next = recurringTask task r dates offset completedAtIso previousStatus uuid := by
  unfold createNextRecurringTask at h
  cases hrule : getRecurrenceRule task.recurrence with
  | none => simp [hrule] at h
  | some rule =>
    simp only [hrule] at h
    obtain ⟨scheduled, _, h⟩ := bind_eq_ok h
    obtain ⟨⟨started, offset⟩, _, h⟩ := bind_eq_ok h
    obtain ⟨dates, _, h⟩ := bind_eq_ok h
    split at h
    · cases h
    · exact ⟨_, _, _, (Option.some.inj (Except.ok.inj h)).symm⟩

end

end Mindwtr
