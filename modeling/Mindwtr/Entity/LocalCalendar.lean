import Mindwtr.Entity.Dates
import Mindwtr.Js.Throw

/-!
# The local calendar

What `Date` and `date-fns` do with a time in the local time zone. A date is its time value, `none`
where it is an invalid date; formatting an invalid date throws. As with `Runtime`, results are for
every calendar, and `utcCalendar` is the one of a device whose time zone is UTC.
-/

namespace Mindwtr

open Mindwtr.Js

class LocalCalendar extends Runtime where
  /-- Hours, minutes, seconds and milliseconds of a time in the local time zone. -/
  localClock : Int → Int × Int × Int × Int
  /-- `date.getDay()`. -/
  getDay : Int → Int
  /-- `addDays`, `addWeeks`, `addMonths` and `differenceInCalendarDays` of `date-fns`. -/
  addDays : Int → Rat → Option Int
  addWeeks : Int → Rat → Option Int
  addMonths : Int → Rat → Option Int
  differenceInCalendarDays : Int → Int → Int
  /-- `format(date, "yyyy-MM-dd")`. -/
  formatDate : Int → String
  /-- `format(date, "yyyy-MM-dd'T'HH:mm")`. -/
  formatMinute : Int → String
  /-- `Date.UTC(year, month, day) / 86_400_000`. -/
  utcDayNumber : Int → Int → Int → Int

abbrev Date := Option Int

def invalidTime : JsError := .error "Invalid time value"

/-- The integer part of a number. -/
def truncate (n : Rat) : Int := if n < 0 then n.ceil else n.floor

/-- The constructor of `Date` and `Date.UTC` take the years 0 to 99 for those of the twentieth century. -/
def fullYear (year : Int) : Int := if 0 ≤ year ∧ year ≤ 99 then 1900 + year else year

section
variable [LocalCalendar]

def getFullYear (time : Int) : Int := (Runtime.localDay time).1
/-- Months are numbered from 0. -/
def getMonth (time : Int) : Int := (Runtime.localDay time).2.1 - 1
def getDate (time : Int) : Int := (Runtime.localDay time).2.2

/-- The time with these fields, where a month outside the year counts on into another one. The setters of a
date set it to this time. -/
def dateOf (year month day : Int) (clock : Int × Int × Int × Int) : Date :=
  Runtime.localTime (year + month / 12) (month % 12 + 1) day clock.1 clock.2.1 clock.2.2.1 clock.2.2.2

/-- `new Date(year, month, day, hours, minutes, seconds, milliseconds)`. -/
def newDate (year month day : Int) (clock : Int × Int × Int × Int) : Date := dateOf (fullYear year) month day clock

def midnight : Int × Int × Int × Int := (0, 0, 0, 0)

/-- `date.setDate(date.getDate() + days)`. -/
def shiftDate (time : Int) (days : Rat) : Date :=
  dateOf (getFullYear time) (getMonth time) (truncate (getDate time + days)) (LocalCalendar.localClock time)

/-- `date.setHours(date.getHours() + hours)`. -/
def shiftHours (time : Int) (hours : Rat) : Date :=
  let (hour, minute, second, millisecond) := LocalCalendar.localClock time
  dateOf (getFullYear time) (getMonth time) (getDate time) (truncate (hour + hours), minute, second, millisecond)

/-- `date.setMinutes(date.getMinutes() + minutes)`. -/
def shiftMinutes (time : Int) (minutes : Rat) : Date :=
  let (hour, minute, second, millisecond) := LocalCalendar.localClock time
  dateOf (getFullYear time) (getMonth time) (getDate time) (hour, truncate (minute + minutes), second, millisecond)

/-- `date.setHours(...clock)`. -/
def atClock (time : Int) (clock : Int × Int × Int × Int) : Date :=
  dateOf (getFullYear time) (getMonth time) (getDate time) clock

/-- 23:59:59.999 of the day of `now`. -/
def endOfDay (now : Int) : Date := atClock now (23, 59, 59, 999)

/-- A text made of a date, which throws where the date is invalid. -/
def formatted (format : Int → String) : Date → Except JsError String
  | some time => .ok (format time)
  | none => .error invalidTime

end

/-! ### Patterns -/

/-- `/^\d{4}-\d{2}-\d{2}$/`. -/
def isDateOnly (s : String) : Bool := (Scan.calendarDate.run? s).isSome

/-- `/^\d{4}-\d{2}-\d{2}/.exec(s)?.[0]`. -/
def datePart? (s : String) : Option String :=
  (Scan.calendarDate s.toList).map fun _ => String.ofList (s.toList.take 10)

/-- `/^[T\s]\d{2}:\d{2}/`. -/
def startsWithTime : List Char → Bool
  | sep :: a :: b :: ':' :: c :: d :: _ =>
    (sep == 'T' || isTrimmed sep) && a.isDigit && b.isDigit && c.isDigit && d.isDigit
  | _ => false

/-- `/[T\s]\d{2}:\d{2}/`. -/
def hasTimeComponent (s : String) : Bool := s.toList.tails.any startsWithTime

/-! ### A device in UTC -/

/-- The time whose day of the month is `days` further on; a fraction of a day is cut off there. -/
def utcShift (ms : Int) (days : Rat) : Int :=
  let day := (civilFromDays (ms / 86400000)).2.2
  ms + (truncate (day + days) - day) * 86400000

@[reducible] def utcCalendar : LocalCalendar where
  toRuntime := isoRuntime
  localClock ms :=
    let t := ms % 86400000
    (t / 3600000, t / 60000 % 60, t / 1000 % 60, t % 1000)
  getDay ms := (ms / 86400000 + 4) % 7
  addDays ms days := some (utcShift ms days)
  addWeeks ms weeks := some (utcShift ms (weeks * 7))
  addMonths ms months :=
    let (y, m, d) := civilFromDays (ms / 86400000)
    let month := truncate ((m : Rat) + months) - 1
    let lastDay := daysInMonth (y + month / 12) (month % 12 + 1)
    some (utcTime (y + month / 12) (month % 12 + 1) (min d lastDay) 0 0 0 0 + ms % 86400000)
  differenceInCalendarDays a b := a / 86400000 - b / 86400000
  formatDate ms := String.ofList ((formatIso ms).toList.take 10)
  formatMinute ms := String.ofList ((formatIso ms).toList.take 16)
  utcDayNumber y m d := daysFromCivil (fullYear y) (m + 1) d

end Mindwtr
