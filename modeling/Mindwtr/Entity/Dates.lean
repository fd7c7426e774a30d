import Mindwtr.Js.Runtime

/-!
# Dates in fields

`safeParseDate` of `date.ts` and `normalizeCancellationTimestamp` of `task-status.ts`. Their patterns
are read by a scanner that consumes the text from the left.
-/

namespace Mindwtr

open Mindwtr.Js

/-! ### Scanning -/

abbrev Scan := StateT (List Char) Option

namespace Scan

def char (c : Char) : Scan Unit := fun
  | d :: rest => if d = c then some ((), rest) else none
  | [] => none

def oneOf (cs : List Char) : Scan Char := fun
  | d :: rest => if d ∈ cs then some (d, rest) else none
  | [] => none

/-- `\d{n}`. -/
def digits (n : Nat) : Scan Int := fun cs =>
  if (cs.take n).length = n then (digits? (cs.take n)).map fun value => (value, cs.drop n) else none

/-- `\d{1,limit}`, greedily. -/
def digitRun (limit : Nat) : Scan (List Char) := fun cs =>
  let run := (cs.take limit).takeWhile Char.isDigit
  if run = [] then none else some (run, cs.drop run.length)

/-- `(?:p)?`, greedily. -/
def optional {α : Type} (p : Scan α) : Scan (Option α) := fun cs =>
  match p cs with
  | some (a, rest) => some (some a, rest)
  | none => some (none, cs)

/-- The match of a pattern that ends in `$`. -/
def run? {α : Type} (p : Scan α) (s : String) : Option α :=
  match p s.toList with
  | some (a, []) => some a
  | _ => none

/-- `(\d{4})-(\d{2})-(\d{2})`. -/
def calendarDate : Scan (Int × Int × Int) := do
  let year ← digits 4
  char '-'
  let month ← digits 2
  char '-'
  let day ← digits 2
  return (year, month, day)

/-- `([+-])(\d{2}):(\d{2})`. -/
def offset : Scan (Int × Int) := do
  let _ ← oneOf ['+', '-']
  let hour ← digits 2
  char ':'
  let minute ← digits 2
  return (hour, minute)

/-- `(?:Z|([+-])(\d{2}):(\d{2}))`. -/
def zone : Scan (Int × Int) := fun cs =>
  match char 'Z' cs with
  | some (_, rest) => some ((0, 0), rest)
  | none => offset cs

theorem char_eq_some {c : Char} {cs rest : List Char} : Scan.char c cs = some ((), rest) ↔ cs = c :: rest := by
  unfold Scan.char
  split
  · next d tail =>
    split
    · next hd => simp [hd]
    · next hd => simp [hd]
  · simp

theorem digits_eq_some {n : Nat} {cs rest : List Char} {value : Int} :
    Scan.digits n cs = some (value, rest) ↔
      ∃ taken, cs = taken ++ rest ∧ taken.length = n ∧ digits? taken = some value := by
  unfold Scan.digits
  constructor
  · intro h
    split at h
    · next hlength =>
      obtain ⟨v, hv, heq⟩ := Option.map_eq_some_iff.1 h
      obtain ⟨rfl, rfl⟩ := Prod.mk.inj heq
      exact ⟨cs.take n, (List.take_append_drop n cs).symm, hlength, hv⟩
    · cases h
  · rintro ⟨taken, rfl, rfl, hvalue⟩
    simp [hvalue]

theorem calendarDate_eq_some {cs rest : List Char} {year month day : Int} :
    Scan.calendarDate cs = some ((year, month, day), rest) ↔
      ∃ ys ms ds, cs = ys ++ '-' :: (ms ++ '-' :: (ds ++ rest)) ∧ ys.length = 4 ∧ ms.length = 2 ∧ ds.length = 2 ∧
        digits? ys = some year ∧ digits? ms = some month ∧ digits? ds = some day := by
  have hbind {α β : Type} (p : Scan α) (f : α → Scan β) (cs : List Char) (out : β × List Char) :
      (p >>= f) cs = some out ↔ ∃ a rest, p cs = some (a, rest) ∧ f a rest = some out := by
    simp [bind, StateT.bind, Option.bind_eq_some_iff]
  unfold Scan.calendarDate
  simp only [hbind, digits_eq_some]
  constructor
  · rintro ⟨y, r1, ⟨ys, rfl, hys, hy⟩, ⟨⟩, r2, h2, m, r3, ⟨ms, rfl, hms, hm⟩, ⟨⟩, r4, h4, d, r5, ⟨ds, rfl, hds, hd⟩, h⟩
    obtain rfl := char_eq_some.1 h2
    obtain rfl := char_eq_some.1 h4
    obtain ⟨⟨rfl, rfl, rfl⟩, rfl⟩ : (y = year ∧ m = month ∧ d = day) ∧ r5 = rest := by
      simpa [pure, StateT.pure] using h
    exact ⟨ys, ms, ds, rfl, hys, hms, hds, hy, hm, hd⟩
  · rintro ⟨ys, ms, ds, rfl, hys, hms, hds, hy, hm, hd⟩
    exact ⟨year, _, ⟨ys, rfl, hys, hy⟩, (), _, char_eq_some.2 rfl, month, _, ⟨ms, rfl, hms, hm⟩, (), _,
      char_eq_some.2 rfl, day, _, ⟨ds, rfl, hds, hd⟩, rfl⟩

/-- What matches a whole text. -/
theorem run?_eq_some {α : Type} {p : Scan α} {s : String} {a : α} : p.run? s = some a ↔ p s.toList = some (a, []) := by
  unfold run?
  split
  · next heq => simp [heq]
  · next hne =>
    simp only [reduceCtorEq, false_iff]
    exact fun heq => hne a heq

end Scan

theorem isDigit_of_digits? {cs : List Char} {value : Int} (h : digits? cs = some value) : ∀ c ∈ cs, c.isDigit = true := by
  unfold digits? at h
  split at h
  · cases h
  · next hplain =>
    intro c hc
    by_contra hdigit
    exact hplain (by simpa using .inr ⟨c, hc, by simpa using hdigit⟩)

/-! ### Calendar days -/

def isGregorianLeapYear (year : Int) : Bool := (year % 4 == 0 && year % 100 != 0) || year % 400 == 0

def daysInMonth (year month : Int) : Int :=
  if month = 2 then (if isGregorianLeapYear year then 29 else 28)
  else if month = 4 ∨ month = 6 ∨ month = 9 ∨ month = 11 then 30
  else 31

def isValidCalendarDate (year month day : Int) : Bool :=
  decide (1 ≤ month ∧ month ≤ 12 ∧ 1 ≤ day ∧ day ≤ daysInMonth year month)

/-- `ISO_INSTANT_PATTERN`, with the day it names. -/
def isoInstant : Scan (Int × Int × Int) := do
  let date ← Scan.calendarDate
  Scan.char 'T'
  let _ ← Scan.digits 2
  Scan.char ':'
  let _ ← Scan.digits 2
  let _ ← Scan.optional do
    Scan.char ':'
    let _ ← Scan.digits 2
    let _ ← Scan.optional do
      Scan.char '.'
      Scan.digitRun 3
    return ()
  let _ ← Scan.zone
  return date

/-- `/Z$|[+-]\d{2}:?\d{2}$/`. -/
def hasTimezone (s : String) : Bool :=
  match s.toList.reverse with
  | 'Z' :: _ => true
  | d :: c :: ':' :: b :: a :: sign :: _ =>
    d.isDigit && c.isDigit && b.isDigit && a.isDigit && (sign == '+' || sign == '-')
  | d :: c :: b :: a :: sign :: _ =>
    d.isDigit && c.isDigit && b.isDigit && a.isDigit && (sign == '+' || sign == '-')
  | _ => false

structure LocalDateTime where
  year : Int
  month : Int
  day : Int
  hour : Int := 0
  minute : Int := 0
  second : Int := 0
  millisecond : Int := 0

/-- The milliseconds of a fraction of one to three digits. -/
def paddedMilliseconds (fraction : List Char) : Int :=
  (digits? (fraction ++ List.replicate (3 - fraction.length) '0')).getD 0

/-- A date with an optional time, without a time zone. -/
def localDateTime : Scan LocalDateTime := do
  let (year, month, day) ← Scan.calendarDate
  let time ← Scan.optional do
    let _ ← fun
      | c :: rest => if c = 'T' ∨ isTrimmed c then some (c, rest) else none
      | [] => none
    let hour ← Scan.digits 2
    let minutes ← Scan.optional do
      Scan.char ':'
      let minute ← Scan.digits 2
      let seconds ← Scan.optional do
        Scan.char ':'
        let second ← Scan.digits 2
        let fraction ← Scan.optional do
          Scan.char '.'
          Scan.digitRun 3
        return (second, (fraction.map paddedMilliseconds).getD 0)
      return (minute, seconds.getD (0, 0))
    return (hour, minutes.getD (0, 0, 0))
  let (hour, minute, second, millisecond) := time.getD (0, 0, 0, 0)
  return { year, month, day, hour, minute, second, millisecond }

section
variable [Runtime]

/-- The time of `new Date(...)`; `none` is `null`. -/
def safeParseDate (dateStr : Option Json) : Option Int :=
  match asStr? dateStr with
  | none => none
  | some s =>
    if s = "" then none
    else
      let instant := (isoInstant.run? s).bind fun (year, month, day) =>
        if isValidCalendarDate year month day then dateParse s else none
      match instant with
      | some parsed => some parsed
      | none =>
        match if hasTimezone s then none else localDateTime.run? s with
        | some d =>
          if isValidCalendarDate d.year d.month d.day then
            Runtime.localTime d.year d.month d.day d.hour d.minute d.second d.millisecond
          else none
        | none => Runtime.parseISO s

/-- `ISO_DATETIME_WITH_TIMEZONE`, with the check of every field. -/
def isoDateTimeWithTimezone : Scan Bool := do
  let (year, month, day) ← Scan.calendarDate
  Scan.char 'T'
  let hour ← Scan.digits 2
  Scan.char ':'
  let minute ← Scan.digits 2
  Scan.char ':'
  let second ← Scan.digits 2
  let _ ← Scan.optional do
    Scan.char '.'
    fun cs => Scan.digitRun cs.length cs
  let (offsetHour, offsetMinute) ← Scan.zone
  return isValidCalendarDate year month day && decide (hour ≤ 23 ∧ minute ≤ 59 ∧ second ≤ 59 ∧
    offsetHour ≤ 23 ∧ offsetMinute ≤ 59)

/-- A valid event time with its time zone is kept as it is written. -/
def normalizeCancellationTimestamp (value : Option Json) : Option Json :=
  match value with
  | some (.str s) =>
    if isoDateTimeWithTimezone.run? s = some true ∧ (dateParse s).isSome then value else none
  | _ => none

end

example : isoDateTimeWithTimezone.run? "2026-02-29T10:00:00.5+02:00" = some false := by decide +kernel

end Mindwtr
