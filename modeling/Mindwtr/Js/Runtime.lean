import Mindwtr.Js.Text

/-!
# The language runtime

The functions of the language and of its engine that the code calls and whose full behaviour it
does not rely on: date parsing, number formatting. Results are for every runtime; a run on a fixed
input uses `isoRuntime`, which reads and writes the ISO forms the application itself stores.
-/

namespace Mindwtr.Js

class Runtime where
  /-- `new Date(v).getTime()`; `none` is `NaN`. -/
  dateTime : Json → Option Int
  /-- `new Date(ms).toISOString()`. -/
  toISOString : Int → String
  /-- `String(n)` of a finite number. -/
  numberToString : Rat → String
  /-- `a.localeCompare(b)`. -/
  localeCompare : String → String → Int
  toLowerCase : String → String
  toUpperCase : String → String
  /-- `Number(s)`; `none` is `NaN`, and a number as large as `isInfinite` says stands for `Infinity`. -/
  toNumber : String → Option Rat
  /-- `none` where it throws. -/
  decodeURIComponent : String → Option String
  encodeURIComponent : String → String
  /-- `new URL(s).pathname`; `none` where the constructor throws. -/
  urlPathname : String → Option String
  /-- The local time with this year, month, day, hour, minute, second and millisecond. -/
  localTime : Int → Int → Int → Int → Int → Int → Int → Option Int
  /-- Year, month and day of a time in the local time zone. -/
  localDay : Int → Int × Int × Int
  /-- `parseISO` of `date-fns`. -/
  parseISO : String → Option Int
  /-- `format(date, "yyyy-MM-dd'T'HH:mm:ss")` of `date-fns`. -/
  formatLocal : Int → String

section
variable [Runtime]

/-- `new Date(v).getTime()` of an expression that may be `undefined`. -/
def dateTime (v : Option Json) : Option Int := v.bind Runtime.dateTime

@[simp] theorem dateTime_none : dateTime none = none := rfl
@[simp] theorem dateTime_some (v : Json) : dateTime (some v) = Runtime.dateTime v := rfl

/-- `Date.parse(s)`, which reads a string exactly as the constructor does. -/
def dateParse (s : String) : Option Int := Runtime.dateTime (.str s)

end

/-- The result of an operation is infinite where its exact value is at least half a step beyond the largest number. -/
def isInfinite (n : Rat) : Bool := decide (2 ^ 1024 - 2 ^ 970 ≤ n)

/-! ### `JSON.stringify` -/

def hexDigit (n : Nat) : Char := if n < 10 then Char.ofNat (48 + n) else Char.ofNat (87 + n)

def escapeChar (c : Char) : List Char :=
  let n := c.toNat
  let escaped (m : Nat) : List Char := [Char.ofNat 92, Char.ofNat m]
  if n = 34 ∨ n = 92 then escaped n
  else if n = 8 then escaped 98
  else if n = 9 then escaped 116
  else if n = 10 then escaped 110
  else if n = 12 then escaped 102
  else if n = 13 then escaped 114
  else if n < 32 then escaped 117 ++ ['0', '0', hexDigit (n / 16), hexDigit (n % 16)]
  else [c]

def quote (s : String) : String :=
  String.ofList (Char.ofNat 34 :: s.toList.flatMap escapeChar ++ [Char.ofNat 34])

section
variable [Runtime]

mutual

def stringify : Json → String
  | .null => "null"
  | .bool b => if b then "true" else "false"
  | .num n => Runtime.numberToString n
  | .str s => quote s
  | .arr items => "[" ++ stringifyItems items ++ "]"
  | .obj entries => "\x7b" ++ stringifyEntries entries ++ "\x7d"

def stringifyItems : List Json → String
  | [] => ""
  | [v] => stringify v
  | v :: rest => stringify v ++ "," ++ stringifyItems rest

def stringifyEntries : List (String × Json) → String
  | [] => ""
  | [(k, v)] => quote k ++ ":" ++ stringify v
  | (k, v) :: rest => quote k ++ ":" ++ stringify v ++ "," ++ stringifyEntries rest

end

end

/-! ### Conversions -/

section
variable [Runtime]

mutual

/-- `String(v)`. -/
def toStr : Json → String
  | .null => "null"
  | .bool b => if b then "true" else "false"
  | .num n => Runtime.numberToString n
  | .str s => s
  | .arr items => joinItems items
  | .obj _ => "[object Object]"

/-- `items.join()`. -/
def joinItems : List Json → String
  | [] => ""
  | [v] => joinItem v
  | v :: rest => joinItem v ++ "," ++ joinItems rest

def joinItem : Json → String
  | .null => ""
  | .bool b => if b then "true" else "false"
  | .num n => Runtime.numberToString n
  | .str s => s
  | .arr items => joinItems items
  | .obj _ => "[object Object]"

end

end

/-- `Math.round(n)`. -/
def mathRound (n : Rat) : Int := (n + 1 / 2).floor

/-- `s.padStart(len, "0")`. -/
def padStart (len : Nat) (s : String) : String :=
  String.ofList (List.replicate (len - s.toList.length) '0' ++ s.toList)

/-- `s.split(c)`. -/
def splitOn (c : Char) (s : String) : List String := (s.toList.splitOn c).map String.ofList

/-! ### A runtime for the stored date form -/

/-- Days from 1970-01-01 to the given day of the proleptic Gregorian calendar. -/
def daysFromCivil (y m d : Int) : Int :=
  let y' := if m ≤ 2 then y - 1 else y
  let era := y' / 400
  let yoe := y' - era * 400
  let doy := (153 * (m + (if m > 2 then -3 else 9)) + 2) / 5 + d - 1
  let doe := yoe * 365 + yoe / 4 - yoe / 100 + doy
  era * 146097 + doe - 719468

def utcTime (y mo d h mi sec ms : Int) : Int :=
  (((daysFromCivil y mo d * 24 + h) * 60 + mi) * 60 + sec) * 1000 + ms

def digits? (cs : List Char) : Option Int :=
  if cs = [] || cs.any (fun c => !c.isDigit) then none
  else some (cs.foldl (fun n c => 10 * n + ((c.toNat : Int) - 48)) 0)

/-- `YYYY-MM-DDTHH:MM:SS.sssZ`, the form `toISOString` writes. -/
def parseIso (s : String) : Option Int :=
  let cs := s.toList
  let field (start len : Nat) : Option Int := digits? ((cs.drop start).take len)
  let mark (i : Nat) : Option Char := cs[i]?
  if cs.length = 24 ∧ mark 4 = some '-' ∧ mark 7 = some '-' ∧ mark 10 = some 'T' ∧ mark 13 = some ':' ∧
      mark 16 = some ':' ∧ mark 19 = some '.' ∧ mark 23 = some 'Z' then
    match field 0 4, field 5 2, field 8 2, field 11 2, field 14 2, field 17 2, field 20 3 with
    | some y, some mo, some d, some h, some mi, some sec, some ms =>
      if 1 ≤ mo ∧ mo ≤ 12 ∧ 1 ≤ d ∧ d ≤ 31 ∧ h < 24 ∧ mi < 60 ∧ sec < 60 then
        some (utcTime y mo d h mi sec ms)
      else none
    | _, _, _, _, _, _, _ => none
  else none

def padded (len : Nat) (n : Int) : String := padStart len (toString n)

/-- The calendar day that lies `days` after 1970-01-01. -/
def civilFromDays (days : Int) : Int × Int × Int :=
  let z := days + 719468
  let era := z / 146097
  let doe := z - era * 146097
  let yoe := (doe - doe / 1460 + doe / 36524 - doe / 146096) / 365
  let doy := doe - (365 * yoe + yoe / 4 - yoe / 100)
  let mp := (5 * doy + 2) / 153
  let d := doy - (153 * mp + 2) / 5 + 1
  let m := if mp < 10 then mp + 3 else mp - 9
  (yoe + era * 400 + (if m ≤ 2 then 1 else 0), m, d)

def formatIso (ms : Int) : String :=
  let (y, mo, d) := civilFromDays (ms / 86400000)
  let t := ms % 86400000
  padded 4 y ++ "-" ++ padded 2 mo ++ "-" ++ padded 2 d ++ "T" ++ padded 2 (t / 3600000) ++ ":" ++
    padded 2 (t / 60000 % 60) ++ ":" ++ padded 2 (t / 1000 % 60) ++ "." ++ padded 3 (t % 1000) ++ "Z"

/-- Dates in the stored form, integers in decimal, no time zone, URIs without escapes. -/
@[reducible] def isoRuntime : Runtime where
  dateTime
    | .str s => parseIso s
    | .num n => some (if n < 0 then n.ceil else n.floor)
    | .null => some 0
    | .bool b => some (if b then 1 else 0)
    | _ => none
  toISOString := formatIso
  numberToString n := if n.den = 1 then toString n.num else toString n.num ++ "/" ++ toString n.den
  localeCompare a b := if a = b then 0 else if jsLt a b then -1 else 1
  toLowerCase s := String.ofList (s.toList.map Char.toLower)
  toUpperCase s := String.ofList (s.toList.map Char.toUpper)
  toNumber s := (digits? s.toList).map fun n => n
  decodeURIComponent s := some s
  encodeURIComponent s := s
  urlPathname _ := none
  localTime y mo d h mi sec ms := some (utcTime y mo d h mi sec ms)
  localDay ms := civilFromDays (ms / 86400000)
  parseISO := parseIso
  formatLocal ms := String.ofList ((formatIso ms).toList.take 19)

example : parseIso "2026-01-01T00:00:10.000Z" = some 1767225610000 := by decide

end Mindwtr.Js
