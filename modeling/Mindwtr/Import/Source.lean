import Mindwtr.Entity.Types
import Mindwtr.Js.Runtime
import Mindwtr.Js.Throw
import Mindwtr.Lib.Csv

/-!
# Reading an import file

`import-source-reader.ts` for one text file: its limits, the separator, the rows of the text and their cells, with the
name-based ids of `uuid.ts`. Fields are read at the types that `types.ts` gives them.
-/

namespace Mindwtr.Import

open Mindwtr.Js

/-- A field of type `string`, or the empty string where it is not set. -/
def text (value : Option Json) : String := (asStr? value).getD ""

/-- A field of type `string[]`. -/
def texts (value : Option Json) : List String := (((value.bind Json.asArr?).getD []).filterMap Json.asStr?)

/-! ### Limits -/

def mebibyte : Nat := 1024 * 1024

def defaultImportCsvLimits : Lib.Csv.Limits Char where
  width c := (codeUnits c).length
  maxCell := mebibyte
  maxColumns := 256
  maxRows := 100000

def defaultImportChecklistItemLimit : Nat := 1000
def maxChecklistItems : Nat := 100000
def maxEntities : Nat := 100000
def maxTextBytes : Nat := 8 * mebibyte

def overflowError : Lib.Csv.Overflow → JsError
  | .cell => .error "A CSV cell is too large. Keep each cell to 1048576 characters or fewer."
  | .columns => .error "A CSV row contains too many columns. Keep each row to 256 columns or fewer."
  | .rows => .error "The CSV contains too many rows. Keep exports to 100000 rows or fewer."

def checklistTooLarge : JsError :=
  .error "A checklist contains too many items. Keep each checklist to 1000 items or fewer."

def tooManyChecklistItems : JsError :=
  .error ("The CSV files contain too many checklist items across the archive. " ++
    "Keep exports to 100000 checklist items or fewer.")

def tooManyEntities : JsError :=
  .error "The CSV files contain too many records across the archive. Keep exports to 100000 records or fewer."

def textTooLarge : JsError :=
  .error "The selected import data is too large. Choose an export no larger than 8 MB."

def isChecklistBreak (c : Char) : Bool := c == '|' || c == '\r' || c == '\n'

/-- Counts the items that are not blank, and stops at the first one too many. -/
def assertImportChecklistItemCount (value : String) : Except JsError Nat :=
  let itemCount := ((value.toList.splitOnP isChecklistBreak).filter fun item => item.any fun c => !isTrimmed c).length
  if defaultImportChecklistItemLimit < itemCount then .error checklistTooLarge else .ok itemCount

/-- `readImportSource` for a text. -/
def readImportSource (source : String) : Except JsError String :=
  if maxTextBytes < source.utf8ByteSize then .error textTooLarge else .ok source

/-! ### The separator -/

/-- The separators an import recognises. -/
inductive Separator where
  | comma
  | semicolon
  | tab
deriving DecidableEq, Repr

def Separator.char : Separator → Char
  | .comma => ','
  | .semicolon => ';'
  | .tab => '\t'

def Separator.dialect (separator : Separator) : Lib.Csv.Dialect Char where
  quote := '"'
  delimiter := separator.char
  cr := '\r'
  lf := '\n'
  delimiter_ne_quote := by cases separator <;> decide
  delimiter_ne_lf := by cases separator <;> decide
  cr_ne_quote := by decide
  lf_ne_quote := by decide
  cr_ne_lf := by decide

def sanitizeCsvText (raw : String) : String :=
  if raw.toList.head? = some '\uFEFF' then String.ofList raw.toList.tail else raw

/-- `raw.split(/\r?\n/u)`. -/
def splitLines : List Char → List (List Char)
  | [] => [[]]
  | c :: rest =>
    if c = '\n' then [] :: splitLines rest
    else if c = '\r' ∧ rest.head? = some '\n' then splitLines rest
    else
      match splitLines rest with
      | [] => [[c]]
      | line :: lines => (c :: line) :: lines

def firstLine (source : String) : Option (List Char) :=
  (splitLines (sanitizeCsvText source).toList).find? fun line => line.any fun c => !isTrimmed c

def detectDelimiter (source : String) : Separator :=
  match firstLine source with
  | none => .comma
  | some line => if line.count ',' < line.count ';' then .semicolon else .comma

def detectMindwtrCsvDelimiter (source : String) : Separator :=
  match firstLine source with
  | some line =>
    if line.count ',' < line.count '\t' ∧ line.count ';' < line.count '\t' then .tab else detectDelimiter source
  | none => detectDelimiter source

/-! ### Rows and cells -/

/-- The rows and whether a quoted cell was left open. -/
def parseCsvRows (source : String) (separator : Separator) : Except JsError (List (List String) × Bool) :=
  match Lib.Csv.read defaultImportCsvLimits separator.dialect {} source.toList with
  | .error e => .error (overflowError e)
  | .ok s =>
    let rows := s.rows.map fun row => row.map String.ofList
    .ok (if rows.isEmpty ∧ source = "" then [[""]] else rows, s.inQuotes)

section
variable [Runtime]

def normalizeHeaderCell (value : String) : String := Runtime.toUpperCase (trim value)

def buildHeaderIndex (headerRow : List String) : List (String × Nat) :=
  headerRow.zipIdx.foldl (fun index (cell, cellIndex) =>
    let normalized := normalizeHeaderCell cell
    if normalized = "" ∨ (index.lookup normalized).isSome then index else index ++ [(normalized, cellIndex)]) []

def getCell (row : List String) (headerIndex : List (String × Nat)) (key : String) : String :=
  match headerIndex.lookup key with
  | none => ""
  | some index => trim (row.getD index "")

def normalizeContextName (value : String) : Option String :=
  let trimmed := trim value
  if trimmed = "" then none else if trimmed.startsWith "@" then some trimmed else some ("@" ++ trimmed)

/-- Trimmed, without empty strings; of strings that differ in case only, the first. -/
def dedupeStrings (values : List String) : List String :=
  (values.foldl (fun (acc : List String × List String) value =>
    let trimmed := trim value
    let normalized := Runtime.toLowerCase trimmed
    if trimmed = "" ∨ normalized ∈ acc.1 then acc else (acc.1 ++ [normalized], acc.2 ++ [trimmed])) ([], [])).2

/-- `normalizeTagId` of `store-helpers.ts`. -/
def normalizeTagId (value : String) : String :=
  let trimmed := trim value
  if trimmed = "" then ""
  else Runtime.toLowerCase (if trimmed.startsWith "#" then trimmed else "#" ++ trimmed)

end

/-! ### Ids made of a name -/

def hashStep (h : UInt32 × UInt32 × UInt32 × UInt32) (code : UInt32) : UInt32 × UInt32 × UInt32 × UInt32 :=
  let (h1, h2, h3, h4) := h
  let h1 := h2 ^^^ ((h1 ^^^ code) * 597399067)
  let h2 := h3 ^^^ ((h2 ^^^ code) * 2869860233)
  let h3 := h4 ^^^ ((h3 ^^^ code) * 951274213)
  let h4 := h1 ^^^ ((h4 ^^^ code) * 2716044179)
  (h1, h2, h3, h4)

def deterministicHash128 (value : String) : List UInt32 :=
  let (h1, h2, h3, h4) := (utf16 value).foldl (fun h code => hashStep h (UInt32.ofNat code))
    (1779033703, 3144134277, 1013904242, 2773480762)
  let h1 := (h3 ^^^ (h1 >>> 18)) * 597399067
  let h2 := (h4 ^^^ (h2 >>> 22)) * 2869860233
  let h3 := (h1 ^^^ (h3 >>> 17)) * 951274213
  let h4 := (h2 ^^^ (h4 >>> 19)) * 2716044179
  [h1 ^^^ h2 ^^^ h3 ^^^ h4, h2 ^^^ h1, h3 ^^^ h1, h4 ^^^ h1]

/-- `part.toString(16).padStart(8, '0')`. -/
def hexWord (part : UInt32) : List Char :=
  (List.range 8).map fun i => hexDigit (part.toNat / 16 ^ (7 - i) % 16)

def hexValue (c : Char) : Nat := if c.isDigit then c.toNat - 48 else c.toNat - 87

def generateDeterministicUUID (value : String) : String :=
  let hex := (deterministicHash128 value).flatMap hexWord
  let variant := hexDigit (hexValue (hex.getD 16 '0') &&& 3 ||| 8)
  let chars := (hex.set 12 '5').set 16 variant
  let part (start stop : Nat) : List Char := (chars.take stop).drop start
  String.ofList (['-'].intercalate [part 0 8, part 8 12, part 12 16, part 16 20, part 20 32])

end Mindwtr.Import
