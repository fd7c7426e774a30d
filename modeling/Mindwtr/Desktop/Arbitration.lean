import Mindwtr.Js.Record
import Mindwtr.Js.Runtime

/-!
# Which of two versions the native store keeps

`incoming_entity_wins_at` of `storage.rs` with the helpers it calls. It is a second writing of the cascade of the
sync merge, over the raw JSON of two rows: a deletion against a live version by the times of the two operations, two
versions of the same kind by revision, time, writer and signature. Times are nanoseconds.

An object lists its properties in the order of their names, as the map of `serde_json` does.
-/

namespace Mindwtr.Desktop

open Mindwtr.Js

/-- What the native code takes from its libraries. -/
class RustRuntime where
  /-- `OffsetDateTime::parse(s, &Rfc3339)` in nanoseconds of Unix time. -/
  parseRfc3339 : String → Option Int
  /-- How `serde_json` writes a number. -/
  numberToString : Rat → String

/-- `value.get(key).and_then(Value::as_str)`. -/
def fieldStr? (value : Json) (key : String) : Option String := asStr? (prop (some value) key)

/-! ### White space -/

/-- `char::is_whitespace`. -/
def isWhitespace (c : Char) : Bool :=
  let n := c.toNat
  (0x09 ≤ n && n ≤ 0x0D) || n == 0x20 || n == 0x85 || n == 0xA0 || n == 0x1680 || (0x2000 ≤ n && n ≤ 0x200A) ||
    n == 0x2028 || n == 0x2029 || n == 0x202F || n == 0x205F || n == 0x3000

/-- `str::trim`. -/
def strTrim (s : String) : String :=
  String.ofList ((s.toList.dropWhile isWhitespace).rdropWhile isWhitespace)

/-! ### Revisions -/

def maxCoreRevision : Int := 2147483647

/-- `as_i64` or, above it, `as_u64`. -/
def asInteger? (value : Option Json) : Option Int :=
  match asNum? value with
  | some n => if n.den = 1 ∧ -2 ^ 63 ≤ n.num ∧ n.num < 2 ^ 64 then some n.num else none
  | none => none

def entityRevision (value : Json) : Int :=
  match asInteger? (prop (some value) "rev") with
  | some revision => max 0 (min revision maxCoreRevision)
  | none => 0

def normalizedRevisionForStorage (value : Option Json) : Option Int :=
  (asInteger? value).bind fun revision => if revision < 0 then none else some (min revision maxCoreRevision)

def normalizedRevBy (value : Option Json) : Option String :=
  ((asStr? value).map strTrim).filter (· != "")

def entityHasRevision (value : Json) : Bool :=
  decide (0 < entityRevision value) || (normalizedRevBy (prop (some value) "revBy")).isSome

/-! ### Times -/

def deleteVsLiveAmbiguousWindowNanos : Int := 30000000000
def clockSkewThresholdNanos : Int := 5 * 60 * 1000000000
def syncBackupRestoreRevBy : String := "backup-restore"

def entityIsDeleted (value : Json) : Bool :=
  ["deletedAt", "purgedAt"].any fun key => (fieldStr? value key).any (· != "")

/-- An unsigned decimal that may begin with a plus sign. -/
def parseUnsigned (cs : List Char) : Option Int :=
  match cs with
  | '+' :: rest => digits? rest
  | _ => digits? cs

def parseSigned (cs : List Char) : Option Int :=
  match cs with
  | '-' :: rest => (digits? rest).map fun n => -n
  | _ => parseUnsigned cs

def daysInMonth (year month : Int) : Int :=
  if month = 2 then if year % 4 = 0 ∧ (year % 100 ≠ 0 ∨ year % 400 = 0) then 29 else 28
  else if month = 4 ∨ month = 6 ∨ month = 9 ∨ month = 11 then 30
  else 31

/-- Midnight of a date without a time. -/
def parseDateOnly (s : String) : Option Int :=
  let cs := s.toList
  if cs.length = 10 ∧ cs[4]? = some '-' ∧ cs[7]? = some '-' then
    match parseSigned (cs.take 4), parseUnsigned ((cs.drop 5).take 2), parseUnsigned ((cs.drop 8).take 2) with
    | some year, some month, some day =>
      if 1 ≤ month ∧ month ≤ 12 ∧ 1 ≤ day ∧ day ≤ daysInMonth year month then
        some (daysFromCivil year month day * 86400 * 1000000000)
      else none
    | _, _, _ => none
  else none

structure EntityTimestampInfo where
  raw : Option Int
  safe : Option Int
  wasClamped : Bool
deriving DecidableEq, Repr

/-- `Option`'s own order: nothing comes before every time. -/
def compareTimes (a b : Option Int) : Ordering :=
  match a, b with
  | none, none => .eq
  | none, some _ => .lt
  | some _, none => .gt
  | some a, some b => compare a b

def entityTimestampOrder (current incoming : EntityTimestampInfo) : Ordering :=
  (compareTimes incoming.safe current.safe).then
    (if current.wasClamped && incoming.wasClamped then compareTimes incoming.raw current.raw else .eq)

section
variable [RustRuntime]

def parseEntityTimestamp (value : Option Json) : Option Int :=
  (asStr? value).bind fun s => (RustRuntime.parseRfc3339 s).or (parseDateOnly s)

def entityTimestampInfo (value : Option Json) (mergeNow : Int) : EntityTimestampInfo :=
  let raw := parseEntityTimestamp value
  let wasClamped := raw.any fun timestamp => decide (timestamp > mergeNow + clockSkewThresholdNanos)
  ⟨raw, raw.map fun timestamp => if wasClamped then mergeNow else timestamp, wasClamped⟩

/-- The latest of the three times. -/
def entityOperationTime (value : Json) (mergeNow : Int) : Option Int :=
  (["updatedAt", "deletedAt", "purgedAt"].filterMap fun key =>
    (entityTimestampInfo (prop (some value) key) mergeNow).safe).max?

/-! ### A deletion against a live version -/

def isBackupRestore (value : Json) : Bool :=
  !entityIsDeleted value && (fieldStr? value "revBy").any fun revBy => strTrim revBy == syncBackupRestoreRevBy

/-- A restored version is not older than the tombstone. -/
def restoreIsNotOlder (restoreTime tombstoneTime : Option Int) : Bool :=
  match restoreTime, tombstoneTime with
  | some restore, some tombstone => decide (tombstone ≤ restore)
  | some _, none | none, none => true
  | none, some _ => false

/-- The version a backup brought back, where it is not older than the tombstone. -/
def backupRestoreWins (current incoming : Json) (mergeNow : Int) : Option Bool :=
  let currentTime := entityOperationTime current mergeNow
  let incomingTime := entityOperationTime incoming mergeNow
  if isBackupRestore current then if restoreIsNotOlder currentTime incomingTime then some false else none
  else if isBackupRestore incoming then if restoreIsNotOlder incomingTime currentTime then some true else none
  else none

def withinAmbiguityWindow (currentTime incomingTime : Option Int) : Bool :=
  match currentTime, incomingTime with
  | some current, some incoming => decide (|incoming - current| ≤ deleteVsLiveAmbiguousWindowNanos)
  | none, none => true
  | _, _ => false

/-- `incoming_delete_vs_live_wins_at` where exactly one of the two is deleted. -/
def deleteVsLiveWins (current incoming : Json) (mergeNow : Int) : Bool :=
  let currentTime := entityOperationTime current mergeNow
  let incomingTime := entityOperationTime incoming mergeNow
  match backupRestoreWins current incoming mergeNow with
  | some wins => wins
  | none =>
    if withinAmbiguityWindow currentTime incomingTime then
      let hasRevision := entityHasRevision current || entityHasRevision incoming
      let revisionOrder := compare (entityRevision incoming) (entityRevision current)
      if hasRevision && revisionOrder != .eq then revisionOrder == .gt
      else if hasRevision then !entityIsDeleted incoming
      else entityIsDeleted incoming
    else
      match compareTimes incomingTime currentTime with
      | .gt => true
      | .lt => false
      | .eq => entityIsDeleted incoming

end

/-! ### Signatures -/

def signatureBookkeepingKeys : List String :=
  ["statusBeforeProjectArchive", "completedAtBeforeProjectArchive", "isFocusedTodayBeforeProjectArchive",
    "deletedAtBeforeProjectArchive", "projectArchivedAt"]

def signatureIgnoredKeys : List String :=
  ["rev", "revBy", "updatedAt", "createdAt", "localStatus", "purgedAt", "order", "orderNum", "boardOrder",
    "focusOrder"]

def isSignatureKey (includeIgnoredKeys kindIsFile : Bool) (key : String) : Bool :=
  !signatureBookkeepingKeys.contains key && (includeIgnoredKeys || !signatureIgnoredKeys.contains key) &&
    (includeIgnoredKeys || key != "uri" || !kindIsFile)

/-- The order of names is that of their code points. -/
def sortByName (entries : Record) : Record := entries.insertionSort fun a b => !decide (b.1 < a.1)

mutual

def entitySignatureValue (includeIgnoredKeys : Bool) : Json → Option Json
  | .null => none
  | .arr items =>
    let comparable := signatureItems includeIgnoredKeys items
    if comparable.isEmpty then none else some (.arr comparable)
  | .obj entries =>
    let kindIsFile := lookup "kind" entries == some (.str "file")
    let comparable := signatureEntries includeIgnoredKeys kindIsFile entries
    if comparable.isEmpty then none else some (.obj (sortByName comparable))
  | .str s => if strTrim s = "" then none else some (.str (strTrim s))
  | v => some v

def signatureItems (includeIgnoredKeys : Bool) : List Json → List Json
  | [] => []
  | v :: rest =>
    match entitySignatureValue includeIgnoredKeys v with
    | none => signatureItems includeIgnoredKeys rest
    | some c => c :: signatureItems includeIgnoredKeys rest

def signatureEntries (includeIgnoredKeys kindIsFile : Bool) : Record → Record
  | [] => []
  | (k, v) :: rest =>
    let kept := signatureEntries includeIgnoredKeys kindIsFile rest
    if isSignatureKey includeIgnoredKeys kindIsFile k then
      match entitySignatureValue includeIgnoredKeys v with
      | none => kept
      | some c => (k, c) :: kept
    else kept

end

def sqliteFalseDefaultKeys : List String :=
  ["showFutureRecurrence", "isFocusedToday", "suppressMindwtrReminders", "isSequential", "isFocused", "isCollapsed"]

/-- Revision and writer as they are stored. -/
def normalizeSignatureMeta (entity : Record) : Record :=
  let entity := setProp "rev" ((normalizedRevisionForStorage (lookup "rev" entity)).map fun n : Int => .num n) entity
  setProp "revBy" ((normalizedRevBy (lookup "revBy" entity)).map .str) entity

/-- A switch that one of the two has is `false` where the other has none. -/
def fillSwitches (entity other : Record) : Record :=
  sqliteFalseDefaultKeys.foldl (fun entity key =>
    if (lookup key entity).isNone && (lookup key other).isSome then setProp key (some (.bool false)) entity
    else entity) entity

def normalizeEntitySignaturePair (current incoming : Json) : Json × Json :=
  let current := normalizeSignatureMeta (recordOf (some current))
  let incoming := normalizeSignatureMeta (recordOf (some incoming))
  (.obj (fillSwitches current incoming), .obj (fillSwitches incoming current))

section
variable [RustRuntime]

mutual

/-- `serde_json::to_string`. -/
def serdeString : Json → String
  | .null => "null"
  | .bool b => if b then "true" else "false"
  | .num n => RustRuntime.numberToString n
  | .str s => quote s
  | .arr items => "[" ++ serdeItems items ++ "]"
  | .obj entries => "\x7b" ++ serdeEntries entries ++ "\x7d"

def serdeItems : List Json → String
  | [] => ""
  | [v] => serdeString v
  | v :: rest => serdeString v ++ "," ++ serdeItems rest

def serdeEntries : List (String × Json) → String
  | [] => ""
  | [(k, v)] => quote k ++ ":" ++ serdeString v
  | (k, v) :: rest => quote k ++ ":" ++ serdeString v ++ "," ++ serdeEntries rest

end

def entityTieBreakJson (value : Json) (includeIgnoredKeys : Bool) : String :=
  match entitySignatureValue includeIgnoredKeys value with
  | some signature => serdeString signature
  | none => "null"

def entityTieBreakOrder (current incoming : Json) : Ordering :=
  let (current, incoming) := normalizeEntitySignaturePair current incoming
  (compare (entityTieBreakJson incoming false) (entityTieBreakJson current false)).then
    (compare (entityTieBreakJson incoming true) (entityTieBreakJson current true))

/-! ### The cascade -/

/-- The order of the two times; without a revision a small difference is none. -/
def timestampOrder (current incoming : Json) (mergeNow : Int) : Ordering :=
  let currentInfo := entityTimestampInfo (prop (some current) "updatedAt") mergeNow
  let incomingInfo := entityTimestampInfo (prop (some incoming) "updatedAt") mergeNow
  let hasRevision := entityHasRevision current || entityHasRevision incoming
  match currentInfo.safe, incomingInfo.safe with
  | some currentTime, some incomingTime =>
    if !hasRevision && !currentInfo.wasClamped && !incomingInfo.wasClamped &&
        decide (|incomingTime - currentTime| ≤ clockSkewThresholdNanos) then .eq
    else entityTimestampOrder currentInfo incomingInfo
  | _, _ => entityTimestampOrder currentInfo incomingInfo

/-- The writer counts only where both sides name one. -/
def revByOrder (current incoming : Json) : Ordering :=
  let currentRevBy := (normalizedRevBy (prop (some current) "revBy")).getD ""
  let incomingRevBy := (normalizedRevBy (prop (some incoming) "revBy")).getD ""
  if currentRevBy != "" && incomingRevBy != "" then compare incomingRevBy currentRevBy else .eq

/-- The order of two versions that are both live or both deleted. -/
def entityOrder (current incoming : Json) (mergeNow : Int) : Ordering :=
  (((compare (entityRevision incoming) (entityRevision current)).then
    (timestampOrder current incoming mergeNow)).then
    (revByOrder current incoming)).then (entityTieBreakOrder current incoming)

def incomingEntityWinsAt (current incoming : Json) (mergeNow : Int) : Bool :=
  if entityIsDeleted current != entityIsDeleted incoming then deleteVsLiveWins current incoming mergeNow
  else entityOrder current incoming mergeNow != .lt

end

end Mindwtr.Desktop
