import Mindwtr.Js.Throw
import Mindwtr.Sync.Merge

/-!
# Merge statistics

What `mergeEntitiesWithStats` reports next to the merged list: how many entities each side gave,
which ids conflicted and why, how far the clocks were apart, and a few samples with a hash and the
differing field paths. Hashing the signature of a record that has none reads the length of
`undefined`, so a sample of such a record throws.
-/

namespace Mindwtr.Sync

open Mindwtr.Js MergeableEntity

inductive ConflictReason where
  | deleteState
  | content
deriving DecidableEq, Repr

inductive ClockSkewDirection where
  | localAhead
  | remoteAhead
deriving DecidableEq, Repr

structure MergeConflictSample where
  id : String
  winner : Side
  reasons : List ConflictReason
  hasRevision : Bool
  timeDiffMs : Int
  localUpdatedAt : Option Json
  incomingUpdatedAt : Option Json
  localDeletedAt : Option Json
  incomingDeletedAt : Option Json
  localRev : Rat
  incomingRev : Rat
  localRevBy : Option String
  incomingRevBy : Option String
  localComparableHash : String
  incomingComparableHash : String
  diffKeys : List String
deriving DecidableEq, Repr

structure EntityMergeStats where
  localTotal : Nat
  incomingTotal : Nat
  mergedTotal : Nat := 0
  localOnly : Nat := 0
  incomingOnly : Nat := 0
  conflicts : Nat := 0
  resolvedUsingLocal : Nat := 0
  resolvedUsingIncoming : Nat := 0
  deletionsWon : Nat := 0
  conflictIds : List String := []
  maxClockSkewMs : Int := 0
  maxClockSkewDirection : Option ClockSkewDirection := none
  invalidTimestamps : Nat := 0
  timestampAdjustments : Nat := 0
  timestampAdjustmentIds : List String := []
  futureTimestampClamps : Nat := 0
  futureTimestampClampIds : List String := []
  conflictReasonCounts : List (ConflictReason × Nat) := []
  conflictSamples : List MergeConflictSample := []
deriving DecidableEq, Repr

def createEmptyEntityStats (localTotal incomingTotal : Nat) : EntityMergeStats :=
  { localTotal, incomingTotal }

/-- Append while the list is shorter than `limit`. -/
def pushUpTo {α : Type} (limit : Nat) (l : List α) (a : α) : List α :=
  if l.length < limit then l ++ [a] else l

def countReason (reason : ConflictReason) : List (ConflictReason × Nat) → List (ConflictReason × Nat)
  | [] => [(reason, 1)]
  | (r, n) :: rest => if r = reason then (r, n + 1) :: rest else (r, n) :: countReason reason rest

/-! ### Hashes and differing paths -/

def hashStep (hash code : Nat) : Nat := ((hash ^^^ code) * 0x01000193) % 2 ^ 32

/-- Eight hexadecimal digits of the 32-bit FNV-1a hash. -/
def hashComparableSignature : Option String → Except JsError String
  | none => .error (.typeError "Cannot read properties of undefined (reading 'length')")
  | some signature =>
    let digits := Nat.toDigits 16 ((utf16 signature).foldl hashStep 0x811c9dc5)
    .ok (String.ofList (List.replicate (8 - digits.length) '0' ++ digits))

def pathOrRoot (path : String) : String := if path = "" then "(root)" else path

def pathKey (path key : String) : String := if path = "" then key else path ++ "." ++ key

/-- `Array.from(new Set([...Object.keys(left), ...Object.keys(right)])).sort()`. -/
def sortedUnionKeys (left right : List String) : List String :=
  (left ++ right.filter (· ∉ left)).insertionSort fun a b => !jsLt b a

mutual

/-- The differing paths in the order they are met; the collection stops at its limit, which is a
prefix of this list. -/
def diffPaths : Json → Json → String → List String
  | .arr ls, .arr rs, path =>
    if ls.length = rs.length then diffItems ls rs path 0 else [pathOrRoot path]
  | .obj ls, .obj rs, path =>
    let visits := diffEntries ls
    (sortedUnionKeys (ls.map Prod.fst) (rs.map Prod.fst)).flatMap fun key =>
      match JsMap.find key visits, lookup key rs with
      | some visit, some r => visit r (pathKey path key)
      | _, _ => [pathKey path key]
  | .null, .null, _ => []
  | .bool l, .bool r, path => if l = r then [] else [pathOrRoot path]
  | .num l, .num r, path => if l = r then [] else [pathOrRoot path]
  | .str l, .str r, path => if l = r then [] else [pathOrRoot path]
  | _, _, path => [pathOrRoot path]

def diffItems : List Json → List Json → String → Nat → List String
  | l :: ls, r :: rs, path, index =>
    diffPaths l r (path ++ "[" ++ toString index ++ "]") ++ diffItems ls rs path (index + 1)
  | _, _, _, _ => []

def diffEntries : List (String × Json) → List (String × (Json → String → List String))
  | [] => []
  | (k, v) :: rest => (k, diffPaths v) :: diffEntries rest

end

def collectComparableDiffKeys (localValue incomingValue : Json) (limit : Nat) : List String :=
  (diffPaths localValue incomingValue "").take limit

/-! ### The comparison of one pair -/

section pair
variable [Runtime] {α : Type} [MergeableEntity α]
variable (normalizeForComparison : Option (ComparisonNormalizer α))

def comparableContentMatches (l i : α) : Bool :=
  decide (getMergeComparableSignature normalizeForComparison l =
    getMergeComparableSignature normalizeForComparison i)

def contentDiff (l i : α) : Bool :=
  let shouldCheckContentDiff :=
    if hasRevision l i then decide (revOf l - revOf i = 0) && isDeleted l == isDeleted i
    else isDeleted l == isDeleted i
  shouldCheckContentDiff && !comparableContentMatches normalizeForComparison l i

def unresolvedDeleteStateDiff (l i : α) : Bool :=
  isDeleted l != isDeleted i && (!hasRevision l i || decide (revOf l - revOf i = 0))

def conflictReasons (l i : α) : List ConflictReason :=
  (if unresolvedDeleteStateDiff l i then [.deleteState] else []) ++
    (if contentDiff normalizeForComparison l i then [.content] else [])

/-- The pair counts as a conflict. -/
def differs (l i : α) : Bool :=
  if hasRevision l i then
    unresolvedDeleteStateDiff l i || contentDiff normalizeForComparison l i
  else isDeleted l != isDeleted i || contentDiff normalizeForComparison l i

def comparableView (item : α) : Option Json :=
  toComparableValue false (.obj (match normalizeForComparison with
    | none => record item
    | some normalizer => normalizer.view item))

def diffKeys (l i : α) : List String :=
  if contentDiff normalizeForComparison l i then
    match comparableView normalizeForComparison l, comparableView normalizeForComparison i with
    | some localValue, some incomingValue =>
      collectComparableDiffKeys localValue incomingValue conflictDiffKeyLimit
    | _, _ => []
  else []

def nonEmpty (s : String) : Option String := if s = "" then none else some s

def conflictSample (now : Int) (key : String) (l i : α) : Except JsError MergeConflictSample := do
  let localComparableHash ←
    hashComparableSignature (getMergeComparableSignature normalizeForComparison l)
  let incomingComparableHash ←
    hashComparableSignature (getMergeComparableSignature normalizeForComparison i)
  return {
    id := key
    winner := winnerSide now l i
    reasons := conflictReasons normalizeForComparison l i
    hasRevision := hasRevision l i
    timeDiffMs := (updatedTime now i).safe - (updatedTime now l).safe
    localUpdatedAt := updatedAt l
    incomingUpdatedAt := updatedAt i
    localDeletedAt := deletedAt l
    incomingDeletedAt := deletedAt i
    localRev := revOf l
    incomingRev := revOf i
    localRevBy := nonEmpty (revByOf l)
    incomingRevBy := nonEmpty (revByOf i)
    localComparableHash
    incomingComparableHash
    diffKeys := diffKeys normalizeForComparison l i }

end pair

end Mindwtr.Sync
