import Mindwtr.Js.Map
import Mindwtr.Sync.Entity

/-!
# Merging two lists of entities

`mergeEntitiesWithStats` of `sync.ts`. The versions of one id on the two sides are first repaired
against each other (`normalizeTimestamps`), then a cascade chooses one of them (`winnerSide`): a
deletion against a live version by the times of the two operations, two versions of the same kind
by revision, time, writer and signature, versions without any revision by time outside the clock
skew window and by signature inside it. The loop over the union of the ids also keeps the
statistics the sync report shows; its log lines are left out.
-/

namespace Mindwtr.Sync

open Mindwtr.Js MergeableEntity

def clockSkewThresholdMs : Int := 5 * 60 * 1000
def deleteVsLiveAmbiguousWindowMs : Int := 30 * 1000
def syncRepairRevBy : String := "sync-repair"
def syncBackupRestoreRevBy : String := "backup-restore"
def conflictSampleLimit : Nat := 5
def conflictDiffKeyLimit : Nat := 8

/-! ### Timestamps -/

structure MergeTimestampInfo where
  raw : Int
  safe : Int
  wasClamped : Bool
deriving DecidableEq, Repr

section timestamps
variable [Runtime]

def parseMergeTimestamp (value : Option Json) (maxAllowedMs : Int) : MergeTimestampInfo :=
  match asStr? value with
  | none => ⟨-1, -1, false⟩
  | some s =>
    match dateParse s with
    | none => ⟨-1, -1, false⟩
    | some parsed =>
      if parsed > maxAllowedMs + clockSkewThresholdMs then ⟨parsed, maxAllowedMs, true⟩
      else ⟨parsed, parsed, false⟩

def getMergeTimestampComparison (localTime incomingTime : MergeTimestampInfo) : Int :=
  let safeDiff := incomingTime.safe - localTime.safe
  if safeDiff ≠ 0 then safeDiff
  else if localTime.wasClamped ∧ incomingTime.wasClamped ∧ incomingTime.raw ≠ localTime.raw then
    incomingTime.raw - localTime.raw
  else 0

/-- The time the merge clamps future timestamps to: `nowIso`, else the device clock. -/
def maxAllowedMergeTime (nowIso : Option String) (dateNow : Int) : Int :=
  match nowIso with
  | none => dateNow
  | some s => if s = "" then dateNow else (dateParse s).getD dateNow

end timestamps

section pair
variable [Runtime] {α : Type} [MergeableEntity α]

def recoverCreatedAtFromCounterpart (item : α) (counterpart : Option α) : Option Json :=
  match counterpart with
  | none => none
  | some counterpart =>
    if truthy (createdAt counterpart) then
      match dateTime (updatedAt item), dateTime (createdAt counterpart) with
      | some updatedTime, some counterpartCreatedTime =>
        if counterpartCreatedTime > updatedTime then none else createdAt counterpart
      | _, _ => none
    else none

/-- `createdAt` is set, both times are valid, and the entity was updated before it was created. -/
def createdAfterUpdated (item : α) : Bool :=
  truthy (createdAt item) &&
    match dateTime (createdAt item), dateTime (updatedAt item) with
    | some createdTime, some updatedTime => decide (updatedTime < createdTime)
    | _, _ => false

def normalizeTimestamps (item : α) (counterpart : Option α) : α :=
  if createdAfterUpdated item then
    setCreatedAt ((recoverCreatedAtFromCounterpart item counterpart).or (updatedAt item)) item
  else item

/-! ### What the cascade looks at -/

def revOf (item : α) : Rat := (asNum? (rev item)).getD 0

def revByOf (item : α) : String := (asStr? (revBy item)).getD ""

def isDeleted (item : α) : Bool := truthy (deletedAt item)

def hasRevision (l i : α) : Bool :=
  decide (0 < revOf l) || decide (0 < revOf i) || revByOf l != "" || revByOf i != ""

def updatedTime (now : Int) (item : α) : MergeTimestampInfo := parseMergeTimestamp (updatedAt item) now

def comparableUpdatedTimeDiff (now : Int) (l i : α) : Int :=
  getMergeTimestampComparison (updatedTime now l) (updatedTime now i)

def withinSkew (now : Int) (l i : α) : Bool :=
  decide (|(updatedTime now i).safe - (updatedTime now l).safe| ≤ clockSkewThresholdMs)

def resolveOperationTime (now : Int) (item : α) : Int :=
  let safeUpdatedTime := (updatedTime now item).safe
  if isDeleted item then
    match dateTime (deletedAt item) with
    | none => safeUpdatedTime
    | some deletedTimeRaw =>
      max safeUpdatedTime (if deletedTimeRaw > now + clockSkewThresholdMs then now else deletedTimeRaw)
  else safeUpdatedTime

/-! ### The winner -/

def chooseDeterministic (l i : α) : Side := chooseDeterministicWinner (record l) (record i)

def preferDeletedCandidate (l i : α) : Side :=
  if isDeleted l && !isDeleted i then .localItem
  else if isDeleted i && !isDeleted l then .incomingItem
  else chooseDeterministic l i

def preferLiveCandidate (l i : α) : Side :=
  if isDeleted l && !isDeleted i then .incomingItem
  else if isDeleted i && !isDeleted l then .localItem
  else chooseDeterministic l i

def isBackupRestoreLiveCandidate (item : α) : Bool :=
  !isDeleted item && revByOf item == syncBackupRestoreRevBy

/-- The later of two times, the local one when the difference is not positive. -/
def byTimeDiff (diff : Int) : Side := if diff > 0 then .incomingItem else .localItem

def byRevDiff (l i : α) : Side := if revOf l - revOf i > 0 then .localItem else .incomingItem

structure DeleteVsLiveResolution where
  winner : Side
  operationDiffMs : Int
deriving DecidableEq, Repr

def operationDiff (now : Int) (l i : α) : Int := resolveOperationTime now i - resolveOperationTime now l

/-- The live restore candidate, when its operation is not before the deletion. -/
def restoredSide (now : Int) (l i : α) : Option Side :=
  if isBackupRestoreLiveCandidate l then
    if resolveOperationTime now l ≥ resolveOperationTime now i then some .localItem else none
  else if isBackupRestoreLiveCandidate i then
    if resolveOperationTime now i ≥ resolveOperationTime now l then some .incomingItem else none
  else none

def resolveDeleteVsLiveWinner (now : Int) (l i : α) : DeleteVsLiveResolution :=
  let operationDiff := operationDiff now l i
  match restoredSide now l i with
  | some side => ⟨side, operationDiff⟩
  | none =>
    if |operationDiff| ≤ deleteVsLiveAmbiguousWindowMs then
      if hasRevision l i ∧ revOf l - revOf i ≠ 0 then ⟨byRevDiff l i, operationDiff⟩
      else if hasRevision l i then ⟨preferLiveCandidate l i, operationDiff⟩
      else ⟨preferDeletedCandidate l i, operationDiff⟩
    else if operationDiff > 0 then ⟨.incomingItem, operationDiff⟩
    else if operationDiff < 0 then ⟨.localItem, operationDiff⟩
    else ⟨preferDeletedCandidate l i, operationDiff⟩

/-- A difference of times that decides at once between versions without a revision. -/
def requiresStrictTimestampOrdering (now : Int) (l i : α) : Bool :=
  comparableUpdatedTimeDiff now l i != 0 &&
    (decide ((updatedTime now l).raw < 0) || decide ((updatedTime now i).raw < 0) ||
      (updatedTime now l).wasClamped || (updatedTime now i).wasClamped)

/-- The version that wins, of two repaired versions of one entity. -/
def winnerSide (now : Int) (l i : α) : Side :=
  let timeDiff := comparableUpdatedTimeDiff now l i
  if isDeleted l ≠ isDeleted i then (resolveDeleteVsLiveWinner now l i).winner
  else if hasRevision l i then
    if revOf l - revOf i ≠ 0 then byRevDiff l i
    else if timeDiff ≠ 0 then byTimeDiff timeDiff
    -- the writer counts only where both sides name one
    else if revByOf l ≠ revByOf i ∧ revByOf l ≠ "" ∧ revByOf i ≠ "" then
      if jsLt (revByOf l) (revByOf i) then .incomingItem else .localItem
    else chooseDeterministic l i
  else if requiresStrictTimestampOrdering now l i then byTimeDiff timeDiff
  else if withinSkew now l i then chooseDeterministic l i
  else if timeDiff ≠ 0 then byTimeDiff timeDiff
  else chooseDeterministic l i

end pair

end Mindwtr.Sync
