import Mindwtr.Js.Runtime

/-!
# Expired tombstones

`sync-tombstones.ts`. A deleted entity is dropped once its tombstone has reached the retention cutoff;
tasks and projects that were purged count from the purge.
-/

namespace Mindwtr.Sync

open Mindwtr.Js

def defaultTombstoneRetentionDays : Nat := 90

inductive EntityTombstoneKind where
  | task
  | project
  | section
  | area
  | person
deriving DecidableEq, Repr

section
variable [Runtime]

/-- `none` is `Infinity`. -/
def parseTimestampOrInfinity (value : Option String) : Option Int :=
  match value with
  | some s => if s = "" then none else dateParse s
  | none => none

/-- A time that may be infinite has been reached at the cutoff. -/
def reachedBy (time : Option Int) (cutoffMs : Int) : Bool := time.any fun ms => decide (ms ≤ cutoffMs)

/-- `deletedAt` and `purgedAt` are the fields that are strings. -/
def isEntityTombstoneExpired (kind : EntityTombstoneKind) (deletedAt purgedAt : Option String)
    (cutoffMs : Int) : Bool :=
  if deletedAt = none ∨ deletedAt = some "" then false
  else
    let deletedMs := parseTimestampOrInfinity deletedAt
    if kind = .task ∨ kind = .project then
      reachedBy ((parseTimestampOrInfinity purgedAt).or deletedMs) cutoffMs
    else reachedBy deletedMs cutoffMs

end

end Mindwtr.Sync
