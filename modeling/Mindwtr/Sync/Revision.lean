import Mindwtr.Js.Json

/-!
# Revisions

`sync-revision.ts`. A revision is a non-negative integer; everything else counts as none. A revision
never passes `MAX_SYNC_REVISION`, where bumping it leaves it as it is.
-/

namespace Mindwtr.Sync

open Mindwtr.Js

def maxSyncRevision : Nat := 2147483647

def isValidRevision (value : Option Json) : Bool :=
  match value with
  | some (.num n) => n.den == 1 && decide (0 ≤ n.num)
  | _ => false

/-- `normalizeRevision`: a valid revision clamped to the maximum, else zero. -/
def normalizeRevision (value : Option Json) : Nat :=
  match value with
  | some (.num n) => if n.den = 1 ∧ 0 ≤ n.num then min n.num.toNat maxSyncRevision else 0
  | _ => 0

/-- The revision after `rev`. -/
def bumpRevision (rev : Nat) : Nat := if maxSyncRevision ≤ rev then maxSyncRevision else rev + 1

def nextRevision (value : Option Json) : Nat := bumpRevision (normalizeRevision value)

theorem normalizeRevision_le (value : Option Json) : normalizeRevision value ≤ maxSyncRevision := by
  unfold normalizeRevision
  split
  · split
    · exact min_le_right _ _
    · exact Nat.zero_le _
  · exact Nat.zero_le _

theorem bumpRevision_of_lt {rev : Nat} (h : rev < maxSyncRevision) : bumpRevision rev = rev + 1 := by
  rw [bumpRevision, if_neg (by omega)]

end Mindwtr.Sync
