import Mindwtr.Sync.Signature

/-!
# Mergeable entities

What the merge reads of an entity, whatever its type: its id, its revision metadata, its three
timestamps and the record of its own properties. Timestamps and revisions are the JSON values a
document holds, so missing and malformed ones are ordinary values here.
-/

namespace Mindwtr.Sync

open Mindwtr.Js

/-- The properties every synced entity has. -/
structure SyncMeta where
  id : String
  rev : Option Json := none
  revBy : Option Json := none
  createdAt : Option Json := none
  updatedAt : Option Json := none
  deletedAt : Option Json := none
deriving DecidableEq, Repr

class MergeableEntity (α : Type) where
  syncMeta : α → SyncMeta
  /-- `{ ...item, createdAt }`. -/
  setCreatedAt : Option Json → α → α
  /-- The own enumerable properties that are not `undefined`. -/
  record : α → List (String × Json)
  id_mem_record : ∀ a, ("id", Json.str (syncMeta a).id) ∈ record a
  syncMeta_setCreatedAt : ∀ c a, syncMeta (setCreatedAt c a) = { syncMeta a with createdAt := c }

namespace MergeableEntity

variable {α : Type} [MergeableEntity α]

def entityId (a : α) : String := (syncMeta a).id
def createdAt (a : α) : Option Json := (syncMeta a).createdAt
def updatedAt (a : α) : Option Json := (syncMeta a).updatedAt
def deletedAt (a : α) : Option Json := (syncMeta a).deletedAt
def rev (a : α) : Option Json := (syncMeta a).rev
def revBy (a : α) : Option Json := (syncMeta a).revBy

variable (c : Option Json) (a : α)

@[simp] theorem createdAt_setCreatedAt : createdAt (setCreatedAt c a) = c := by
  simp [createdAt, syncMeta_setCreatedAt]

@[simp] theorem entityId_setCreatedAt : entityId (setCreatedAt c a) = entityId a := by
  simp [entityId, syncMeta_setCreatedAt]

@[simp] theorem updatedAt_setCreatedAt : updatedAt (setCreatedAt c a) = updatedAt a := by
  simp [updatedAt, syncMeta_setCreatedAt]

end MergeableEntity

open MergeableEntity

/-- The per-type view a merge compares by. Every view shows the entity under its own id. -/
structure ComparisonNormalizer (α : Type) [MergeableEntity α] where
  view : α → List (String × Json)
  id_mem_view : ∀ a, ("id", Json.str (entityId a)) ∈ view a

section
variable {α : Type} [MergeableEntity α] [Runtime]

/-- The plain signature of an entity. -/
def plainSignature (item : α) : Option String := toComparableSignature (record item)

/-- The full deterministic signature of an entity, revision and order keys included. -/
def fullSignature (item : α) : Option String := toFullDeterministicSignature (record item)

def getMergeComparableSignature (normalizeForComparison : Option (ComparisonNormalizer α))
    (item : α) : Option String :=
  match normalizeForComparison with
  | none => plainSignature item
  | some normalizer => toComparableSignature (normalizer.view item)

theorem hasSignature_record {item : α} (h : isBlank (entityId item) = false) :
    HasSignature (record item) :=
  hasSignature_of_id h (id_mem_record item)

theorem getMergeComparableSignature_isSome (n : Option (ComparisonNormalizer α)) {item : α}
    (h : isBlank (entityId item) = false) : (getMergeComparableSignature n item).isSome := by
  cases n with
  | none => exact (hasSignature_record h).1
  | some n => exact (hasSignature_of_id h (n.id_mem_view item)).1

end

end Mindwtr.Sync
