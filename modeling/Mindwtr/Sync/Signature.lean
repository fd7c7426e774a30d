import Mindwtr.Js.Runtime

/-!
# Comparable signatures

`sync-signatures.ts`: two versions of an entity are compared through the JSON text of a canonical
view of them. The plain signature leaves out revision, order and archive bookkeeping, the full
deterministic signature keeps revision and order. Both drop absent fields, blank strings and empty
lists, so a record whose fields are all blank has no signature at all: `JSON.stringify(undefined)`
is `undefined`. A record that keeps a non-blank `id` always has one (`computeSignature_isSome`).
-/

namespace Mindwtr.Sync

open Mindwtr.Js

/-- Which of the two versions handed to a merge. -/
inductive Side where
  | localItem
  | incomingItem
deriving DecidableEq, Repr

namespace Side

def swap : Side → Side
  | localItem => incomingItem
  | incomingItem => localItem

def pick {α : Type} (s : Side) (l i : α) : α :=
  match s with
  | localItem => l
  | incomingItem => i

@[simp] theorem swap_localItem : swap localItem = incomingItem := rfl
@[simp] theorem swap_incomingItem : swap incomingItem = localItem := rfl
@[simp] theorem swap_swap (s : Side) : s.swap.swap = s := by cases s <;> rfl
@[simp] theorem pick_localItem {α : Type} (l i : α) : pick localItem l i = l := rfl
@[simp] theorem pick_incomingItem {α : Type} (l i : α) : pick incomingItem l i = i := rfl
@[simp] theorem pick_swap {α : Type} (s : Side) (l i : α) : s.swap.pick i l = s.pick l i := by
  cases s <;> rfl

end Side

/-! ### The canonical view -/

def contentDiffIgnoredKeys : List String :=
  ["rev", "revBy", "updatedAt", "createdAt", "localStatus", "purgedAt", "order", "orderNum",
    "boardOrder", "focusOrder"]

def signatureOpaqueKeys : List String :=
  ["statusBeforeProjectArchive", "completedAtBeforeProjectArchive",
    "isFocusedTodayBeforeProjectArchive", "deletedAtBeforeProjectArchive", "projectArchivedAt"]

/-- Whether a property takes part in the view of a record of the given `kind`. -/
def isComparableKey (includeIgnoredKeys : Bool) (kind : Option Json) (key : String) : Bool :=
  !signatureOpaqueKeys.contains key && (includeIgnoredKeys || !contentDiffIgnoredKeys.contains key) &&
    (includeIgnoredKeys || key != "uri" || decide (kind ≠ some (.str "file"))) &&
    -- assigning `__proto__` makes no own property
    key != "__proto__"

mutual

def toComparableValue (includeIgnoredKeys : Bool) : Json → Option Json
  | .arr items =>
    let comparable := comparableItems includeIgnoredKeys items
    if comparable.isEmpty then none else some (.arr comparable)
  | .obj entries =>
    let comparable := comparableEntries includeIgnoredKeys (lookup "kind" entries) entries
    if comparable.isEmpty then none else some (.obj (propertyOrder (sortKeys comparable)))
  | .str s => if isBlank s then none else some (.str (trim s))
  | v => some v

def comparableItems (includeIgnoredKeys : Bool) : List Json → List Json
  | [] => []
  | v :: rest =>
    match toComparableValue includeIgnoredKeys v with
    | none => comparableItems includeIgnoredKeys rest
    | some .null => comparableItems includeIgnoredKeys rest
    | some c => c :: comparableItems includeIgnoredKeys rest

def comparableEntries (includeIgnoredKeys : Bool) (kind : Option Json) :
    List (String × Json) → List (String × Json)
  | [] => []
  | (k, v) :: rest =>
    let kept := comparableEntries includeIgnoredKeys kind rest
    if isComparableKey includeIgnoredKeys kind k then
      match toComparableValue includeIgnoredKeys v with
      | none => kept
      | some .null => kept
      | some c => (k, c) :: kept
    else kept

end

theorem isComparableKey_id (all : Bool) (kind : Option Json) : isComparableKey all kind "id" = true := by
  cases all <;> simp [isComparableKey, signatureOpaqueKeys, contentDiffIgnoredKeys]

theorem mem_comparableEntries {all : Bool} {kind : Option Json} {k s : String}
    {entries : List (String × Json)} (hk : isComparableKey all kind k = true)
    (hs : isBlank s = false) (hmem : (k, .str s) ∈ entries) :
    (k, .str (trim s)) ∈ comparableEntries all kind entries := by
  induction entries with
  | nil => cases hmem
  | cons e entries ih =>
    obtain ⟨k', v⟩ := e
    rcases List.mem_cons.1 hmem with h | h
    · obtain ⟨rfl, rfl⟩ := Prod.mk.inj h
      simp [comparableEntries, hk, toComparableValue, hs]
    · have hrest := ih h
      rw [comparableEntries]
      split_ifs
      · split
        · exact hrest
        · exact hrest
        · exact List.mem_cons_of_mem _ hrest
      · exact hrest

section signature
variable [Runtime]

/-- `JSON.stringify(toComparableValue(record, options))`; `none` is `undefined`. -/
def computeSignature (includeIgnoredKeys : Bool) (record : List (String × Json)) : Option String :=
  (toComparableValue includeIgnoredKeys (.obj record)).map stringify

def toComparableSignature (record : List (String × Json)) : Option String :=
  computeSignature false record

def toFullDeterministicSignature (record : List (String × Json)) : Option String :=
  computeSignature true record

/-- A record that shows a non-blank `id` has a signature of either kind. -/
theorem computeSignature_isSome (all : Bool) {record : List (String × Json)} {id : String}
    (hid : isBlank id = false) (hmem : ("id", .str id) ∈ record) :
    ∃ s, computeSignature all record = some s := by
  have hne := List.ne_nil_of_mem 
    (mem_comparableEntries (isComparableKey_id all (lookup "kind" record)) hid hmem)
  rw [computeSignature, toComparableValue, if_neg (by simpa using hne)]
  exact ⟨_, rfl⟩

end signature

/-! ### The deterministic choice -/

/-- `left > right` on two signatures; a comparison with `undefined` is false. -/
def signatureGt : Option String → Option String → Bool
  | some left, some right => jsLt right left
  | _, _ => false

theorem signatureGt_of_ne {a b : Option String} (ha : a.isSome) (hb : b.isSome) (hne : a ≠ b) :
    signatureGt b a = !signatureGt a b := by
  obtain ⟨a, rfl⟩ := Option.isSome_iff_exists.1 ha
  obtain ⟨b, rfl⟩ := Option.isSome_iff_exists.1 hb
  exact jsLt_of_ne fun h => hne (by rw [h])

section winner
variable [Runtime]

/-- Which of two records `chooseDeterministicWinner` returns. -/
def chooseDeterministicWinner (localRecord incomingRecord : List (String × Json)) : Side :=
  let localSignature := toComparableSignature localRecord
  let incomingSignature := toComparableSignature incomingRecord
  if localSignature = incomingSignature then
    let localFull := toFullDeterministicSignature localRecord
    let incomingFull := toFullDeterministicSignature incomingRecord
    if localFull = incomingFull then .incomingItem
    else if signatureGt incomingFull localFull then .incomingItem else .localItem
  else if signatureGt incomingSignature localSignature then .incomingItem else .localItem

/-- A record both of whose signatures exist. -/
def HasSignature (record : List (String × Json)) : Prop :=
  (toComparableSignature record).isSome ∧ (toFullDeterministicSignature record).isSome

theorem hasSignature_of_id {record : List (String × Json)} {id : String}
    (hid : isBlank id = false) (hmem : ("id", .str id) ∈ record) : HasSignature record := by
  obtain ⟨s, hs⟩ := computeSignature_isSome false hid hmem
  obtain ⟨t, ht⟩ := computeSignature_isSome true hid hmem
  exact ⟨by rw [toComparableSignature, hs]; rfl, by rw [toFullDeterministicSignature, ht]; rfl⟩

/-- Of two records with signatures, both argument orders choose the same one, or two with the same
full signature. -/
theorem chooseDeterministicWinner_swap {l i : List (String × Json)} (hl : HasSignature l)
    (hi : HasSignature i) :
    chooseDeterministicWinner i l = (chooseDeterministicWinner l i).swap ∨
      toFullDeterministicSignature l = toFullDeterministicSignature i := by
  by_cases hfull : toFullDeterministicSignature l = toFullDeterministicSignature i
  · exact .inr hfull
  refine .inl ?_
  unfold chooseDeterministicWinner
  by_cases hplain : toComparableSignature l = toComparableSignature i
  · simp only [if_pos hplain, if_pos hplain.symm, if_neg hfull, if_neg (Ne.symm hfull),
      signatureGt_of_ne hl.2 hi.2 hfull]
    cases signatureGt (toFullDeterministicSignature l) (toFullDeterministicSignature i) <;> rfl
  · simp only [if_neg hplain, if_neg (Ne.symm hplain), signatureGt_of_ne hl.1 hi.1 hplain]
    cases signatureGt (toComparableSignature l) (toComparableSignature i) <;> rfl

end winner

end Mindwtr.Sync
