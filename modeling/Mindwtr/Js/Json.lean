import Mathlib

/-!
# JSON values

The values a parsed JSON document is made of, with the operations on them that do not look inside
a string: equality, truthiness, property reads.

`undefined` is not a JSON value, so a JavaScript expression that may be `undefined` is an
`Option Json`, and a property that is absent or `undefined` reads as `none`. A number is the exact
value of the finite double it denotes. An object is the list of its own enumerable properties in
property order.
-/

namespace Mindwtr.Js

inductive Json where
  | null
  | bool (b : Bool)
  | num (n : Rat)
  | str (s : String)
  | arr (items : List Json)
  | obj (entries : List (String × Json))
deriving Inhabited, Repr

namespace Json

/-! ### Equality -/

mutual

def beq : Json → Json → Bool
  | .null, .null => true
  | .bool a, .bool b => a == b
  | .num a, .num b => a == b
  | .str a, .str b => a == b
  | .arr a, .arr b => beqList a b
  | .obj a, .obj b => beqEntries a b
  | _, _ => false

def beqList : List Json → List Json → Bool
  | [], [] => true
  | a :: as, b :: bs => beq a b && beqList as bs
  | _, _ => false

def beqEntries : List (String × Json) → List (String × Json) → Bool
  | [], [] => true
  | (k, a) :: as, (l, b) :: bs => k == l && beq a b && beqEntries as bs
  | _, _ => false

end

mutual

theorem beq_iff (a b : Json) : beq a b = true ↔ a = b := by
  cases a with
  | null => cases b <;> simp [beq]
  | bool a => cases b <;> simp [beq]
  | num a => cases b <;> simp [beq]
  | str a => cases b <;> simp [beq]
  | arr a => cases b <;> simp [beq, beqList_iff a]
  | obj a => cases b <;> simp [beq, beqEntries_iff a]

theorem beqList_iff (a b : List Json) : beqList a b = true ↔ a = b := by
  cases a with
  | nil => cases b <;> simp [beqList]
  | cons a as => cases b <;> simp [beqList, beq_iff a, beqList_iff as]

theorem beqEntries_iff (a b : List (String × Json)) : beqEntries a b = true ↔ a = b := by
  cases a with
  | nil => cases b <;> simp [beqEntries]
  | cons a as =>
    obtain ⟨k, a⟩ := a
    cases b with
    | nil => simp [beqEntries]
    | cons b bs => obtain ⟨l, b⟩ := b; simp [beqEntries, beq_iff a, beqEntries_iff as]

end

instance : DecidableEq Json := fun a b => decidable_of_iff (beq a b = true) (beq_iff a b)

/-! ### Reading a value -/

/-- `Boolean(v)`. -/
def truthy : Json → Bool
  | .null => false
  | .bool b => b
  | .num n => decide (n ≠ 0)
  | .str s => decide (s ≠ "")
  | .arr _ => true
  | .obj _ => true

/-! The type tests, each with the value it lets through. -/

def asStr? : Json → Option String
  | .str s => some s
  | _ => none

def asNum? : Json → Option Rat
  | .num n => some n
  | _ => none

def asArr? : Json → Option (List Json)
  | .arr items => some items
  | _ => none

def asObj? : Json → Option (List (String × Json))
  | .obj entries => some entries
  | _ => none

@[simp] theorem truthy_str (s : String) : (Json.str s).truthy = decide (s ≠ "") := rfl
@[simp] theorem asStr?_str (s : String) : (Json.str s).asStr? = some s := rfl
@[simp] theorem asNum?_num (n : Rat) : (Json.num n).asNum? = some n := rfl

end Json

/-- `Boolean(v)` of an expression that may be `undefined`. -/
def truthy : Option Json → Bool
  | none => false
  | some v => v.truthy

@[simp] theorem truthy_none : truthy none = false := rfl
@[simp] theorem truthy_some (v : Json) : truthy (some v) = v.truthy := rfl

/-- `a || b`. -/
def orElse (a b : Option Json) : Option Json := if truthy a then a else b

/-- `v == null`. -/
def isNullish (v : Option Json) : Bool := v == none || v == some .null

theorem truthy_of_isNullish {v : Option Json} (h : isNullish v = true) : truthy v = false := by
  rw [isNullish, Bool.or_eq_true, beq_iff_eq, beq_iff_eq] at h
  rcases h with rfl | rfl <;> rfl

/-- `a ?? b`. -/
def coalesce (a b : Option Json) : Option Json := if isNullish a then b else a

/-- `a === b` of two values read from a document, where no two arrays and no two objects are the same. -/
def strictEq : Option Json → Option Json → Bool
  | some (.arr _), _ => false
  | some (.obj _), _ => false
  | a, b => a == b

theorem eq_of_strictEq {a b : Option Json} (h : strictEq a b = true) : a = b := by
  cases a with
  | none => simpa [strictEq] using h
  | some v => cases v <;> simp_all [strictEq]

@[simp] theorem strictEq_str (s t : String) : strictEq (some (.str s)) (some (.str t)) = decide (s = t) := by
  by_cases h : s = t <;> simp [strictEq, h]

def asStr? (v : Option Json) : Option String := v.bind Json.asStr?

def asNum? (v : Option Json) : Option Rat := v.bind Json.asNum?

@[simp] theorem asStr?_none : asStr? none = none := rfl
@[simp] theorem asStr?_some (v : Json) : asStr? (some v) = v.asStr? := rfl
@[simp] theorem asNum?_none : asNum? none = none := rfl
@[simp] theorem asNum?_some (v : Json) : asNum? (some v) = v.asNum? := rfl

/-- The value of the own property `key`; `none` where there is none. -/
def lookup (key : String) : List (String × Json) → Option Json
  | [] => none
  | (k, v) :: rest => if k = key then some v else lookup key rest

end Mindwtr.Js
