import Mindwtr.Js.Map

/-!
# Rows

A row is the list of its columns with their values. Text that holds the JSON of a value is kept as
that value.
-/

namespace Mindwtr.Store

open Mindwtr.Js

inductive SqlValue where
  | null
  | num (n : Rat)
  | text (s : String)
  | json (v : Json)
deriving DecidableEq

abbrev SqlRow := List (String × SqlValue)

namespace SqlRow

/-- The value of a column; a column that is not there reads as `undefined`, which binds as `NULL`. -/
def get (row : SqlRow) (column : String) : SqlValue := (row.lookup column).getD .null

def text? (row : SqlRow) (column : String) : Option String :=
  match row.get column with
  | .text s => some s
  | _ => none

def num? (row : SqlRow) (column : String) : Option Rat :=
  match row.get column with
  | .num n => some n
  | _ => none

def setNull (column : String) (row : SqlRow) : SqlRow :=
  row.map fun e => if e.1 = column then (e.1, .null) else e

theorem lookup_setNull {column other : String} (h : other ≠ column) (row : SqlRow) :
    (row.setNull column).lookup other = row.lookup other := by
  rw [setNull]
  induction row with
  | nil => rfl
  | cons e row ih =>
    obtain ⟨k, v⟩ := e
    by_cases hk : k = column
    · have hne : (other == k) = false := by simpa [hk] using h
      simp only [List.map_cons, hk, if_true, List.lookup_cons]
      rw [hk] at hne
      simpa [hne] using ih
    · simp only [List.map_cons, if_neg hk, List.lookup_cons, ih]

/-- Clearing a column leaves the others. -/
theorem get_setNull {column other : String} (h : other ≠ column) (row : SqlRow) :
    (row.setNull column).get other = row.get other := by
  rw [get, lookup_setNull h, get]

end SqlRow

end Mindwtr.Store
