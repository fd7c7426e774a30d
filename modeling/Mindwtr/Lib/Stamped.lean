import Mathlib

/-!
# Values with stamps

A cell holds at most one value at a time, and each value it is given comes with a stamp the cell has never had.
A reader keeps what it made of a value under the stamp it saw. The entry is coherent when its stamp is an old one
or the entry is a reading of the value in the cell; then a hit is as good as reading (`Coherent.hit`), whatever the
cell was given in between (`Coherent.put`).
-/

namespace Mindwtr.Lib

structure Stamped (Stamp Value : Type) where
  current : Option (Stamp × Value)
  used : List Stamp
  mem_used : ∀ stamp value, current = some (stamp, value) → stamp ∈ used

namespace Stamped

variable {Stamp Value Entry : Type}

def put (cell : Stamped Stamp Value) (stamp : Stamp) (value : Value) : Stamped Stamp Value where
  current := some (stamp, value)
  used := stamp :: cell.used
  mem_used := by
    intro stamp' value' h
    obtain ⟨rfl, -⟩ := Prod.mk.inj (Option.some.inj h)
    simp

/-- The entry under the stamp the cell has now. -/
def keep (cell : Stamped Stamp Value) (entry : Entry) : Option (Stamp × Entry) :=
  cell.current.map fun e => (e.1, entry)

/-- The entry, where its stamp is the one the cell has now. -/
def lookup [DecidableEq Stamp] (cell : Stamped Stamp Value) (kept : Option (Stamp × Entry)) : Option Entry :=
  match kept, cell.current with
  | some (stamp, entry), some (stamp', _) => if stamp = stamp' then some entry else none
  | _, _ => none

/-- What is kept was made of the value of its stamp. -/
def Coherent (reads : Value → Entry → Prop) (cell : Stamped Stamp Value) (kept : Option (Stamp × Entry)) : Prop :=
  ∀ stamp entry, kept = some (stamp, entry) →
    stamp ∈ cell.used ∧ ∀ value, cell.current = some (stamp, value) → reads value entry

variable {reads : Value → Entry → Prop} {cell : Stamped Stamp Value} {kept : Option (Stamp × Entry)}

theorem coherent_none : Coherent reads cell none := fun _ _ h => by cases h

/-- Under a new stamp no entry can be mistaken. -/
theorem Coherent.put (h : Coherent reads cell kept) {stamp : Stamp} (hfresh : stamp ∉ cell.used) (value : Value) :
    Coherent reads (cell.put stamp value) kept := by
  intro stamp' entry hkept
  obtain ⟨hused, -⟩ := h stamp' entry hkept
  refine ⟨List.mem_cons_of_mem stamp hused, ?_⟩
  intro value' hcurrent
  obtain ⟨rfl, -⟩ := Prod.mk.inj (Option.some.inj hcurrent)
  exact absurd hused hfresh

theorem coherent_keep {entry : Entry} (h : ∀ e, cell.current = some e → reads e.2 entry) :
    Coherent reads cell (cell.keep entry) := by
  intro stamp entry' hkept
  obtain ⟨e, hcurrent, he⟩ := Option.map_eq_some_iff.1 hkept
  obtain ⟨rfl, rfl⟩ := Prod.mk.inj he
  refine ⟨cell.mem_used e.1 e.2 hcurrent, ?_⟩
  intro value hvalue
  rw [← (Prod.mk.inj (Option.some.inj (hcurrent.symm.trans hvalue))).2]
  exact h e hcurrent

/-- A hit returns what reading the cell returns. -/
theorem Coherent.hit [DecidableEq Stamp] (h : Coherent reads cell kept) {entry : Entry}
    (hfound : cell.lookup kept = some entry) : ∃ e, cell.current = some e ∧ reads e.2 entry := by
  cases kept with
  | none => cases hfound
  | some k =>
    cases hcurrent : cell.current with
    | none => simp [lookup, hcurrent] at hfound
    | some e =>
      simp only [lookup, hcurrent] at hfound
      split_ifs at hfound with hsame
      obtain rfl := Option.some.inj hfound
      have hvalue : cell.current = some (k.1, e.2) := by rw [hcurrent, hsame]
      exact ⟨e, rfl, (h k.1 k.2 rfl).2 e.2 hvalue⟩

end Stamped

end Mindwtr.Lib
