import Mathlib

/-!
# Code that throws

A function that may throw returns `Except JsError`; one that may run for ever is `endless` where it
does. The lemmas take a run that returned apart into the runs of its parts.
-/

namespace Mindwtr.Js

inductive JsError where
  | typeError (message : String)
  | error (message : String)
  /-- Nothing is thrown: a loop of the code never ends. -/
  | endless
deriving DecidableEq, Repr

section
variable {ε α β : Type}

theorem bind_eq_ok {x : Except ε α} {f : α → Except ε β} {b : β} (h : x >>= f = .ok b) :
    ∃ a, x = .ok a ∧ f a = .ok b := by
  cases x with
  | error e => cases h
  | ok a => exact ⟨a, rfl, h⟩

theorem map_eq_ok {x : Except ε α} {f : α → β} {b : β} (h : x.map f = .ok b) :
    ∃ a, x = .ok a ∧ f a = b := by
  cases x with
  | error e => cases h
  | ok a => exact ⟨a, rfl, Except.ok.inj h⟩

theorem toOption_eq_some {x : Except ε α} {a : α} (h : x.toOption = some a) : x = .ok a := by
  cases x with
  | error e => cases h
  | ok b => exact congrArg _ (Option.some.inj h)

/-- A loop whose every step returns, returns. -/
theorem foldlM_ok {f : β → α → Except ε β} (hf : ∀ b a, ∃ b', f b a = .ok b') (l : List α) (b : β) :
    ∃ b', l.foldlM f b = .ok b' := by
  induction l generalizing b with
  | nil => exact ⟨b, rfl⟩
  | cons a l ih =>
    obtain ⟨next, hnext⟩ := hf b a
    obtain ⟨final, hfinal⟩ := ih next
    exact ⟨final, by rw [List.foldlM_cons, hnext]; exact hfinal⟩

end

end Mindwtr.Js
