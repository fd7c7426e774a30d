import Mathlib

/-!
# Bounded walks

A walk takes steps from a state. A step may end it, may throw, and may emit an item; the walk also ends with the last of
the items it may emit. A walk that may emit fewer items emits the first of them (`walk_take`), and one that has ended
by itself would emit no more (`walk_of_length_lt`).
-/

namespace Mindwtr.Lib

section
variable {ε σ β : Type} {step : σ → Except ε (Option (σ × Option β))}

/-- A walk of at most `fuel` steps that emits at most `cap` items. -/
def walk (step : σ → Except ε (Option (σ × Option β))) : Nat → σ → Nat → Except ε (List β)
  | 0, _, _ => .ok []
  | _ + 1, _, 0 => .ok []
  | fuel + 1, s, cap + 1 =>
    match step s with
    | .error e => .error e
    | .ok none => .ok []
    | .ok (some (s', none)) => walk step fuel s' (cap + 1)
    | .ok (some (s', some item)) => (walk step fuel s' cap).map (item :: ·)

theorem length_walk_le {fuel : Nat} {s : σ} {cap : Nat} {items : List β} (h : walk step fuel s cap = .ok items) :
    items.length ≤ cap := by
  induction fuel generalizing s cap items with
  | zero =>
    obtain rfl := Except.ok.inj h
    simp
  | succ fuel ih =>
    cases cap with
    | zero =>
      obtain rfl := Except.ok.inj h
      simp
    | succ cap =>
      rw [walk] at h
      split at h
      · cases h
      · obtain rfl := Except.ok.inj h
        simp
      · exact ih h
      · cases hrest : walk step fuel _ cap with
        | error e => rw [hrest] at h; cases h
        | ok rest =>
          rw [hrest] at h
          obtain rfl := Except.ok.inj h
          simpa using ih hrest

theorem walk_take {fuel : Nat} {s : σ} {small cap : Nat} {items : List β} (hle : small ≤ cap)
    (h : walk step fuel s cap = .ok items) : walk step fuel s small = .ok (items.take small) := by
  induction fuel generalizing s small cap items with
  | zero =>
    obtain rfl := Except.ok.inj h
    simp [walk]
  | succ fuel ih =>
    cases small with
    | zero => simp [walk]
    | succ small =>
      obtain ⟨cap, rfl⟩ : ∃ c, cap = c + 1 := ⟨cap - 1, by omega⟩
      rw [walk] at h ⊢
      split at h
      · cases h
      · obtain rfl := Except.ok.inj h
        rfl
      · exact ih hle h
      · cases hrest : walk step fuel _ cap with
        | error e => rw [hrest] at h; cases h
        | ok rest =>
          rw [hrest] at h
          obtain rfl := Except.ok.inj h
          rw [ih (by omega) hrest]
          rfl

theorem walk_of_length_lt {fuel : Nat} {s : σ} {small cap : Nat} {items : List β} (hle : small ≤ cap)
    (hlt : items.length < small) (h : walk step fuel s small = .ok items) : walk step fuel s cap = .ok items := by
  induction fuel generalizing s small cap items with
  | zero => exact h
  | succ fuel ih =>
    obtain ⟨small, rfl⟩ : ∃ c, small = c + 1 := ⟨small - 1, by omega⟩
    obtain ⟨cap, rfl⟩ : ∃ c, cap = c + 1 := ⟨cap - 1, by omega⟩
    rw [walk] at h ⊢
    split at h
    · cases h
    · exact h
    · exact ih hle hlt h
    · cases hrest : walk step fuel _ small with
      | error e => rw [hrest] at h; cases h
      | ok rest =>
        rw [hrest] at h
        obtain rfl := Except.ok.inj h
        rw [ih (by omega) (by simpa using hlt) hrest]
        rfl

end

end Mindwtr.Lib
