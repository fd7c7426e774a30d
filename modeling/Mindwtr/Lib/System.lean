import Mathlib

/-!
# Guarded transition systems

A step function `step : S → E → Option S` says when an event is enabled and what it does.
`Reaches step ok s t` says that a run from `s` ends in `t` with every step meeting `ok`; an invariant
kept by each such step holds in every state so reached (`Reaches.invariant`), and `runEvents` replays
a concrete run.
-/

namespace Mindwtr.Lib

section
variable {S E : Type} {step : S → E → Option S} {ok : S → E → Prop}

inductive Reaches (step : S → E → Option S) (ok : S → E → Prop) (s : S) : S → Prop
  | refl : Reaches step ok s s
  | step {t u : S} {e : E} : Reaches step ok s t → ok t e → step t e = some u → Reaches step ok s u

/-- What every step keeps holds wherever a run leads. -/
theorem Reaches.invariant {P : S → Prop} {s t : S} (h : Reaches step ok s t) (hs : P s)
    (hstep : ∀ a e b, P a → ok a e → step a e = some b → P b) : P t := by
  induction h with
  | refl => exact hs
  | step _ hok hse ih => exact hstep _ _ _ ih hok hse

theorem Reaches.trans {s t u : S} (hst : Reaches step ok s t) (htu : Reaches step ok t u) : Reaches step ok s u := by
  induction htu with
  | refl => exact hst
  | step _ hok hse ih => exact .step ih hok hse

/-- Where the steps that meet `ok` agree, so do the runs. -/
theorem Reaches.congr {step' : S → E → Option S} {s t : S} (h : Reaches step ok s t)
    (heq : ∀ a e, ok a e → step a e = step' a e) : Reaches step' ok s t := by
  induction h with
  | refl => exact .refl
  | step _ hok hse ih => exact .step ih hok ((heq _ _ hok).symm.trans hse)

def runEvents (step : S → E → Option S) (s : S) (events : List E) : Option S := events.foldlM step s

/-- A replay whose steps meet `ok` is a run. -/
theorem reaches_of_runEvents {s t : S} {events : List E}
    (hok : ∀ (before : List E) (e : E) (after : List E) (a : S), events = before ++ e :: after →
      runEvents step s before = some a → ok a e)
    (h : runEvents step s events = some t) : Reaches step ok s t := by
  induction events using List.reverseRecOn generalizing t with
  | nil =>
    obtain rfl := Option.some.inj h
    exact .refl
  | append_singleton events e ih =>
    rw [runEvents, List.foldlM_append] at h
    obtain ⟨a, ha, h⟩ := Option.bind_eq_some_iff.1 h
    have hstep : step a e = some t := by
      simpa [List.foldlM_cons] using h
    refine .step (ih ?_ ha) (hok events e [] a rfl ha) hstep
    rintro before e' after b rfl hb
    exact hok before e' (after ++ [e]) b (by simp) hb

/-- A replay that checks each step is a run of checked steps. -/
theorem reaches_of_guarded {s t : S} {guard : S → E → Bool} {events : List E}
    (hguard : ∀ a e, guard a e = true → ok a e)
    (h : runEvents (fun a e => if guard a e then step a e else none) s events = some t) : Reaches step ok s t := by
  induction events using List.reverseRecOn generalizing t with
  | nil =>
    obtain rfl := Option.some.inj h
    exact .refl
  | append_singleton events e ih =>
    rw [runEvents, List.foldlM_append] at h
    obtain ⟨a, ha, h⟩ := Option.bind_eq_some_iff.1 h
    have hstep : (if guard a e then step a e else none) = some t := by
      simpa [List.foldlM_cons] using h
    split_ifs at hstep with hchecked
    exact .step (ih ha) (hguard a e hchecked) hstep

/-- A replay that ends in a state with `p`. -/
theorem reaches_of_any {s : S} {events : List E} {p : S → Bool}
    (h : (runEvents step s events).any p = true) :
    ∃ t, Reaches step (fun _ _ => True) s t ∧ p t = true := by
  obtain ⟨t, ht, hp⟩ := (Option.any_eq_true _ _).1 h
  exact ⟨t, reaches_of_runEvents (fun _ _ _ _ _ _ => trivial) ht, hp⟩

end

end Mindwtr.Lib
