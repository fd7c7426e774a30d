import Mathlib

/-!
# Walking through periods

The candidates of a series come in periods, each with its own list in the order of time. A walk goes from a period on,
counts the candidates that are eligible, up to a limit, and ends at the end of a window.
-/

namespace Mindwtr.Lib

/-- The candidates of the `n` periods from `k` on. -/
def periodsFrom (candidates : Nat → List Int) (k n : Nat) : List Int := (List.range' k n).flatMap candidates

/-- What is eligible in a list, up to the limit that is left when `generated` have been counted. -/
def counted (eligible : Int → Bool) (limit generated : Nat) (l : List Int) : List Int :=
  (l.filter eligible).take (limit - generated)

section
variable {candidates : Nat → List Int} {bound : Nat → Int} {eligible : Int → Bool} {limit generated k n : Nat}
  {l l' : List Int} {last : Int}

@[simp] theorem periodsFrom_zero (candidates : Nat → List Int) (k : Nat) : periodsFrom candidates k 0 = [] := rfl

theorem periodsFrom_succ (candidates : Nat → List Int) (k n : Nat) :
    periodsFrom candidates k (n + 1) = candidates k ++ periodsFrom candidates (k + 1) n := by
  rw [periodsFrom, List.range'_succ, List.flatMap_cons]
  rfl

theorem periodsFrom_add (candidates : Nat → List Int) (k m n : Nat) :
    periodsFrom candidates k (m + n) = periodsFrom candidates k m ++ periodsFrom candidates (k + m) n := by
  induction m generalizing k with
  | zero => simp
  | succ m ih =>
    have hsum : m + 1 + n = (m + n) + 1 := by omega
    have hstart : k + 1 + m = k + (m + 1) := by omega
    rw [hsum, periodsFrom_succ, ih, periodsFrom_succ, List.append_assoc, hstart]

theorem mem_periodsFrom {c : Int} : c ∈ periodsFrom candidates k n ↔ ∃ j, k ≤ j ∧ j < k + n ∧ c ∈ candidates j := by
  simp only [periodsFrom, List.mem_flatMap, List.mem_range'_1]
  constructor
  · rintro ⟨j, ⟨hk, hn⟩, hc⟩
    exact ⟨j, hk, hn, hc⟩
  · rintro ⟨j, hk, hn, hc⟩
    exact ⟨j, ⟨hk, hn⟩, hc⟩

theorem add_le_of_step {f : Nat → Int} (h : ∀ k, f k < f (k + 1)) (k n : Nat) : f k + n ≤ f (k + n) := by
  induction n with
  | zero => simp
  | succ n ih =>
    have hstep := h (k + n)
    rw [← Nat.add_assoc]
    omega

/-- Every period has its own stretch of time, and its candidates in order. -/
structure InPeriods (bound : Nat → Int) (candidates : Nat → List Int) : Prop where
  step : ∀ k, bound k < bound (k + 1)
  sorted : ∀ k, (candidates k).Pairwise (· < ·)
  within : ∀ k, ∀ c ∈ candidates k, bound k ≤ c ∧ c < bound (k + 1)

namespace InPeriods
variable (h : InPeriods bound candidates)
include h

theorem mono {j k : Nat} (hjk : j ≤ k) : bound j ≤ bound k := by
  induction hjk with
  | refl => exact le_rfl
  | step _ ih => exact ih.trans (h.step _).le

theorem le_of_mem {c : Int} (hc : c ∈ periodsFrom candidates k n) : bound k ≤ c ∧ c < bound (k + n) := by
  obtain ⟨j, hk, hn, hc⟩ := mem_periodsFrom.1 hc
  obtain ⟨hle, hlt⟩ := h.within j c hc
  exact ⟨(h.mono hk).trans hle, hlt.trans_le (h.mono (by omega))⟩

theorem pairwise (k n : Nat) : (periodsFrom candidates k n).Pairwise (· < ·) := by
  induction n generalizing k with
  | zero => exact List.Pairwise.nil
  | succ n ih =>
    rw [periodsFrom_succ, List.pairwise_append]
    refine ⟨h.sorted k, ih (k + 1), ?_⟩
    intro a ha b hb
    exact (h.within k a ha).2.trans_le (h.le_of_mem hb).1

end InPeriods

theorem takeWhile_congr {α : Type} {p q : α → Bool} {l : List α} (h : ∀ a ∈ l, p a = q a) :
    l.takeWhile p = l.takeWhile q := by
  induction l with
  | nil => rfl
  | cons a l ih =>
    rw [List.takeWhile_cons, List.takeWhile_cons, h a List.mem_cons_self,
      ih fun b hb => h b (List.mem_cons_of_mem _ hb)]

/-- What is taken from a sorted list up to a bound is what lies below the bound. -/
theorem takeWhile_eq_filter {p : Int → Bool} (hl : l.Pairwise (· < ·))
    (hp : ∀ a b, a < b → p b = true → p a = true) : l.takeWhile p = l.filter p := by
  induction l with
  | nil => rfl
  | cons c l ih =>
    obtain ⟨hfirst, hl⟩ := List.pairwise_cons.1 hl
    cases hc : p c with
    | true => rw [List.takeWhile_cons_of_pos hc, List.filter_cons_of_pos hc, ih hl]
    | false =>
      have hrest : l.filter p = [] := by
        rw [List.filter_eq_nil_iff]
        intro d hd hpd
        rw [hp c d (hfirst d hd) hpd] at hc
        cases hc
      rw [List.takeWhile_cons_of_neg (by simp [hc]), List.filter_cons_of_neg (by simp [hc]), hrest]

theorem counted_append : counted eligible limit generated (l ++ l') =
    counted eligible limit generated l ++
      counted eligible limit (generated + (counted eligible limit generated l).length) l' := by
  rw [counted, counted, counted, List.filter_append, List.take_append]
  congr 2
  rw [List.length_take]
  omega

theorem counted_eq_nil_of_full (h : limit ≤ generated) : counted eligible limit generated l = [] := by
  rw [counted, Nat.sub_eq_zero_of_le h, List.take_zero]

theorem counted_eq_nil (h : ∀ c ∈ l, eligible c = false) : counted eligible limit generated l = [] := by
  have hfilter : l.filter eligible = [] := List.filter_eq_nil_iff.2 fun c hc => by simp [h c hc]
  rw [counted, hfilter, List.take_nil]

theorem counted_cons_of_not {c : Int} (h : eligible c = false) :
    counted eligible limit generated (c :: l) = counted eligible limit generated l := by
  rw [counted, counted, List.filter_cons_of_neg (by simp [h])]

theorem counted_cons_of_eligible {c : Int} (h : eligible c = true) (hroom : generated < limit) :
    counted eligible limit generated (c :: l) = c :: counted eligible limit (generated + 1) l := by
  obtain ⟨room, hroom⟩ : ∃ room, limit - generated = room + 1 := ⟨limit - generated - 1, by omega⟩
  have hrest : limit - (generated + 1) = room := by omega
  rw [counted, counted, List.filter_cons_of_pos h, hroom, hrest, List.take_succ_cons]

end

end Mindwtr.Lib
