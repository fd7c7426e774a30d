import Mindwtr.Calendar.IcsRecurrence
import Mindwtr.Lib.Periods

/-!
# Expanding a rule

Each loop goes through the candidates of the periods from the one it starts at, which are in the order of time
(`InPeriods`), counts those that are eligible and keeps those in the range (`walkPeriods_out`). That is what plain
enumeration from the start gives (`plainStarts`), unless the count of the occurrences has run out before the range
(`counted_eq_take`).
-/

namespace Mindwtr.Ics

open Mindwtr.Js Mindwtr.Lib

/-! ### The loops -/

namespace Expansion
variable {e : Expansion}

def eligible (e : Expansion) (c : Int) : Bool := e.start ≤ c && c ≤ e.rangeEnd && e.untilDate.all (c ≤ ·)

/-- How many occurrences a loop counts at most. -/
def limit (e : Expansion) : Nat :=
  match e.countLimit with
  | none => e.maxPerEvent
  | some n => if n = 0 then e.maxPerEvent else min n.toNat e.maxPerEvent

theorem limit_le_iff {generated : Nat} :
    e.limit ≤ generated ↔ e.reachedCount generated = true ∨ e.maxPerEvent ≤ generated := by
  unfold limit reachedCount
  cases e.countLimit with
  | none => simp
  | some n =>
    by_cases hn : n = 0
    · simp [hn]
    · dsimp only
      rw [if_neg hn, Option.any_some, Bool.and_eq_true, decide_eq_true_eq, decide_eq_true_eq]
      omega

theorem shouldStop_iff {generated : Nat} {c : Int} :
    e.shouldStop generated c = true ↔ e.untilDate.any (· < c) = true ∨ e.limit ≤ generated := by
  rw [limit_le_iff, shouldStop, Bool.or_eq_true, Bool.or_eq_true, decide_eq_true_eq, or_assoc]

theorem not_eligible_of_until {c d : Int} (h : e.untilDate.any (· < c) = true) (hd : c ≤ d) : e.eligible d = false := by
  unfold eligible
  cases huntil : e.untilDate with
  | none => simp [huntil] at h
  | some u =>
    have hlt : u < c := by simpa [huntil] using h
    have hnot : ¬d ≤ u := by omega
    simp [hnot]

theorem not_eligible_of_past {c : Int} (h : e.rangeEnd < c) : e.eligible c = false := by
  have hnot : ¬c ≤ e.rangeEnd := by omega
  simp [eligible, hnot]

theorem not_eligible_of_early {c : Int} (h : c < e.start) : e.eligible c = false := by
  have hnot : ¬e.start ≤ c := by omega
  simp [eligible, hnot]

theorem eligible_of_not_stopped {c : Int} (hstart : e.start ≤ c) (hend : c ≤ e.rangeEnd)
    (huntil : e.untilDate.any (· < c) = false) : e.eligible c = true := by
  unfold eligible
  cases hu : e.untilDate with
  | none => simp [hstart, hend]
  | some u =>
    have hle : c ≤ u := by simpa [hu] using huntil
    simp [hstart, hend, hle]

theorem forCandidates_spec (pastReturns : Bool) {l : List Int} (hl : l.Pairwise (· < ·)) (s : LoopState) :
    (e.forCandidates pastReturns l s).2.out =
        s.out ++ (counted e.eligible e.limit s.generated l).filter e.keeps ∧
      (e.forCandidates pastReturns l s).2.generated =
        s.generated + (counted e.eligible e.limit s.generated l).length ∧
      ((e.forCandidates pastReturns l s).1 = true → ∀ l' : List Int, (∀ c ∈ l, ∀ d ∈ l', c < d) →
        counted e.eligible e.limit (e.forCandidates pastReturns l s).2.generated l' = []) := by
  induction l generalizing s with
  | nil =>
    refine ⟨by simp [forCandidates, counted], by simp [forCandidates, counted], ?_⟩
    intro h
    cases h
  | cons c l ih =>
    obtain ⟨hfirst, hl⟩ := List.pairwise_cons.1 hl
    rw [forCandidates]
    split_ifs with hearly hpast hreturns hstop hcount hmax
    · rw [counted_cons_of_not (not_eligible_of_early hearly)]
      obtain ⟨hout, hgenerated, hreturned⟩ := ih hl s
      exact ⟨hout, hgenerated, fun h l' hl' => hreturned h l' fun a ha => hl' a (List.mem_cons_of_mem _ ha)⟩
    · have hnone : counted e.eligible e.limit s.generated (c :: l) = [] := by
        apply counted_eq_nil
        intro d hd
        rcases List.mem_cons.1 hd with rfl | hd
        · exact not_eligible_of_past hpast
        · exact not_eligible_of_past (hpast.trans (hfirst d hd))
      rw [hnone]
      refine ⟨by simp, by simp, ?_⟩
      intro _ l' hl'
      apply counted_eq_nil
      intro d hd
      exact not_eligible_of_past (hpast.trans (hl' c List.mem_cons_self d hd))
    · rw [counted_cons_of_not (not_eligible_of_past hpast)]
      obtain ⟨hout, hgenerated, hreturned⟩ := ih hl s
      exact ⟨hout, hgenerated, fun h l' hl' => hreturned h l' fun a ha => hl' a (List.mem_cons_of_mem _ ha)⟩
    · have hlater : ∀ l' : List Int, (∀ d ∈ l', c ≤ d) → counted e.eligible e.limit s.generated l' = [] := by
        intro l' hl'
        rcases shouldStop_iff.1 hstop with huntil | hfull
        · exact counted_eq_nil fun d hd => not_eligible_of_until huntil (hl' d hd)
        · exact counted_eq_nil_of_full hfull
      have hnone : counted e.eligible e.limit s.generated (c :: l) = [] := by
        apply hlater
        intro d hd
        rcases List.mem_cons.1 hd with rfl | hd
        · exact le_rfl
        · exact (hfirst d hd).le
      rw [hnone]
      refine ⟨by simp, by simp, ?_⟩
      intro _ l' hl'
      exact hlater l' fun d hd => (hl' c List.mem_cons_self d hd).le
    all_goals
      rw [Bool.not_eq_true] at hstop
      have hopen : e.untilDate.any (· < c) = false ∧ s.generated < e.limit := by
        have hnot : ¬(e.untilDate.any (· < c) = true ∨ e.limit ≤ s.generated) := by
          intro hstopped
          rw [shouldStop_iff.2 hstopped] at hstop
          cases hstop
        rw [not_or, Bool.not_eq_true, not_le] at hnot
        exact hnot
      have heligible := eligible_of_not_stopped (not_lt.1 hearly) (not_lt.1 hpast) hopen.1
      rw [counted_cons_of_eligible heligible hopen.2]
    · have hfull : e.limit ≤ s.generated + 1 := limit_le_iff.2 (.inl hcount)
      rw [counted_eq_nil_of_full hfull]
      refine ⟨?_, rfl, fun _ l' _ => counted_eq_nil_of_full hfull⟩
      cases hkeeps : e.keeps c <;> simp [addOccurrence, hkeeps]
    · have hfull : e.limit ≤ s.generated + 1 := limit_le_iff.2 (.inr hmax)
      rw [counted_eq_nil_of_full hfull]
      refine ⟨?_, rfl, fun _ l' _ => counted_eq_nil_of_full hfull⟩
      cases hkeeps : e.keeps c <;> simp [addOccurrence, hkeeps]
    · obtain ⟨hout, hgenerated, hreturned⟩ := ih hl (e.addOccurrence s c)
      refine ⟨?_, ?_, fun h l' hl' => hreturned h l' fun a ha => hl' a (List.mem_cons_of_mem _ ha)⟩
      · rw [hout]
        cases hkeeps : e.keeps c <;> simp [addOccurrence, hkeeps]
      · rw [hgenerated, List.length_cons]
        simp only [addOccurrence]
        omega

variable {candidates : Nat → List Int} {bound : Nat → Int}

theorem counted_past (h : InPeriods bound candidates) {k : Nat} (hpast : e.rangeEnd < bound k) (generated n : Nat) :
    counted e.eligible e.limit generated (periodsFrom candidates k n) = [] := by
  apply counted_eq_nil
  intro c hc
  exact not_eligible_of_past (hpast.trans_le (h.le_of_mem hc).1)

/-- A loop keeps what it counts, from its first period on. -/
theorem walkPeriods_out (h : InPeriods bound candidates) (pastReturns : Bool) {inWindow : Nat → Bool}
    (hwindow : ∀ k, inWindow k = true ↔ bound k ≤ e.rangeEnd) {fuel k : Nat} (s : LoopState)
    (hfuel : e.rangeEnd < bound (k + fuel)) {n : Nat} (hn : fuel ≤ n) :
    (e.walkPeriods pastReturns inWindow candidates fuel k s).out =
      s.out ++ (counted e.eligible e.limit s.generated (periodsFrom candidates k n)).filter e.keeps := by
  induction fuel generalizing k s n with
  | zero => rw [walkPeriods, counted_past h (by simpa using hfuel), List.filter_nil, List.append_nil]
  | succ fuel ih =>
    rw [walkPeriods]
    split_ifs with hgo hreturned
    all_goals obtain ⟨n, rfl⟩ : ∃ m, n = m + 1 := ⟨n - 1, by omega⟩
    all_goals rw [periodsFrom_succ, counted_append, List.filter_append]
    · obtain ⟨hout, hgenerated, hlater⟩ := forCandidates_spec (e := e) pastReturns (h.sorted k) s
      have hnone := hlater hreturned (periodsFrom candidates (k + 1) n) fun c hc d hd =>
        (h.within k c hc).2.trans_le (h.le_of_mem hd).1
      rw [hgenerated] at hnone
      rw [hout, hnone, List.filter_nil, List.append_nil]
    · obtain ⟨hout, hgenerated, -⟩ := forCandidates_spec (e := e) pastReturns (h.sorted k) s
      have hfuel' : e.rangeEnd < bound (k + 1 + fuel) := by
        rw [show k + 1 + fuel = k + (fuel + 1) by omega]
        exact hfuel
      rw [ih _ hfuel' (show fuel ≤ n by omega), hout, hgenerated, List.append_assoc]
    · rw [← List.filter_append, ← counted_append, ← periodsFrom_succ]
      have hnone : counted e.eligible e.limit s.generated (periodsFrom candidates k (n + 1)) = [] := by
        rw [Bool.and_eq_true, not_and_or, hwindow, decide_eq_true_eq, not_le, not_lt] at hgo
        rcases hgo with hpast | hfull
        · exact counted_past h hpast _ _
        · exact counted_eq_nil_of_full (limit_le_iff.2 (.inr hfull))
      rw [hnone, List.filter_nil, List.append_nil]

/-- Only the candidates of the periods in the window matter. -/
theorem walkPeriods_congr {candidates' : Nat → List Int} (pastReturns : Bool) {inWindow : Nat → Bool}
    (h : ∀ k, inWindow k = true → candidates k = candidates' k) (fuel k : Nat) (s : LoopState) :
    e.walkPeriods pastReturns inWindow candidates fuel k s = e.walkPeriods pastReturns inWindow candidates' fuel k s := by
  induction fuel generalizing k s with
  | zero => rfl
  | succ fuel ih =>
    rw [walkPeriods, walkPeriods]
    cases hwindow : inWindow k with
    | false => simp
    | true => rw [h k hwindow, ih]

theorem walkDays_out {day : Nat → Int} (hday : ∀ k, day k < day (k + 1)) {fuel k : Nat} (s : LoopState)
    (hfuel : e.rangeEnd < day (k + fuel)) {n : Nat} (hn : fuel ≤ n) :
    (e.walkDays day fuel k s).out =
      s.out ++ (counted e.eligible e.limit s.generated (periodsFrom (fun k => [day k]) k n)).filter e.keeps := by
  have h : InPeriods day fun k => [day k] := by
    refine ⟨hday, fun k => List.pairwise_singleton _ _, ?_⟩
    intro k c hc
    rw [List.mem_singleton.1 hc]
    exact ⟨le_rfl, hday k⟩
  induction fuel generalizing k s n with
  | zero => rw [walkDays, counted_past h (by simpa using hfuel), List.filter_nil, List.append_nil]
  | succ fuel ih =>
    obtain ⟨n, rfl⟩ : ∃ m, n = m + 1 := ⟨n - 1, by omega⟩
    have hfuel' : e.rangeEnd < day (k + 1 + fuel) := by
      rw [show k + 1 + fuel = k + (fuel + 1) by omega]
      exact hfuel
    rw [walkDays]
    split_ifs with hgo hstart
    · rw [Bool.and_eq_true, decide_eq_true_eq, Bool.not_eq_true', ← Bool.not_eq_true, shouldStop_iff, not_or,
        Bool.not_eq_true, not_le] at hgo
      have heligible := eligible_of_not_stopped hstart hgo.1 hgo.2.1
      rw [ih _ hfuel' (show fuel ≤ n by omega), periodsFrom_succ, List.singleton_append,
        counted_cons_of_eligible heligible hgo.2.2]
      cases hkeeps : e.keeps (day k) <;> simp [addOccurrence, hkeeps]
    · rw [ih _ hfuel' (show fuel ≤ n by omega), periodsFrom_succ, List.singleton_append,
        counted_cons_of_not (not_eligible_of_early (not_le.1 hstart))]
    · have hnone : counted e.eligible e.limit s.generated (periodsFrom (fun k => [day k]) k (n + 1)) = [] := by
        rw [Bool.and_eq_true, decide_eq_true_eq, Bool.not_eq_true', ← Bool.not_eq_true, shouldStop_iff, not_and_or,
          not_le, not_not] at hgo
        rcases hgo with hpast | huntil | hfull
        · exact counted_past h hpast _ _
        · apply counted_eq_nil
          intro c hc
          exact not_eligible_of_until huntil (h.le_of_mem hc).1
        · exact counted_eq_nil_of_full hfull
      rw [hnone, List.filter_nil, List.append_nil]

end Expansion

/-! ### Plain enumeration -/

/-- At most the first `count` of a list. -/
def limited (count : Option Int) (l : List Int) : List Int :=
  match count with
  | none => l
  | some count => l.take count.toNat

/-- The occurrences among the candidates of the first `n` periods, from the start on, up to the count and to the end
of the rule, that are in the range. -/
def plainStarts (e : Expansion) (candidates : Nat → List Int) (n : Nat) : List Int :=
  (limited e.countLimit (((periodsFrom candidates 0 n).filter (e.start ≤ ·)).takeWhile fun c =>
    e.untilDate.all (c ≤ ·))).filter e.keeps

/-- The occurrences that a loop from the period `k` on would count without a bound of its own. -/
def countedFrom (e : Expansion) (candidates : Nat → List Int) (k n : Nat) : List Int :=
  limited e.countLimit ((periodsFrom candidates k n).filter e.eligible)

section
variable {e : Expansion} {candidates : Nat → List Int} {bound : Nat → Int} {l : List Int}

theorem le_of_keeps {c : Int} (h : e.keeps c = true) : c ≤ e.rangeEnd := by
  simp only [Expansion.keeps, intersectsRange, Bool.and_eq_true, decide_eq_true_eq] at h
  exact h.1.le

theorem not_keeps_of_early {c : Int} (h : c < e.windowStart) : e.keeps c = false := by
  have hnot : ¬e.rangeStart < c + e.durationMs := by
    unfold Expansion.windowStart at h
    omega
  simp [Expansion.keeps, intersectsRange, hnot]

/-- What lies past the window is neither kept nor followed by anything that is. -/
theorem filter_take_window (hl : l.Pairwise (· < ·)) (q : Nat) :
    (l.take q).filter e.keeps = ((l.filter (· ≤ e.rangeEnd)).take q).filter e.keeps := by
  induction l generalizing q with
  | nil => rfl
  | cons c l ih =>
    obtain ⟨hfirst, hl⟩ := List.pairwise_cons.1 hl
    by_cases hc : c ≤ e.rangeEnd
    · rw [List.filter_cons_of_pos (by simpa using hc)]
      cases q with
      | zero => rfl
      | succ q => rw [List.take_succ_cons, List.take_succ_cons, List.filter_cons, List.filter_cons, ih hl]
    · have hnone : (c :: l).filter (· ≤ e.rangeEnd) = [] := by
        rw [List.filter_eq_nil_iff]
        intro d hd
        rcases List.mem_cons.1 hd with rfl | hd
        · simpa using hc
        · have hlt := hfirst d hd
          have hnot : ¬d ≤ e.rangeEnd := by omega
          simpa using hnot
      rw [hnone, List.take_nil, List.filter_nil, List.filter_eq_nil_iff]
      intro d hd hkeeps
      have hd' : d ∈ (c :: l).filter (· ≤ e.rangeEnd) :=
        List.mem_filter.2 ⟨List.mem_of_mem_take hd, by simpa using le_of_keeps hkeeps⟩
      rw [hnone] at hd'
      cases hd'

theorem filter_limited_window (hl : l.Pairwise (· < ·)) (count : Option Int) :
    (limited count l).filter e.keeps = (limited count (l.filter (· ≤ e.rangeEnd))).filter e.keeps := by
  cases count with
  | some count => exact filter_take_window hl _
  | none =>
    have h := filter_take_window (e := e) hl l.length
    rw [List.take_length, List.take_of_length_le (List.length_filter_le _ _)] at h
    exact h

theorem filter_take_eq_iff (q : Nat) :
    (l.take q).filter e.keeps = l.filter e.keeps ↔ ∀ c ∈ l.drop q, e.keeps c = false := by
  have hsplit : l.filter e.keeps = (l.take q).filter e.keeps ++ (l.drop q).filter e.keeps := by
    rw [← List.filter_append, List.take_append_drop]
  rw [hsplit, List.self_eq_append_right, List.filter_eq_nil_iff]
  exact forall₂_congr fun c _ => by simp

theorem counted_eq_take (hcount : ∀ count ∈ e.countLimit, count ≠ 0) {k n : Nat} :
    counted e.eligible e.limit 0 (periodsFrom candidates k n) = (countedFrom e candidates k n).take e.maxPerEvent := by
  rw [counted, countedFrom, Expansion.limit, Nat.sub_zero]
  cases hlimit : e.countLimit with
  | none => rfl
  | some count =>
    dsimp only [limited]
    rw [if_neg (hcount count hlimit), List.take_take, Nat.min_comm]

/-- What plain enumeration takes up to the end of the rule is what is not past it. -/
theorem takeWhile_until (hl : l.Pairwise (· < ·)) : (l.filter (e.start ≤ ·)).takeWhile (fun c => e.untilDate.all (c ≤ ·)) =
    l.filter fun c => e.start ≤ c && e.untilDate.all (c ≤ ·) := by
  rw [takeWhile_eq_filter (hl.filter _), List.filter_filter]
  · exact List.filter_congr fun c _ => Bool.and_comm _ _
  · intro a b hab hb
    cases hu : e.untilDate with
    | none => rfl
    | some u =>
      simp only [hu, Option.all_some, decide_eq_true_eq] at hb ⊢
      omega

theorem filter_eligible : (l.filter fun c => e.start ≤ c && e.untilDate.all (c ≤ ·)).filter (· ≤ e.rangeEnd) =
    l.filter e.eligible := by
  rw [List.filter_filter]
  refine List.filter_congr fun c _ => ?_
  rw [Expansion.eligible, Bool.and_comm, Bool.and_right_comm]

/-- Plain enumeration may start after periods that hold nothing in the range, unless it has to count. -/
theorem plainStarts_eq_filter (h : InPeriods bound candidates) {k n : Nat}
    (hskip : ∀ c ∈ periodsFrom candidates 0 k, e.keeps c = false) (hcount : ∀ count ∈ e.countLimit, 0 < count → k = 0) :
    plainStarts e candidates (k + n) = (countedFrom e candidates k n).filter e.keeps := by
  have hsorted := h.pairwise 0 (k + n)
  rw [plainStarts, takeWhile_until hsorted, filter_limited_window (hsorted.filter _), filter_eligible, countedFrom,
    periodsFrom_add, Nat.zero_add, List.filter_append]
  cases hlimit : e.countLimit with
  | some count =>
    by_cases hpos : 0 < count
    · rw [hcount count hlimit hpos]
      rfl
    · have hzero : count.toNat = 0 := by omega
      simp [limited, hzero]
  | none =>
    have hnone : ((periodsFrom candidates 0 k).filter e.eligible).filter e.keeps = [] := by
      rw [List.filter_eq_nil_iff]
      intro c hc
      rw [hskip c (List.mem_of_mem_filter hc)]
      simp
    rw [limited, limited, List.filter_append, hnone, List.nil_append]

end

end Mindwtr.Ics
