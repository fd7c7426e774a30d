import Mindwtr.Calendar.IcsCandidates
import Mindwtr.Calendar.IcsExpansion

/-!
# The occurrences of a rule

Plain enumeration goes through the periods of a rule one by one and takes the days that the rule names in each. The
loops list the same days where a rule names them in their order and once (`InOrder`), and the periods they leave out
lie before the range (`keeps_skipped`). What they yield is then what plain enumeration finds, up to the cap on the
occurrences of an event (`expandStarts_eq_take`).
-/

namespace Mindwtr.Ics

open Mindwtr.Js Mindwtr.Lib

/-! ### Plain enumeration -/

section
variable (zone : Int) (e : Expansion) (rule : ParsedRRule)

/-- The number of the month of a period. -/
def periodMonth (k : Nat) : Int := monthOf (dayOf zone e.start) + rule.interval * k

/-- The first day of a period; the start is in the period 0. -/
def periodDay (k : Nat) : Int :=
  match rule.freq with
  | .daily => dayOf zone e.start + rule.interval * k
  | .weekly => weekCursor zone e rule k
  | .monthly => monthStart (periodMonth zone e rule k)
  | .yearly => monthStart (12 * yearCursor zone e rule k)

/-- The days of a period that the rule names. -/
def periodDays (k : Nat) : List Int :=
  match rule.freq with
  | .daily => [dayOf zone e.start + rule.interval * k]
  | .weekly =>
    (daysBetween (weekCursor zone e rule k) (weekCursor zone e rule k + 7)).filter fun day =>
      getDay day ∈ weekdays zone e rule
  | .monthly =>
    (daysBetween (monthStart (periodMonth zone e rule k)) (monthStart (periodMonth zone e rule k + 1))).filter
      (fitsRule rule (getDate (dayOf zone e.start)))
  | .yearly =>
    (daysBetween (monthStart (12 * yearCursor zone e rule k))
      (monthStart (12 * (yearCursor zone e rule k + 1)))).filter fun day =>
        decide (getMonth day + 1 ∈ rule.byMonth.getD [getMonth (dayOf zone e.start) + 1]) &&
          fitsRule rule (getDate (dayOf zone e.start)) day

def periodCandidates (k : Nat) : List Int :=
  (periodDays zone e rule k).map fun day => timeOf zone day (clockOf zone e.start)

/-- The period that the loop of the rule starts from. -/
def firstPeriod : Nat :=
  if e.countLimit.any (0 < ·) then 0
  else
    match rule.freq with
    | .daily => jumpDays zone e rule
    | .weekly => jumpWeeks zone e rule
    | .monthly => jumpMonths zone e rule
    | .yearly => jumpYears zone e rule

/-- The rule names the days of a week from Monday on, no weekday by a number that leads into another year, and the last
day of no month up to the range twice. -/
structure InOrder : Prop where
  weekdays : rule.freq = .weekly → ((weekdays zone e rule).map fun day => (day + 6) % 7).Pairwise (· < ·)
  year : rule.freq = .monthly ∨ rule.freq = .yearly → 100 ≤ getFullYear (dayOf zone e.start)
  ordinals : rule.freq = .monthly ∨ rule.freq = .yearly → rule.OrdinalsInYear
  lastDay : rule.freq = .monthly → ∀ dates ∈ rule.byMonthDay, -1 ∈ dates → ∀ k : Nat,
    timeOf zone (monthStart (periodMonth zone e rule k)) 0 ≤ e.rangeEnd →
      monthStart (periodMonth zone e rule k + 1) - monthStart (periodMonth zone e rule k) ∉ dates

end

section
variable {zone : Int} {e : Expansion} {rule : ParsedRRule}

theorem interval_succ (interval : Int) (k : Nat) : interval * (k + 1 : Nat) = interval * k + interval := by
  push_cast
  ring

theorem periodDay_step (zone : Int) (e : Expansion) (h : 1 ≤ rule.interval) (k : Nat) :
    periodDay zone e rule k < periodDay zone e rule (k + 1) := by
  have hnext := interval_succ rule.interval k
  unfold periodDay periodMonth weekCursor yearCursor
  cases rule.freq with
  | daily =>
    dsimp only
    omega
  | weekly =>
    dsimp only
    omega
  | monthly => exact monthStart_strictMono (by omega)
  | yearly => exact monthStart_strictMono (by omega)

theorem periodDays_within (h : 1 ≤ rule.interval) (k : Nat) :
    ∀ day ∈ periodDays zone e rule k, periodDay zone e rule k ≤ day ∧ day < periodDay zone e rule (k + 1) := by
  intro day hday
  have hstep := periodDay_step zone e h k
  have hnext := interval_succ rule.interval k
  unfold periodDays at hday
  unfold periodDay at hstep ⊢
  cases hfreq : rule.freq with
  | daily =>
    simp only [hfreq, List.mem_singleton] at hday hstep ⊢
    omega
  | weekly =>
    simp only [hfreq, List.mem_filter, mem_daysBetween] at hday hstep ⊢
    unfold weekCursor at *
    omega
  | monthly =>
    simp only [hfreq, List.mem_filter, mem_daysBetween] at hday hstep ⊢
    have hmonth : monthStart (periodMonth zone e rule k + 1) ≤ monthStart (periodMonth zone e rule (k + 1)) :=
      monthStart_strictMono.monotone (by
        unfold periodMonth
        omega)
    omega
  | yearly =>
    simp only [hfreq, List.mem_filter, mem_daysBetween] at hday hstep ⊢
    have hyear : monthStart (12 * (yearCursor zone e rule k + 1)) ≤ monthStart (12 * yearCursor zone e rule (k + 1)) :=
      monthStart_strictMono.monotone (by
        unfold yearCursor
        omega)
    omega

theorem pairwise_periodDays (k : Nat) : (periodDays zone e rule k).Pairwise (· < ·) := by
  unfold periodDays
  cases rule.freq with
  | daily => exact List.pairwise_singleton _ _
  | weekly => exact (pairwise_daysBetween _ _).filter _
  | monthly => exact (pairwise_daysBetween _ _).filter _
  | yearly => exact (pairwise_daysBetween _ _).filter _

theorem inPeriods (zone : Int) (e : Expansion) (h : 1 ≤ rule.interval) :
    InPeriods (fun k => timeOf zone (periodDay zone e rule k) 0) (periodCandidates zone e rule) := by
  obtain ⟨hclock0, hclock⟩ := clockOf_bounds zone e.start
  refine ⟨fun k => timeOf_lt_timeOf (periodDay_step zone e h k), fun k => ?_, fun k c hc => ?_⟩
  · rw [periodCandidates, List.pairwise_map]
    exact (pairwise_periodDays k).imp timeOf_lt_timeOf
  · obtain ⟨day, hday, rfl⟩ := List.mem_map.1 hc
    obtain ⟨hle, hlt⟩ := periodDays_within h k day hday
    exact ⟨timeOf_zero_le hle hclock0, timeOf_zero_lt hlt hclock⟩

/-! ### The candidates of the loops -/

theorem dayCursor_eq (zone : Int) (k : Nat) :
    dayCursor e rule k = timeOf zone (dayOf zone e.start + rule.interval * k) (clockOf zone e.start) := by
  have hstart := timeOf_dayOf zone e.start
  unfold dayCursor timeOf at *
  rw [add_mul]
  omega

theorem getDay_weekCursor (zone : Int) (e : Expansion) (rule : ParsedRRule) (k : Nat) :
    getDay (weekCursor zone e rule k) = 1 := by
  unfold weekCursor weekStart getDay
  omega

theorem monthCursor_eq (h : 100 ≤ getFullYear (dayOf zone e.start)) (k : Nat) :
    monthCursor zone e rule k = periodMonth zone e rule k := by
  have hyear : fullYear (getFullYear (dayOf zone e.start)) = getFullYear (dayOf zone e.start) := if_neg (by omega)
  rw [monthCursor, hyear, periodMonth, getFullYear, getMonth, Int.mul_ediv_add_emod]

theorem interval_nonneg (h : 1 ≤ rule.interval) (k : Nat) : 0 ≤ rule.interval * (k : Int) :=
  mul_nonneg (by omega) (by omega)

theorem weekdays_bounds (hvalid : rule.Valid) : ∀ day ∈ weekdays zone e rule, 0 ≤ day ∧ day < 7 := by
  intro day hday
  unfold weekdays at hday
  cases htokens : rule.byDay with
  | none =>
    rw [htokens] at hday
    rw [List.mem_singleton.1 hday]
    exact getDay_bounds _
  | some tokens =>
    rw [htokens] at hday
    obtain ⟨token, htoken, rfl⟩ := List.mem_map.1 (List.mem_eraseDups.1 hday)
    exact hvalid.weekday tokens htokens token htoken

theorem weekCandidates_eq (hfreq : rule.freq = .weekly) (hvalid : rule.Valid) (horder : InOrder zone e rule) (k : Nat) :
    weekCandidates zone e rule k = periodCandidates zone e rule k := by
  have hdays : ((weekdays zone e rule).map fun day =>
      weekCursor zone e rule k + (day - getDay (weekCursor zone e rule k) + 7) % 7) = periodDays zone e rule k := by
    have hmonday := getDay_weekCursor zone e rule k
    have hsorted : ((weekdays zone e rule).map fun day =>
        weekCursor zone e rule k + (day - getDay (weekCursor zone e rule k) + 7) % 7).Pairwise (· < ·) := by
      rw [hmonday, List.pairwise_map]
      refine (List.pairwise_map.1 (horder.weekdays hfreq)).imp ?_
      intro a b hab
      rw [show a - 1 + 7 = a + 6 by omega, show b - 1 + 7 = b + 6 by omega]
      omega
    refine eq_of_pairwise_lt hsorted (pairwise_periodDays k) ?_
    intro day
    simp only [periodDays, hfreq, List.mem_map, List.mem_filter, mem_daysBetween, decide_eq_true_eq, hmonday]
    unfold getDay at hmonday ⊢
    constructor
    · rintro ⟨weekday, hweekday, rfl⟩
      have hbounds := weekdays_bounds hvalid weekday hweekday
      refine ⟨by omega, ?_⟩
      rw [show (weekCursor zone e rule k + (weekday - 1 + 7) % 7 + 4) % 7 = weekday by omega]
      exact hweekday
    · rintro ⟨hrange, hweekday⟩
      exact ⟨_, hweekday, by omega⟩
  rw [periodCandidates, ← hdays, List.map_map]
  rfl

theorem monthCandidates_eq (hfreq : rule.freq = .monthly) (hvalid : rule.Valid) (horder : InOrder zone e rule) (k : Nat)
    (hk : timeOf zone (monthStart (monthCursor zone e rule k)) 0 ≤ e.rangeEnd) :
    monthCandidates zone e rule k = periodCandidates zone e rule k := by
  have hyear := horder.year (.inl hfreq)
  have hforward := interval_nonneg hvalid.interval k
  rw [monthCursor_eq hyear] at hk
  rw [monthCandidates, periodCandidates, periodDays, hfreq, monthCursor_eq hyear]
  refine congrArg (List.map _) (getMonthlyCandidates_eq ?_ hvalid (horder.ordinals (.inl hfreq)) (getDate_bounds _)
    fun dates hdates hlast => horder.lastDay hfreq dates hdates hlast k hk)
  unfold periodMonth
  unfold getFullYear at hyear
  omega

theorem yearCandidates_eq (hfreq : rule.freq = .yearly) (hvalid : rule.Valid) (horder : InOrder zone e rule) (k : Nat) :
    yearCandidates zone e rule k = periodCandidates zone e rule k := by
  have hyear := horder.year (.inr hfreq)
  have hforward := interval_nonneg hvalid.interval k
  rw [yearCandidates, periodCandidates, periodDays, hfreq]
  refine congrArg (List.map _) (getYearlyCandidates_eq ?_ hvalid (horder.ordinals (.inr hfreq)) ?_ (getDate_bounds _))
  · unfold yearCursor
    omega
  · unfold getMonth
    omega

/-! ### The periods left out -/

theorem skipPeriods_past {isPast : Nat → Bool} {fuel k j : Nat} (hkj : k ≤ j) (hj : j < skipPeriods isPast fuel k) :
    isPast j = true := by
  induction fuel generalizing k with
  | zero =>
    rw [skipPeriods] at hj
    omega
  | succ fuel ih =>
    rw [skipPeriods] at hj
    split_ifs at hj with hpast
    · rcases hkj.eq_or_lt with rfl | hlt
      · exact hpast
      · exact ih hlt hj
    · omega

theorem interval_le_of_lt_jumps (h : 1 ≤ rule.interval) {gap : Int} {j : Nat} (hj : j < (gap / rule.interval).toNat) :
    rule.interval * j + rule.interval ≤ gap := by
  have hle : (j : Int) + 1 ≤ gap / rule.interval := by omega
  have hmul := (Int.le_ediv_iff_mul_le (by omega)).1 hle
  calc rule.interval * j + rule.interval = (j + 1) * rule.interval := by ring
    _ ≤ gap := hmul

/-- What a period that is left out ends before. -/
theorem periodCandidates_skipped (hvalid : rule.Valid) (horder : InOrder zone e rule) {j : Nat}
    (hj : j < firstPeriod zone e rule) {c : Int} (hc : c ∈ periodCandidates zone e rule j) : c < e.windowStart := by
  have hinterval := hvalid.interval
  obtain ⟨hclock0, hclock⟩ := clockOf_bounds zone e.start
  obtain ⟨day, hday, rfl⟩ := List.mem_map.1 hc
  unfold firstPeriod at hj
  split_ifs at hj
  · omega
  unfold periodDays at hday
  cases hfreq : rule.freq with
  | daily =>
    simp only [hfreq, List.mem_singleton] at hj hday
    subst hday
    unfold jumpDays at hj
    split_ifs at hj
    · by_cases hjump : j < ((dayOf zone e.windowStart - dayOf zone e.start) / rule.interval).toNat
      · have hle := interval_le_of_lt_jumps hinterval hjump
        exact (timeOf_zero_lt (show _ < dayOf zone e.windowStart by omega) hclock).trans_le (timeOf_le_iff.2 le_rfl)
      · have hpast := skipPeriods_past (not_lt.1 hjump) hj
        rw [decide_eq_true_eq, dayCursor_eq zone] at hpast
        exact hpast
    · omega
  | weekly =>
    simp only [hfreq, List.mem_filter, mem_daysBetween] at hj hday
    refine (timeOf_zero_lt hday.1.2 hclock).trans_le ?_
    unfold jumpWeeks at hj
    split_ifs at hj
    · by_cases hjump : j < ((dayOf zone e.windowStart - weekCursor zone e rule 0) / 7 / rule.interval).toNat
      · have hle := interval_le_of_lt_jumps hinterval hjump
        rw [timeOf_le_iff]
        unfold weekCursor at *
        simp only [Nat.cast_zero, mul_zero] at hle
        omega
      · have hpast := skipPeriods_past (not_lt.1 hjump) hj
        rw [decide_eq_true_eq] at hpast
        exact hpast.le
    · omega
  | monthly =>
    simp only [hfreq, List.mem_filter, mem_daysBetween] at hj hday
    have hyear := horder.year (.inl hfreq)
    have hend : monthStart (periodMonth zone e rule j + 1) ≤ monthStart (periodMonth zone e rule j + rule.interval) :=
      monthStart_strictMono.monotone (by omega)
    refine (timeOf_zero_lt (hday.1.2.trans_le hend) hclock).trans_le ?_
    unfold jumpMonths at hj
    simp only [monthCursor_eq hyear] at hj
    split_ifs at hj
    · by_cases hjump : j < ((monthOf (dayOf zone e.windowStart) - periodMonth zone e rule 0) / rule.interval).toNat
      · have hle := interval_le_of_lt_jumps hinterval hjump
        rw [timeOf_le_iff, ← le_monthOf_iff]
        unfold periodMonth at *
        simp only [Nat.cast_zero, mul_zero] at hle
        omega
      · have hpast := skipPeriods_past (not_lt.1 hjump) hj
        rw [decide_eq_true_eq] at hpast
        exact hpast.le
    · omega
  | yearly =>
    simp only [hfreq, List.mem_filter, mem_daysBetween] at hj hday
    refine (timeOf_zero_lt hday.1.2 hclock).trans_le ?_
    unfold jumpYears at hj
    split_ifs at hj
    · have hle := interval_le_of_lt_jumps hinterval hj
      rw [timeOf_le_iff, ← le_getFullYear_iff]
      unfold yearCursor at *
      simp only [Nat.cast_zero, mul_zero] at hle
      omega
    · omega

/-! ### What the loops yield -/

/-- The periods a loop may go through are enough to pass the range. -/
theorem rangeEnd_lt_of_periodsLeft (zone : Int) (e : Expansion) {first : Nat → Int}
    (hfirst : ∀ k, first k < first (k + 1)) (k : Nat) :
    e.rangeEnd < timeOf zone (first (k + periodsLeft zone e (first k))) 0 := by
  have hle := add_le_of_step hfirst k (periodsLeft zone e (first k))
  rw [lt_timeOf_iff]
  unfold periodsLeft at *
  omega

theorem expandStarts_out (hvalid : rule.Valid) (horder : InOrder zone e rule) : ∃ enough, ∀ n, enough ≤ n →
    expandStarts zone e rule =
      (counted e.eligible e.limit 0 (periodsFrom (periodCandidates zone e rule) (firstPeriod zone e rule) n)).filter
        e.keeps := by
  have hperiods := inPeriods zone e hvalid.interval
  have hstep := periodDay_step zone e hvalid.interval
  have hpast := fun k => rangeEnd_lt_of_periodsLeft zone e hstep k
  refine ⟨periodsLeft zone e (periodDay zone e rule (firstPeriod zone e rule)), fun n hn => ?_⟩
  unfold expandStarts
  cases hfreq : rule.freq with
  | daily =>
    have hcursor : ∀ k, dayOf zone (dayCursor e rule k) = periodDay zone e rule k := by
      intro k
      obtain ⟨hclock0, hclock⟩ := clockOf_bounds zone e.start
      rw [dayCursor_eq zone, dayOf_timeOf hclock0 hclock, periodDay, hfreq]
    have hday : (fun k => [dayCursor e rule k]) = periodCandidates zone e rule := by
      funext k
      rw [periodCandidates, periodDays, hfreq, dayCursor_eq zone]
      rfl
    have hfirst : (if e.countLimit.any (0 < ·) then 0 else jumpDays zone e rule) = firstPeriod zone e rule := by
      rw [firstPeriod, hfreq]
    dsimp only
    rw [hfirst, hcursor, ← hday]
    refine (Expansion.walkDays_out ?_ {} ?_ hn).trans (List.nil_append _)
    · intro k
      rw [dayCursor_eq zone, dayCursor_eq zone]
      apply timeOf_lt_timeOf
      have hlt := hstep k
      rw [periodDay, periodDay, hfreq] at hlt
      exact hlt
    · refine (hpast (firstPeriod zone e rule)).trans_le ?_
      rw [timeOf_le_iff, hcursor]
  | weekly =>
    have hday : periodDay zone e rule = weekCursor zone e rule := by
      funext k
      rw [periodDay, hfreq]
    have hfirst : (if e.countLimit.any (0 < ·) then 0 else jumpWeeks zone e rule) = firstPeriod zone e rule := by
      rw [firstPeriod, hfreq]
    simp only [hday] at hperiods hpast hn
    dsimp only
    rw [hfirst, Expansion.walkPeriods_congr _ fun k _ => weekCandidates_eq hfreq hvalid horder k]
    exact (Expansion.walkPeriods_out hperiods _ (fun k => decide_eq_true_iff) {} (hpast _) hn).trans (List.nil_append _)
  | monthly =>
    have hday : periodDay zone e rule = fun k => monthStart (monthCursor zone e rule k) := by
      funext k
      rw [periodDay, hfreq, monthCursor_eq (horder.year (.inl hfreq))]
    have hfirst : (if e.countLimit.any (0 < ·) then 0 else jumpMonths zone e rule) = firstPeriod zone e rule := by
      rw [firstPeriod, hfreq]
    simp only [hday] at hperiods hpast hn
    dsimp only
    rw [hfirst, Expansion.walkPeriods_congr _ fun k hk => monthCandidates_eq hfreq hvalid horder k (decide_eq_true_iff.1 hk)]
    exact (Expansion.walkPeriods_out hperiods _ (fun k => decide_eq_true_iff) {} (hpast _) hn).trans (List.nil_append _)
  | yearly =>
    have hday : periodDay zone e rule = fun k => monthStart (12 * yearCursor zone e rule k) := by
      funext k
      rw [periodDay, hfreq]
    have hfirst : (if e.countLimit.any (0 < ·) then 0 else jumpYears zone e rule) = firstPeriod zone e rule := by
      rw [firstPeriod, hfreq]
    simp only [hday] at hperiods hpast hn
    dsimp only
    rw [hfirst, Expansion.walkPeriods_congr _ fun k _ => yearCandidates_eq hfreq hvalid horder k]
    refine (Expansion.walkPeriods_out hperiods _ (fun k => ?_) {} (hpast _) hn).trans (List.nil_append _)
    rw [decide_eq_true_iff, timeOf_le_iff, le_getFullYear_iff]

theorem keeps_skipped (hvalid : rule.Valid) (horder : InOrder zone e rule) :
    ∀ c ∈ periodsFrom (periodCandidates zone e rule) 0 (firstPeriod zone e rule), e.keeps c = false := by
  intro c hc
  obtain ⟨j, -, hj, hmem⟩ := mem_periodsFrom.1 hc
  rw [Nat.zero_add] at hj
  exact not_keeps_of_early (periodCandidates_skipped hvalid horder hj hmem)

/-- The candidates that the loop of a rule counts, without a bound of its own, in the periods before `n`. -/
def countedStarts (zone : Int) (e : Expansion) (rule : ParsedRRule) (n : Nat) : List Int :=
  countedFrom e (periodCandidates zone e rule) (firstPeriod zone e rule) (n - firstPeriod zone e rule)

theorem expandStarts_eq_take (hvalid : rule.Valid) (horder : InOrder zone e rule) (hcount : e.countLimit = rule.count) :
    ∃ enough, ∀ n, enough ≤ n →
      plainStarts e (periodCandidates zone e rule) n = (countedStarts zone e rule n).filter e.keeps ∧
      expandStarts zone e rule = ((countedStarts zone e rule n).take e.maxPerEvent).filter e.keeps := by
  obtain ⟨enough, henough⟩ := expandStarts_out hvalid horder
  refine ⟨firstPeriod zone e rule + enough, fun n hn => ?_⟩
  constructor
  · have hplain := plainStarts_eq_filter (inPeriods zone e hvalid.interval)
      (n := n - firstPeriod zone e rule) (keeps_skipped hvalid horder) fun count hmem hpos => by
        rw [firstPeriod, if_pos]
        rw [Option.mem_def.1 hmem]
        simpa using hpos
    rw [show firstPeriod zone e rule + (n - firstPeriod zone e rule) = n by omega] at hplain
    exact hplain
  · rw [henough (n - firstPeriod zone e rule) (by omega),
      counted_eq_take fun count hmem => hvalid.count count (hcount ▸ hmem)]
    rfl

end

/-! ### The events -/

section
variable [Runtime]

/-- The occurrences of an event that plain enumeration finds in the first `n` periods of its rule. -/
def plainOccurrences (zone : Int) (event : ParsedVEvent) (options : ParseIcsOptions) (rule : ParsedRRule) (n : Nat) :
    List ExternalCalendarEvent :=
  (plainStarts (expansionOf event options rule) (periodCandidates zone (expansionOf event options rule) rule) n).map
    (occurrenceAt event options (max 0 (event.stop - event.start)))

variable {zone : Int} {event : ParsedVEvent} {options : ParseIcsOptions} {rule : ParsedRRule} {raw : String}

theorem nodup_ids (event : ParsedVEvent) (options : ParseIcsOptions) {starts : List Int} (durationMs : Int)
    (hstarts : starts.Nodup)
    (hiso : ∀ a ∈ starts, ∀ b ∈ starts, Runtime.toISOString a = Runtime.toISOString b → a = b) :
    ((starts.map (occurrenceAt event options durationMs)).map (·.id)).Nodup := by
  rw [List.map_map]
  refine hstarts.map_on ?_
  intro a ha b hb hab
  apply hiso a ha b hb
  exact (String.append_right_inj _).1 hab

end

/-! ### A device in UTC -/

section
attribute [local instance] isoRuntime

/-- From Monday, the 1st of January 2024, nine o'clock, for an hour. -/
def newYearMonday (rule : ParsedRRule) : ParsedVEvent where
  uid := "standup"
  summary := "Standup"
  start := 1704099600000
  stop := 1704103200000
  allDay := false
  rrule := some rule

def january2024 : ParseIcsOptions where
  sourceId := "work"
  rangeStart := 1704067200000
  rangeEnd := 1706745600000

def onWeekdays (weekdays : List Int) (count : Int) : ParsedRRule where
  freq := .weekly
  interval := 1
  untilDate := none
  count := some count
  byDay := some (weekdays.map fun weekday => { weekday, ordinal := none })
  byMonth := none
  byMonthDay := none

theorem inOrder_mondayFriday :
    InOrder 0 (expansionOf (newYearMonday (onWeekdays [1, 5] 3)) january2024 (onWeekdays [1, 5] 3))
      (onWeekdays [1, 5] 3) where
  weekdays _ := by decide
  year h := by simp [onWeekdays] at h
  ordinals h := by simp [onWeekdays] at h
  lastDay h := by simp [onWeekdays] at h

end

end Mindwtr.Ics
