import Mindwtr.Calendar.LocalDates
import Mindwtr.Lib.Periods
import Mindwtr.Lib.StableSort

/-!
# The candidates of a period

`fitsRule` says of a day whether a rule names it within its month. The candidates of a month and of a year are the days
of the month or the year that the rule names, in their order (`getMonthlyCandidates_eq`, `getYearlyCandidates_eq`).
-/

namespace Mindwtr.Ics

open Mindwtr.Js Mindwtr.Lib

/-! ### The days a rule names -/

/-- A day of the weekday, with that number among those of its month, from the first one or from the last one. -/
def fitsToken (day : Int) (token : WeekdayToken) : Bool :=
  getDay day = token.weekday && token.ordinal.all fun ordinal =>
    if 0 < ordinal then (day - monthStart (monthOf day)) / 7 + 1 = ordinal
    else (monthStart (monthOf day + 1) - 1 - day) / 7 + 1 = -ordinal

def fitsDate (day date : Int) : Bool :=
  if date = -1 then day + 1 = monthStart (monthOf day + 1) else getDate day = date

def fitsRule (rule : ParsedRRule) (fallbackMonthDay day : Int) : Bool :=
  match rule.byMonthDay, rule.byDay with
  | some dates, _ => dates.any (fitsDate day)
  | none, some tokens => tokens.any (fitsToken day)
  | none, none => getDate day = fallbackMonthDay

/-- What `parseRRule` makes sure of. -/
structure ParsedRRule.Valid (rule : ParsedRRule) : Prop where
  interval : 1 ≤ rule.interval
  count : ∀ count ∈ rule.count, count ≠ 0
  weekday : ∀ tokens ∈ rule.byDay, ∀ token ∈ tokens, 0 ≤ token.weekday ∧ token.weekday < 7
  byMonth : ∀ months ∈ rule.byMonth, ∀ month ∈ months, 1 ≤ month ∧ month ≤ 12
  nodup : ∀ dates ∈ rule.byMonthDay, dates.Nodup
  byMonthDay : ∀ dates ∈ rule.byMonthDay, ∀ date ∈ dates, (0 < date ∧ date ≤ 31) ∨ date = -1

theorem weekdayOf_bounds {name : List Char} {weekday : Int} (h : weekdayOf name = some weekday) :
    0 ≤ weekday ∧ weekday < 7 := by
  unfold weekdayOf at h
  split_ifs at h <;> cases h <;> decide

theorem weekdayToken_bounds {text : List Char} {token : WeekdayToken} (h : weekdayToken text = some token) :
    0 ≤ token.weekday ∧ token.weekday < 7 := by
  unfold weekdayToken at h
  cases hweekday : weekdayOf (text.drop (text.length - 2)) with
  | none => simp [hweekday] at h
  | some weekday =>
    have hbounds := weekdayOf_bounds hweekday
    simp only [hweekday] at h
    split_ifs at h
    · cases h
      exact hbounds
    all_goals
      split at h
      · split_ifs at h
        cases h
        exact hbounds
      · cases h

theorem nonEmpty_eq_some {α : Type} {l l' : List α} (h : nonEmpty l = some l') : l = l' := by
  unfold nonEmpty at h
  split_ifs at h
  exact Option.some.inj h

theorem parseRRule_valid [Runtime] {zone : Int} {raw : String} {rule : ParsedRRule}
    (h : parseRRule zone raw = some rule) : rule.Valid := by
  unfold parseRRule at h
  dsimp only at h
  split at h
  · cases h
  · cases h
    constructor
    · exact le_max_left _ _
    · intro count hcount
      have hne := (Option.mem_filter_iff.1 hcount).2
      simpa using hne
    · intro tokens htokens token htoken
      obtain ⟨text, -, hlist⟩ := Option.bind_eq_some_iff.1 htokens
      rw [← nonEmpty_eq_some hlist, List.mem_eraseDups, List.mem_filterMap] at htoken
      obtain ⟨part, -, hpart⟩ := htoken
      exact weekdayToken_bounds hpart
    · intro months hmonths month hmonth
      obtain ⟨text, -, hlist⟩ := Option.bind_eq_some_iff.1 hmonths
      rw [← nonEmpty_eq_some hlist, List.mem_eraseDups, List.mem_filter] at hmonth
      simpa using hmonth.2
    · intro dates hdates
      obtain ⟨text, -, hlist⟩ := Option.bind_eq_some_iff.1 hdates
      rw [← nonEmpty_eq_some hlist]
      exact nodup_eraseDups _
    · intro dates hdates date hdate
      obtain ⟨text, -, hlist⟩ := Option.bind_eq_some_iff.1 hdates
      rw [← nonEmpty_eq_some hlist, List.mem_eraseDups, List.mem_filter] at hdate
      simpa using hdate.2

/-- No weekday is counted from the first or the last day of a month to the month of that name in another year. -/
def ParsedRRule.OrdinalsInYear (rule : ParsedRRule) : Prop :=
  rule.byMonthDay = none → ∀ tokens ∈ rule.byDay, ∀ token ∈ tokens, ∀ ordinal ∈ token.ordinal, -52 ≤ ordinal ∧ ordinal ≤ 52

section
variable {rule : ParsedRRule} {month day fallbackMonthDay : Int}

theorem newDay_month (h : 1200 ≤ month) (date : Int) :
    newDay (month / 12) (month % 12) date = monthStart month + date - 1 := by
  have hyear : fullYear (month / 12) = month / 12 := if_neg (by omega)
  rw [newDay, hyear, Int.mul_ediv_add_emod]

theorem newDay_nextMonth (h : 1200 ≤ month) (date : Int) :
    newDay (month / 12) (month % 12 + 1) date = monthStart (month + 1) + date - 1 := by
  have hyear : fullYear (month / 12) = month / 12 := if_neg (by omega)
  rw [newDay, hyear, ← add_assoc, Int.mul_ediv_add_emod]

theorem monthOf_near (hle : monthStart month ≤ day) (hlt : day ≤ monthStart month + 55)
    (h : getMonth day = month % 12) : monthOf day = month := by
  have h1 := (monthStart_succ month).1
  have h2 := (monthStart_succ (month + 1)).1
  rw [add_assoc] at h2
  have hbefore := monthStart_strictMono (show month - 11 < month by omega)
  have hafter := monthStart_strictMono.monotone (show month + (1 + 1) ≤ month + 12 by omega)
  exact monthOf_eq_of_getMonth (by omega) (by omega) h

theorem mem_monthDays (h : 1200 ≤ month) {dates : List Int}
    (hdates : ∀ date ∈ dates, (0 < date ∧ date ≤ 31) ∨ date = -1) :
    day ∈ monthDays (month / 12) (month % 12) dates ↔ monthOf day = month ∧ dates.any (fitsDate day) = true := by
  rw [monthDays, List.mem_filter, List.mem_map, List.any_eq_true, decide_eq_true_eq]
  have hnext := (monthStart_succ month).1
  constructor
  · rintro ⟨⟨date, hdate, hday⟩, hmonth⟩
    rw [newDay_nextMonth h, newDay_month h] at hday
    have hin : monthOf day = month := by
      split_ifs at hday with hlast
      · exact monthOf_eq_iff.2 ⟨by omega, by omega⟩
      · obtain hrange | hlast' := hdates date hdate
        · exact monthOf_near (by omega) (by omega) hmonth
        · exact absurd hlast' hlast
    refine ⟨hin, date, hdate, ?_⟩
    rw [fitsDate, hin]
    split_ifs at hday ⊢ with hlast
    · rw [decide_eq_true_eq]
      omega
    · rw [decide_eq_true_eq, getDate, hin]
      omega
  · rintro ⟨hin, date, hdate, hfits⟩
    refine ⟨⟨date, hdate, ?_⟩, by rw [getMonth, hin]⟩
    rw [newDay_nextMonth h, newDay_month h]
    rw [fitsDate, hin] at hfits
    split_ifs at hfits ⊢ with hlast
    · rw [decide_eq_true_eq] at hfits
      omega
    · rw [decide_eq_true_eq, getDate, hin] at hfits
      omega

/-- How far a weekday is after a day. -/
theorem weekdayAfter (day : Int) {weekday : Int} (h : 0 ≤ weekday ∧ weekday < 7) :
    ∃ offset week, (weekday - getDay day + 7) % 7 = offset ∧ 0 ≤ offset ∧ offset ≤ 6 ∧
      day + offset + 4 = 7 * week + weekday := by
  refine ⟨_, (day + (weekday - getDay day + 7) % 7 + 4) / 7, rfl, by omega, by omega, ?_⟩
  unfold getDay
  omega

/-- How far a weekday is before a day. -/
theorem weekdayBefore (day : Int) {weekday : Int} (h : 0 ≤ weekday ∧ weekday < 7) :
    ∃ offset week, (getDay day - weekday + 7) % 7 = offset ∧ 0 ≤ offset ∧ offset ≤ 6 ∧
      day - offset + 4 = 7 * week + weekday := by
  refine ⟨_, (day - (getDay day - weekday + 7) % 7 + 4) / 7, rfl, by omega, by omega, ?_⟩
  unfold getDay
  omega

theorem getDay_eq_iff {weekday : Int} (h : 0 ≤ weekday ∧ weekday < 7) :
    getDay day = weekday ↔ ∃ week, day + 4 = 7 * week + weekday := by
  unfold getDay
  constructor
  · intro hday
    exact ⟨(day + 4) / 7, by omega⟩
  · rintro ⟨week, hweek⟩
    omega

theorem getNthWeekdayOfMonth_eq_some (h : 1200 ≤ month) {weekday ordinal : Int} (hweekday : 0 ≤ weekday ∧ weekday < 7)
    (hyear : -52 ≤ ordinal ∧ ordinal ≤ 52) :
    (∃ date, getNthWeekdayOfMonth (month / 12) (month % 12) weekday ordinal = some date ∧
      newDay (month / 12) (month % 12) date = day) ↔
      monthOf day = month ∧ fitsToken day { weekday, ordinal := some ordinal } = true := by
  have hlength := monthStart_succ month
  have hlast : monthOf (monthStart (month + 1) + 0 - 1) = month := monthOf_eq_iff.2 ⟨by omega, by omega⟩
  have hbefore := (monthStart_year (month - 11)).1
  have hafter := (monthStart_year month).1
  rw [show month - 11 + 12 = month + 1 by omega] at hbefore
  have hdate : ∀ candidate : Int, monthOf candidate = month →
      newDay (month / 12) (month % 12) (getDate candidate) = candidate := by
    intro candidate hin
    rw [newDay_month h, getDate, hin]
    omega
  obtain ⟨after, weekAfter, hafterEq, hafter0, hafter6, hweekAfter⟩ := weekdayAfter (monthStart month + 1 - 1) hweekday
  obtain ⟨ahead, weekAhead, haheadEq, hahead0, hahead6, hweekAhead⟩ :=
    weekdayBefore (monthStart (month + 1) + 0 - 1) hweekday
  have hlastDate : getDate (monthStart (month + 1) + 0 - 1) = monthStart (month + 1) - monthStart month := by
    rw [getDate, hlast]
    omega
  simp only [getNthWeekdayOfMonth, newDay_month h, newDay_nextMonth h, Option.ite_none_right_eq_some, Option.some.injEq,
    hafterEq, haheadEq, hlastDate]
  rw [fitsToken, Bool.and_eq_true, decide_eq_true_eq, Option.all_some, getDay_eq_iff hweekday]
  constructor
  · rintro ⟨date, ⟨hmonth, rfl⟩, hday⟩
    generalize hcandidate : (if 0 < ordinal then _ else _ : Int) = candidate at hmonth hday
    have hprevious := monthStart_strictMono (show month - 11 < month by omega)
    have hin : monthOf candidate = month := by
      refine monthOf_eq_of_getMonth ?_ ?_ hmonth
      · split_ifs at hcandidate <;> omega
      · split_ifs at hcandidate <;> omega
    rw [← newDay_month h, hdate candidate hin] at hday
    subst hday
    refine ⟨hin, ?_⟩
    rw [hin]
    split_ifs at hcandidate ⊢ with hpos
    · refine ⟨⟨weekAfter + ordinal - 1, by omega⟩, ?_⟩
      rw [decide_eq_true_eq]
      omega
    · refine ⟨⟨weekAhead + ordinal + 1, by omega⟩, ?_⟩
      rw [decide_eq_true_eq]
      omega
  · rintro ⟨hin, ⟨week, hweek⟩, hfits⟩
    rw [hin] at hfits
    obtain ⟨hfirst, hnext⟩ := monthOf_eq_iff.1 hin
    have hcandidate : (if 0 < ordinal then monthStart month + (1 + after + (ordinal - 1) * 7) - 1
        else monthStart month + (monthStart (month + 1) - monthStart month - ahead + (ordinal + 1) * 7) - 1) = day := by
      split_ifs at hfits ⊢ with hpos
      · rw [decide_eq_true_eq] at hfits
        omega
      · rw [decide_eq_true_eq] at hfits
        omega
    refine ⟨getDate day, ⟨?_, ?_⟩, ?_⟩
    · rw [hcandidate, getMonth, hin]
    · rw [hcandidate]
    · rw [← newDay_month h, hdate day hin]

theorem mem_weekdayDays (h : 1200 ≤ month) {token : WeekdayToken} (hweekday : 0 ≤ token.weekday ∧ token.weekday < 7)
    (hyear : ∀ ordinal ∈ token.ordinal, -52 ≤ ordinal ∧ ordinal ≤ 52) :
    day ∈ weekdayDays (month / 12) (month % 12) token ↔ monthOf day = month ∧ fitsToken day token = true := by
  obtain ⟨weekday, ordinal⟩ := token
  cases ordinal with
  | some ordinal =>
    rw [← getNthWeekdayOfMonth_eq_some h hweekday (hyear ordinal rfl)]
    simp [weekdayDays]
  | none =>
    dsimp only at hweekday
    obtain ⟨offset, week, hoffset, hoffset0, hoffset6, hweek⟩ := weekdayAfter (monthStart month + 1 - 1) hweekday
    have hlength := monthStart_succ month
    have hsorted : ((List.range 6).map fun k : Nat => newDay (month / 12) (month % 12) (1 + offset + 7 * k)).Pairwise
        (· < ·) := by
      rw [List.pairwise_map]
      refine List.pairwise_lt_range.imp ?_
      intro a b hab
      rw [newDay_month h, newDay_month h]
      omega
    -- The days listed are in the month and the next one, so that those in the month come first.
    have hnear : ∀ k : Nat, k < 6 → (getMonth (newDay (month / 12) (month % 12) (1 + offset + 7 * k)) = month % 12 ↔
        newDay (month / 12) (month % 12) (1 + offset + 7 * k) < monthStart (month + 1)) := by
      intro k hk
      rw [newDay_month h]
      constructor
      · intro hmonth
        exact (monthOf_eq_iff.1 (monthOf_near (by omega) (by omega) hmonth)).2
      · intro hlt
        rw [getMonth, monthOf_eq_iff.2 ⟨by omega, hlt⟩]
    have htake : weekdayDays (month / 12) (month % 12) { weekday, ordinal := none } =
        ((List.range 6).map fun k : Nat => newDay (month / 12) (month % 12) (1 + offset + 7 * k)).takeWhile
          fun day => getMonth day = month % 12 := by
      rw [weekdayDays, newDay_month h, hoffset]
    have hbelow : ((List.range 6).map fun k : Nat => newDay (month / 12) (month % 12) (1 + offset + 7 * k)).takeWhile
          (fun day => getMonth day = month % 12) =
        ((List.range 6).map fun k : Nat => newDay (month / 12) (month % 12) (1 + offset + 7 * k)).takeWhile
          fun day => day < monthStart (month + 1) := by
      rw [List.takeWhile_map, List.takeWhile_map]
      congr 1
      refine takeWhile_congr fun k hk => ?_
      have hk' := hnear k (List.mem_range.1 hk)
      simpa using hk'
    rw [htake, hbelow, takeWhile_eq_filter hsorted fun a b hab hb => by
      rw [decide_eq_true_eq] at hb ⊢
      omega]
    rw [List.mem_filter, List.mem_map, decide_eq_true_eq, monthOf_eq_iff, fitsToken, Option.all_none, Bool.and_true,
      decide_eq_true_eq, getDay_eq_iff hweekday]
    constructor
    · rintro ⟨⟨k, hk, rfl⟩, hlt⟩
      rw [newDay_month h] at hlt ⊢
      exact ⟨⟨by omega, hlt⟩, week + k, by omega⟩
    · rintro ⟨⟨hle, hlt⟩, week', hweek'⟩
      refine ⟨⟨(week' - week).toNat, List.mem_range.2 (by omega), ?_⟩, hlt⟩
      rw [newDay_month h]
      omega

theorem mem_candidatesOfMonth (h : 1200 ≤ month) (hvalid : rule.Valid) (hordinals : rule.OrdinalsInYear)
    (hdate : 1 ≤ fallbackMonthDay ∧ fallbackMonthDay ≤ 31) :
    day ∈ candidatesOfMonth (month / 12) (month % 12) rule fallbackMonthDay ↔
      monthOf day = month ∧ fitsRule rule fallbackMonthDay day = true := by
  unfold candidatesOfMonth fitsRule
  cases hdates : rule.byMonthDay with
  | some dates => exact mem_monthDays h (hvalid.byMonthDay dates hdates)
  | none =>
    cases htokens : rule.byDay with
    | some tokens =>
      dsimp only
      rw [List.mem_flatMap, List.any_eq_true]
      constructor
      · rintro ⟨token, htoken, hday⟩
        obtain ⟨hin, hfits⟩ := (mem_weekdayDays h (hvalid.weekday tokens htokens token htoken)
          (hordinals hdates tokens htokens token htoken)).1 hday
        exact ⟨hin, token, htoken, hfits⟩
      · rintro ⟨hin, token, htoken, hfits⟩
        exact ⟨token, htoken, (mem_weekdayDays h (hvalid.weekday tokens htokens token htoken)
          (hordinals hdates tokens htokens token htoken)).2 ⟨hin, hfits⟩⟩
    | none =>
      dsimp only
      rw [List.mem_filter, List.mem_singleton, newDay_month h, decide_eq_true_eq, decide_eq_true_eq]
      constructor
      · rintro ⟨rfl, hmonth⟩
        have hin := monthOf_near (by omega) (by omega) hmonth
        refine ⟨hin, ?_⟩
        rw [getDate, hin]
        omega
      · rintro ⟨hin, hday⟩
        rw [getDate, hin] at hday
        refine ⟨by omega, ?_⟩
        rw [getMonth, hin]

/-! ### In order -/

theorem mem_sortedDays {days : List Int} : day ∈ sortedDays days ↔ day ∈ days :=
  (List.perm_insertionSort _ days).mem_iff

theorem pairwise_sortedDays {days : List Int} (h : days.Nodup) : (sortedDays days).Pairwise (· < ·) := by
  have hle : (sortedDays days).Pairwise (· ≤ ·) := List.pairwise_insertionSort _ _
  have hne : (sortedDays days).Nodup := (List.perm_insertionSort _ days).nodup_iff.2 h
  exact (hle.and hne).imp fun ⟨hle, hne⟩ => lt_of_le_of_ne hle hne

theorem nodup_monthDays (h : 1200 ≤ month) {dates : List Int} (hnodup : dates.Nodup)
    (hlast : -1 ∈ dates → monthStart (month + 1) - monthStart month ∉ dates) :
    (monthDays (month / 12) (month % 12) dates).Nodup := by
  refine (List.Nodup.map_on ?_ hnodup).filter _
  intro a ha b hb hab
  rw [newDay_nextMonth h, newDay_month h, newDay_month h] at hab
  split_ifs at hab with ha' hb' hb'
  · rw [ha', hb']
  · subst ha'
    exact absurd (show monthStart (month + 1) - monthStart month ∈ dates by
      rw [show monthStart (month + 1) - monthStart month = b by omega]
      exact hb) (hlast ha)
  · subst hb'
    exact absurd (show monthStart (month + 1) - monthStart month ∈ dates by
      rw [show monthStart (month + 1) - monthStart month = a by omega]
      exact ha) (hlast hb)
  · omega

theorem getMonthlyCandidates_eq (h : 1200 ≤ month) (hvalid : rule.Valid) (hordinals : rule.OrdinalsInYear)
    (hdate : 1 ≤ fallbackMonthDay ∧ fallbackMonthDay ≤ 31)
    (hlast : ∀ dates ∈ rule.byMonthDay, -1 ∈ dates → monthStart (month + 1) - monthStart month ∉ dates) :
    getMonthlyCandidates month rule fallbackMonthDay =
      (daysBetween (monthStart month) (monthStart (month + 1))).filter (fitsRule rule fallbackMonthDay) := by
  have hmem : ∀ day, day ∈ getMonthlyCandidates month rule fallbackMonthDay ↔
      day ∈ candidatesOfMonth (month / 12) (month % 12) rule fallbackMonthDay := by
    intro day
    unfold getMonthlyCandidates candidatesOfMonth
    cases rule.byMonthDay with
    | some dates => exact mem_sortedDays
    | none =>
      cases rule.byDay with
      | some tokens => exact mem_sortedDays.trans List.mem_eraseDups
      | none => exact Iff.rfl
  have hsorted : (getMonthlyCandidates month rule fallbackMonthDay).Pairwise (· < ·) := by
    unfold getMonthlyCandidates
    cases hdates : rule.byMonthDay with
    | some dates => exact pairwise_sortedDays (nodup_monthDays h (hvalid.nodup dates hdates) (hlast dates hdates))
    | none =>
      cases rule.byDay with
      | some tokens => exact pairwise_sortedDays (nodup_eraseDups _)
      | none => exact (List.pairwise_singleton _ _).filter _
  refine eq_of_pairwise_lt hsorted ((pairwise_daysBetween _ _).filter _) ?_
  intro day
  rw [hmem, mem_candidatesOfMonth h hvalid hordinals hdate, List.mem_filter, mem_daysBetween, monthOf_eq_iff]

theorem getYearlyCandidates_eq {year fallbackMonth : Int} (h : 100 ≤ year) (hvalid : rule.Valid)
    (hordinals : rule.OrdinalsInYear) (hmonth : 1 ≤ fallbackMonth ∧ fallbackMonth ≤ 12)
    (hdate : 1 ≤ fallbackMonthDay ∧ fallbackMonthDay ≤ 31) :
    getYearlyCandidates year rule fallbackMonth fallbackMonthDay =
      (daysBetween (monthStart (12 * year)) (monthStart (12 * (year + 1)))).filter fun day =>
        decide (getMonth day + 1 ∈ rule.byMonth.getD [fallbackMonth]) && fitsRule rule fallbackMonthDay day := by
  refine eq_of_pairwise_lt (pairwise_sortedDays (nodup_eraseDups _)) ((pairwise_daysBetween _ _).filter _) ?_
  intro day
  rw [getYearlyCandidates, mem_sortedDays, List.mem_eraseDups, List.mem_flatMap, List.mem_filter, mem_daysBetween,
    ← le_monthOf_iff, ← not_le, ← le_monthOf_iff, Bool.and_eq_true, decide_eq_true_eq]
  have hmonths : ∀ monthNumber ∈ rule.byMonth.getD [fallbackMonth], 1 ≤ monthNumber ∧ monthNumber ≤ 12 := by
    cases hbyMonth : rule.byMonth with
    | some months => exact hvalid.byMonth months hbyMonth
    | none =>
      intro monthNumber hmem
      rw [Option.getD_none, List.mem_singleton] at hmem
      exact hmem ▸ hmonth
  have hcandidates : ∀ monthNumber ∈ rule.byMonth.getD [fallbackMonth],
      (day ∈ candidatesOfMonth year (monthNumber - 1) rule fallbackMonthDay ↔
        monthOf day = 12 * year + (monthNumber - 1) ∧ fitsRule rule fallbackMonthDay day = true) := by
    intro monthNumber hmem
    have hrange := hmonths monthNumber hmem
    rw [← mem_candidatesOfMonth (by omega) hvalid hordinals hdate,
      show (12 * year + (monthNumber - 1)) / 12 = year by omega,
      show (12 * year + (monthNumber - 1)) % 12 = monthNumber - 1 by omega]
  constructor
  · rintro ⟨monthNumber, hmem, hday⟩
    obtain ⟨hin, hfits⟩ := (hcandidates monthNumber hmem).1 hday
    have hrange := hmonths monthNumber hmem
    have hnumber : getMonth day + 1 = monthNumber := by
      rw [getMonth, hin]
      omega
    exact ⟨⟨by omega, by omega⟩, hnumber ▸ hmem, hfits⟩
  · rintro ⟨⟨hle, hlt⟩, hmem, hfits⟩
    refine ⟨getMonth day + 1, hmem, (hcandidates _ hmem).2 ⟨?_, hfits⟩⟩
    rw [getMonth]
    omega

end

end Mindwtr.Ics
