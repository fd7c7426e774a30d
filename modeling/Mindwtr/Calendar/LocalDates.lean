import Mindwtr.Calendar.IcsRecurrence

/-!
# Local dates

The months are stretches of the days (`monthOf_eq_iff`), and the days are stretches of the times (`timeOf_le_iff`).
-/

namespace Mindwtr.Ics

open Mindwtr.Js

/-! ### Months -/

theorem monthStart_succ (month : Int) :
    monthStart month + 28 ≤ monthStart (month + 1) ∧ monthStart (month + 1) ≤ monthStart month + 31 := by
  obtain ⟨year, m, hm0, hm, rfl⟩ : ∃ year m : Int, 0 ≤ m ∧ m < 12 ∧ month = 12 * year + m :=
    ⟨month / 12, month % 12, by omega, by omega, by omega⟩
  unfold monthStart daysFromCivil
  by_cases hlast : m = 11
  · subst hlast
    have h1 : (12 * year + 11) / 12 = year := by omega
    have h2 : (12 * year + 11) % 12 = 11 := by omega
    have h3 : (12 * year + 11 + 1) / 12 = year + 1 := by omega
    have h4 : (12 * year + 11 + 1) % 12 = 0 := by omega
    rw [h1, h2, h3, h4]
    norm_num
    omega
  · have h1 : (12 * year + m) / 12 = year := by omega
    have h2 : (12 * year + m) % 12 = m := by omega
    have h3 : (12 * year + m + 1) / 12 = year := by omega
    have h4 : (12 * year + m + 1) % 12 = m + 1 := by omega
    rw [h1, h2, h3, h4]
    have hcases : m = 0 ∨ m = 1 ∨ m = 2 ∨ m = 3 ∨ m = 4 ∨ m = 5 ∨ m = 6 ∨ m = 7 ∨ m = 8 ∨ m = 9 ∨ m = 10 := by omega
    rcases hcases with rfl | rfl | rfl | rfl | rfl | rfl | rfl | rfl | rfl | rfl | rfl <;> norm_num <;> omega

theorem monthStart_year (month : Int) :
    monthStart month + 365 ≤ monthStart (month + 12) ∧ monthStart (month + 12) ≤ monthStart month + 366 := by
  have h1 : (month + 12) / 12 = month / 12 + 1 := by omega
  have h2 : (month + 12) % 12 = month % 12 := by omega
  unfold monthStart daysFromCivil
  rw [h1, h2]
  dsimp only
  generalize month / 12 = year
  split_ifs <;> omega

/-- The first day of March; years begin with it in the count of the days. -/
def marchStart (year : Int) : Int :=
  year / 400 * 146097 + (year % 400 * 365 + year % 400 / 4 - year % 400 / 100) - 719468

theorem monthStart_march {month : Int} (h0 : 0 ≤ month) (h11 : month ≤ 11) (year : Int) :
    monthStart (12 * year + month + 2) = marchStart year + (153 * month + 2) / 5 := by
  have hmod : year - year / 400 * 400 = year % 400 := by omega
  unfold monthStart daysFromCivil marchStart
  by_cases hearly : month ≤ 9
  · have h1 : (12 * year + month + 2) / 12 = year := by omega
    have h2 : (12 * year + month + 2) % 12 = month + 2 := by omega
    have hle : ¬month + 2 + 1 ≤ 2 := by omega
    have hgt : month + 2 + 1 > 2 := by omega
    rw [h1, h2]
    dsimp only
    rw [if_neg hle, if_pos hgt, hmod]
    omega
  · have h1 : (12 * year + month + 2) / 12 = year + 1 := by omega
    have h2 : (12 * year + month + 2) % 12 = month - 10 := by omega
    have hle : month - 10 + 1 ≤ 2 := by omega
    have hgt : ¬month - 10 + 1 > 2 := by omega
    rw [h1, h2]
    dsimp only
    rw [if_pos hle, if_neg hgt, add_sub_cancel_right, hmod]
    omega

theorem marchStart_era {year : Int} (h0 : 0 ≤ year) (h399 : year ≤ 399) (era : Int) :
    marchStart (year + era * 400) = era * 146097 + (year * 365 + year / 4 - year / 100) - 719468 := by
  have hdiv : (year + era * 400) / 400 = era := by omega
  have hmod : (year + era * 400) % 400 = year := by omega
  rw [marchStart, hdiv, hmod]

/-- The year of a day in an era of 400 years. -/
theorem yearOfEra_spec {day : Int} (h0 : 0 ≤ day) (hlt : day < 146097) :
    ∃ year, (day - day / 1460 + day / 36524 - day / 146096) / 365 = year ∧ 0 ≤ year ∧ year ≤ 399 ∧
      year * 365 + year / 4 - year / 100 ≤ day ∧
      (year < 399 → day < (year + 1) * 365 + (year + 1) / 4 - (year + 1) / 100) := by
  refine ⟨_, rfl, ?_⟩
  generalize hyear : (day - day / 1460 + day / 36524 - day / 146096) / 365 = year
  by_cases hlast : day = 146096
  · subst hlast
    norm_num at hyear
    subst hyear
    norm_num
  have hzero : day / 146096 = 0 := by omega
  obtain ⟨century, rest, hcentury, hrest, rfl⟩ : ∃ century rest : Int, (0 ≤ century ∧ century ≤ 3) ∧
      (0 ≤ rest ∧ rest < 36524) ∧ day = 36524 * century + rest :=
    ⟨day / 36524, day % 36524, by omega, by omega, by omega⟩
  have hdiv : (36524 * century + rest) / 36524 = century := by omega
  have hcycle : (36524 * century + rest) / 1460 = 25 * century + (24 * century + rest) / 1460 := by omega
  rw [hzero, hdiv, hcycle] at hyear
  obtain ⟨k, rfl⟩ : ∃ k, year = 100 * century + k := ⟨year - 100 * century, by omega⟩
  generalize hq : (24 * century + rest) / 1460 = q at hyear
  have hk : (rest - q) / 365 = k := by omega
  have hqBound : 0 ≤ q ∧ q ≤ 25 := by omega
  have hkBound : 0 ≤ k ∧ k ≤ 99 := by omega
  have hle : k / 4 ≤ q := by omega
  have hge : q ≤ (k + 1) / 4 := by omega
  have h4 : (100 * century + k) / 4 = 25 * century + k / 4 := by omega
  have h100 : (100 * century + k) / 100 = century := by omega
  refine ⟨by omega, by omega, by omega, ?_⟩
  intro _
  by_cases hnew : k = 99
  · omega
  · have h4' : (100 * century + k + 1) / 4 = 25 * century + (k + 1) / 4 := by omega
    have h100' : (100 * century + k + 1) / 100 = century := by omega
    omega

theorem monthOf_eq_march (day : Int) : ∃ year month, monthOf day = 12 * year + month + 2 ∧ 0 ≤ month ∧ month ≤ 11 ∧
    marchStart year + (153 * month + 2) / 5 ≤ day ∧
    (month < 11 → day < marchStart year + (153 * (month + 1) + 2) / 5) ∧ day < marchStart (year + 1) := by
  obtain ⟨era, rest, hrest, hera⟩ : ∃ era rest : Int, (0 ≤ rest ∧ rest < 146097) ∧ day + 719468 = 146097 * era + rest :=
    ⟨(day + 719468) / 146097, (day + 719468) % 146097, by omega, by omega⟩
  obtain ⟨yearOfEra, hyear, hyear0, hyear399, hle, hlt⟩ := yearOfEra_spec hrest.1 hrest.2
  have hdiv : (day + 719468) / 146097 = era := by omega
  have hmod : day + 719468 - era * 146097 = rest := by omega
  obtain ⟨dayOfYear, hdayOfYear⟩ : ∃ d, d = rest - (365 * yearOfEra + yearOfEra / 4 - yearOfEra / 100) := ⟨_, rfl⟩
  have hdays : 0 ≤ dayOfYear ∧ dayOfYear ≤ 365 := by
    refine ⟨by omega, ?_⟩
    by_cases hlast : yearOfEra < 399
    · have hlt' := hlt hlast
      omega
    · omega
  refine ⟨yearOfEra + era * 400, (5 * dayOfYear + 2) / 153, ?_, by omega, by omega, ?_, ?_, ?_⟩
  · unfold monthOf civilFromDays
    dsimp only
    rw [hdiv, hmod, hyear, ← hdayOfYear]
    split_ifs <;> omega
  · rw [marchStart_era hyear0 hyear399]
    omega
  · rw [marchStart_era hyear0 hyear399]
    omega
  · by_cases hlast : yearOfEra < 399
    · have hlt' := hlt hlast
      rw [show yearOfEra + era * 400 + 1 = yearOfEra + 1 + era * 400 by omega, marchStart_era (by omega) (by omega)]
      omega
    · rw [show yearOfEra + era * 400 + 1 = 0 + (era + 1) * 400 by omega, marchStart_era (by omega) (by omega)]
      omega

theorem monthOf_spec (day : Int) : monthStart (monthOf day) ≤ day ∧ day < monthStart (monthOf day + 1) := by
  obtain ⟨year, month, heq, h0, h11, hle, hlt, hnext⟩ := monthOf_eq_march day
  rw [heq, monthStart_march h0 h11]
  refine ⟨hle, ?_⟩
  by_cases hlast : month < 11
  · rw [show 12 * year + month + 2 + 1 = 12 * year + (month + 1) + 2 by omega, monthStart_march (by omega) (by omega)]
    exact hlt hlast
  · rw [show 12 * year + month + 2 + 1 = 12 * (year + 1) + 0 + 2 by omega, monthStart_march (by omega) (by omega)]
    omega

theorem monthStart_strictMono : StrictMono monthStart :=
  strictMono_int_of_lt_succ fun month => by
    have h := (monthStart_succ month).1
    omega

theorem le_monthOf_iff {month day : Int} : month ≤ monthOf day ↔ monthStart month ≤ day := by
  obtain ⟨hle, hlt⟩ := monthOf_spec day
  constructor
  · intro h
    exact (monthStart_strictMono.monotone h).trans hle
  · intro h
    have h' := monthStart_strictMono.lt_iff_lt.1 (h.trans_lt hlt)
    omega

theorem monthOf_eq_iff {month day : Int} :
    monthOf day = month ↔ monthStart month ≤ day ∧ day < monthStart (month + 1) := by
  rw [← le_monthOf_iff, ← not_le, ← le_monthOf_iff]
  omega

theorem le_getFullYear_iff {year day : Int} : year ≤ getFullYear day ↔ monthStart (12 * year) ≤ day := by
  rw [← le_monthOf_iff, getFullYear]
  omega

theorem getDate_bounds (day : Int) : 1 ≤ getDate day ∧ getDate day ≤ 31 := by
  have hspec := monthOf_spec day
  have hlength := monthStart_succ (monthOf day)
  unfold getDate
  omega

theorem getDay_bounds (day : Int) : 0 ≤ getDay day ∧ getDay day < 7 := by
  unfold getDay
  omega

/-- A day less than a year from the month is in it, if it is in a month of that name. -/
theorem monthOf_eq_of_getMonth {month day : Int} (hafter : monthStart (month - 11) ≤ day)
    (hbefore : day < monthStart (month + 12)) (h : getMonth day = month % 12) : monthOf day = month := by
  rw [← le_monthOf_iff] at hafter
  rw [← not_le, ← le_monthOf_iff, not_le] at hbefore
  unfold getMonth at h
  omega

/-! ### Days -/

section
variable {zone day clock time : Int}

@[simp] theorem timeOf_dayOf (zone time : Int) : timeOf zone (dayOf zone time) (clockOf zone time) = time := by
  unfold timeOf dayOf clockOf dayMs
  omega

theorem dayOf_timeOf (h0 : 0 ≤ clock) (hlt : clock < dayMs) : dayOf zone (timeOf zone day clock) = day := by
  unfold timeOf dayOf dayMs at *
  omega

theorem clockOf_bounds (zone time : Int) : 0 ≤ clockOf zone time ∧ clockOf zone time < dayMs := by
  unfold clockOf dayMs
  omega

theorem timeOf_le_iff : timeOf zone day 0 ≤ time ↔ day ≤ dayOf zone time := by
  unfold timeOf dayOf dayMs
  omega

theorem lt_timeOf_iff : time < timeOf zone day 0 ↔ dayOf zone time < day := by
  unfold timeOf dayOf dayMs
  omega

theorem timeOf_lt_timeOf {day' : Int} (h : day < day') : timeOf zone day clock < timeOf zone day' clock := by
  unfold timeOf dayMs
  omega

theorem timeOf_zero_lt {day' : Int} (hday : day < day') (hclock : clock < dayMs) :
    timeOf zone day clock < timeOf zone day' 0 := by
  unfold timeOf dayMs at *
  omega

theorem timeOf_zero_le {day' : Int} (hday : day ≤ day') (hclock : 0 ≤ clock) :
    timeOf zone day 0 ≤ timeOf zone day' clock := by
  unfold timeOf dayMs
  omega

end

/-! ### Stretches of days -/

/-- The days from `first` on, before `next`. -/
def daysBetween (first next : Int) : List Int := (List.range (next - first).toNat).map fun n : Nat => first + (n : Int)

theorem mem_daysBetween {first next day : Int} : day ∈ daysBetween first next ↔ first ≤ day ∧ day < next := by
  simp only [daysBetween, List.mem_map, List.mem_range]
  constructor
  · rintro ⟨n, hn, rfl⟩
    omega
  · rintro ⟨hle, hlt⟩
    exact ⟨(day - first).toNat, by omega, by omega⟩

theorem pairwise_daysBetween (first next : Int) : (daysBetween first next).Pairwise (· < ·) := by
  rw [daysBetween, List.pairwise_map]
  refine List.pairwise_lt_range.imp ?_
  intro a b hab
  omega

theorem eq_of_pairwise_lt {l l' : List Int} (hl : l.Pairwise (· < ·)) (hl' : l'.Pairwise (· < ·))
    (h : ∀ day, day ∈ l ↔ day ∈ l') : l = l' :=
  ((List.perm_ext_iff_of_nodup (hl.imp ne_of_lt) (hl'.imp ne_of_lt)).2 h).eq_of_pairwise'
    (hl.imp le_of_lt) (hl'.imp le_of_lt)

end Mindwtr.Ics
