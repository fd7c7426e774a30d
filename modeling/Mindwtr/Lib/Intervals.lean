import Mathlib

/-!
# Intervals and the first place that is free

Half-open intervals of a linear order, sorted by their starts and merged where they meet, and the
search for the first free place: a cursor that jumps past the end of each interval in its way.
`firstFit_isFirst` says that the search finds the least place there is, for any rule of what fits
before a point and any set of places that has a least member from each point on.
-/

namespace Mindwtr.Lib

variable {T : Type} [LinearOrder T]

structure Period (T : Type) where
  start : T
  stop : T
deriving DecidableEq, Repr

namespace Period

def Contains (period : Period T) (time : T) : Prop := period.start ≤ time ∧ time < period.stop

/-- The part of a period within bounds, where there is any. -/
def clip (lower upper : T) (period : Period T) : Option (Period T) :=
  if min period.stop upper > max period.start lower then some ⟨max period.start lower, min period.stop upper⟩ else none

/-- A period with points in it, all of them within bounds. -/
structure Within (lower upper : T) (period : Period T) : Prop where
  lower_le : lower ≤ period.start
  start_lt : period.start < period.stop
  le_upper : period.stop ≤ upper

theorem clip_within {lower upper : T} {period clipped : Period T} (h : period.clip lower upper = some clipped) :
    clipped.Within lower upper := by
  unfold clip at h
  split at h
  · rename_i hlt
    obtain rfl := Option.some.inj h
    exact ⟨le_max_right _ _, hlt, min_le_right _ _⟩
  · cases h

theorem clip_contains {lower upper time : T} {period : Period T} :
    (∃ clipped, period.clip lower upper = some clipped ∧ clipped.Contains time) ↔
      (lower ≤ time ∧ time < upper) ∧ period.Contains time := by
  unfold clip
  constructor
  · rintro ⟨clipped, h, hstart, hstop⟩
    split at h
    · obtain rfl := Option.some.inj h
      rw [max_le_iff] at hstart
      rw [lt_min_iff] at hstop
      exact ⟨⟨hstart.2, hstop.2⟩, hstart.1, hstop.1⟩
    · cases h
  · rintro ⟨⟨hlower, hupper⟩, hstart, hstop⟩
    have hs : max period.start lower ≤ time := max_le hstart hlower
    have he : time < min period.stop upper := lt_min hstop hupper
    exact ⟨_, if_pos (lt_of_le_of_lt hs he), hs, he⟩

end Period

def Covers (periods : List (Period T)) (time : T) : Prop := ∃ period ∈ periods, period.Contains time

theorem covers_cons {period : Period T} {periods : List (Period T)} {time : T} :
    Covers (period :: periods) time ↔ period.Contains time ∨ Covers periods time := by
  simp [Covers]

theorem covers_perm {periods sorted : List (Period T)} (h : sorted.Perm periods) {time : T} :
    Covers sorted time ↔ Covers periods time :=
  exists_congr fun _ => and_congr_left fun _ => h.mem_iff

theorem covers_clipped {periods : List (Period T)} {lower upper time : T} :
    Covers (periods.filterMap (Period.clip lower upper)) time ↔
      (lower ≤ time ∧ time < upper) ∧ Covers periods time := by
  constructor
  · rintro ⟨clipped, hmem, hcontains⟩
    obtain ⟨period, hperiod, hclip⟩ := List.mem_filterMap.1 hmem
    obtain ⟨hbounds, hin⟩ := Period.clip_contains.1 ⟨clipped, hclip, hcontains⟩
    exact ⟨hbounds, period, hperiod, hin⟩
  · rintro ⟨hbounds, period, hperiod, hin⟩
    obtain ⟨clipped, hclip, hcontains⟩ := Period.clip_contains.2 ⟨hbounds, hin⟩
    exact ⟨clipped, List.mem_filterMap.2 ⟨period, hperiod, hclip⟩, hcontains⟩

/-! ### Merging -/

/-- The periods sorted by their starts: those that start before the last one ends make it longer. -/
def mergeInto (last : Period T) : List (Period T) → List (Period T)
  | [] => [last]
  | period :: rest =>
    if period.start > last.stop then last :: mergeInto period rest
    else mergeInto { last with stop := max last.stop period.stop } rest

def mergeSorted : List (Period T) → List (Period T)
  | [] => []
  | period :: rest => mergeInto period rest

section
variable {last period : Period T} {periods : List (Period T)} {time lower upper : T}

theorem contains_extended (hstart : last.start ≤ period.start) (htouch : period.start ≤ last.stop) :
    Period.Contains { last with stop := max last.stop period.stop } time ↔ last.Contains time ∨ period.Contains time := by
  simp only [Period.Contains, lt_max_iff]
  constructor
  · rintro ⟨hlast, hlt | hlt⟩
    · exact .inl ⟨hlast, hlt⟩
    · rcases lt_or_ge time last.stop with hbefore | hafter
      · exact .inl ⟨hlast, hbefore⟩
      · exact .inr ⟨le_trans htouch hafter, hlt⟩
  · rintro (⟨hlast, hlt⟩ | ⟨hperiod, hlt⟩)
    · exact ⟨hlast, .inl hlt⟩
    · exact ⟨le_trans hstart hperiod, .inr hlt⟩

theorem covers_mergeInto (hstart : ∀ period ∈ periods, last.start ≤ period.start)
    (hsorted : periods.Pairwise fun a b => a.start ≤ b.start) :
    Covers (mergeInto last periods) time ↔ last.Contains time ∨ Covers periods time := by
  fun_induction mergeInto last periods with
  | case1 last => rw [covers_cons]
  | case2 last period rest hgap ih =>
    rw [List.pairwise_cons] at hsorted
    rw [covers_cons, covers_cons, ih hsorted.1 hsorted.2]
  | case3 last period rest htouch ih =>
    rw [List.pairwise_cons] at hsorted
    have hperiod := hstart period List.mem_cons_self
    rw [ih (fun later hlater => hstart later (List.mem_cons_of_mem _ hlater)) hsorted.2,
      contains_extended hperiod (not_lt.1 htouch), covers_cons, or_assoc]

theorem covers_mergeSorted (hsorted : periods.Pairwise fun a b => a.start ≤ b.start) :
    Covers (mergeSorted periods) time ↔ Covers periods time := by
  cases periods with
  | nil => exact Iff.rfl
  | cons period rest =>
    rw [List.pairwise_cons] at hsorted
    rw [mergeSorted, covers_mergeInto hsorted.1 hsorted.2, covers_cons]

theorem mergeInto_within (hlast : last.Within lower upper) (h : ∀ period ∈ periods, period.Within lower upper) :
    ∀ merged ∈ mergeInto last periods, merged.Within lower upper := by
  fun_induction mergeInto last periods with
  | case1 last => exact List.forall_mem_singleton.2 hlast
  | case2 last period rest hgap ih =>
    rw [List.forall_mem_cons] at h
    exact List.forall_mem_cons.2 ⟨hlast, ih h.1 h.2⟩
  | case3 last period rest htouch ih =>
    rw [List.forall_mem_cons] at h
    exact ih ⟨hlast.lower_le, lt_max_of_lt_left hlast.start_lt, max_le hlast.le_upper h.1.le_upper⟩ h.2

theorem start_le_of_mem_mergeInto (hstart : ∀ period ∈ periods, last.start ≤ period.start)
    (hsorted : periods.Pairwise fun a b => a.start ≤ b.start) :
    ∀ merged ∈ mergeInto last periods, last.start ≤ merged.start := by
  fun_induction mergeInto last periods with
  | case1 last => exact List.forall_mem_singleton.2 le_rfl
  | case2 last period rest hgap ih =>
    rw [List.pairwise_cons] at hsorted
    refine List.forall_mem_cons.2 ⟨le_rfl, fun merged hmerged => ?_⟩
    exact le_trans (hstart period List.mem_cons_self) (ih hsorted.1 hsorted.2 merged hmerged)
  | case3 last period rest htouch ih =>
    rw [List.pairwise_cons] at hsorted
    exact ih (fun later hlater => hstart later (List.mem_cons_of_mem _ hlater)) hsorted.2

theorem mergeInto_sorted (hstart : ∀ period ∈ periods, last.start ≤ period.start)
    (hsorted : periods.Pairwise fun a b => a.start ≤ b.start) :
    (mergeInto last periods).Pairwise fun a b => a.start ≤ b.start := by
  fun_induction mergeInto last periods with
  | case1 last => exact List.pairwise_singleton _ _
  | case2 last period rest hgap ih =>
    rw [List.pairwise_cons] at hsorted
    refine List.pairwise_cons.2 ⟨fun merged hmerged => ?_, ih hsorted.1 hsorted.2⟩
    exact le_trans (hstart period List.mem_cons_self)
      (start_le_of_mem_mergeInto hsorted.1 hsorted.2 merged hmerged)
  | case3 last period rest htouch ih =>
    rw [List.pairwise_cons] at hsorted
    exact ih (fun later hlater => hstart later (List.mem_cons_of_mem _ hlater)) hsorted.2

theorem mergeSorted_within (h : ∀ period ∈ periods, period.Within lower upper) :
    ∀ merged ∈ mergeSorted periods, merged.Within lower upper := by
  cases periods with
  | nil => exact h
  | cons period rest =>
    rw [List.forall_mem_cons] at h
    exact mergeInto_within h.1 h.2

theorem mergeSorted_sorted (hsorted : periods.Pairwise fun a b => a.start ≤ b.start) :
    (mergeSorted periods).Pairwise fun a b => a.start ≤ b.start := by
  cases periods with
  | nil => exact hsorted
  | cons period rest =>
    rw [List.pairwise_cons] at hsorted
    exact mergeInto_sorted hsorted.1 hsorted.2

end

/-! ### The first place -/

/-- The least member of a set of places, or nothing where the set is empty. -/
def IsFirst (places : Set T) : Option T → Prop
  | some place => IsLeast places place
  | none => places = ∅

section
variable {fits : T → T → Prop}

/-- What fits before a point fits before a later one, and fits there from an earlier place. -/
structure Fitting (fits : T → T → Prop) : Prop where
  later : ∀ {place point point'}, fits place point → point ≤ point' → fits place point'
  earlier : ∀ {place place' point}, fits place point → place' ≤ place → fits place' point
  /-- Nothing fits into no time. -/
  takes : ∀ place, ¬fits place place

/-- What is put at a place reaches into a period when it fits neither before it nor after it. -/
def Overlaps (fits : T → T → Prop) (place : T) (period : Period T) : Prop :=
  place < period.stop ∧ ¬fits place period.start

/-- A period is reached into at a point of it. -/
theorem overlaps_iff (hfits : Fitting fits) {place : T} {period : Period T} (h : period.start < period.stop) :
    Overlaps fits place period ↔ ∃ time, (place ≤ time ∧ ¬fits place time) ∧ period.Contains time := by
  constructor
  · rintro ⟨hlt, hnot⟩
    refine ⟨max place period.start, ⟨le_max_left _ _, ?_⟩, le_max_right _ _, max_lt hlt h⟩
    rcases max_choice place period.start with heq | heq <;> rw [heq]
    · exact hfits.takes place
    · exact hnot
  · rintro ⟨time, ⟨hle, hnot⟩, hstart, hstop⟩
    exact ⟨lt_of_le_of_lt hle hstop, fun hfit => hnot (hfits.later hfit hstart)⟩

end

section
variable (fits : T → T → Prop) [DecidableRel fits] (snap : T → T)

/-- A cursor that stays where it is while what comes next lies behind it, and is snapped past the end of a
period it would reach into. -/
def firstFit (finish : T) : List (Period T) → T → Option T
  | [], cursor => if fits cursor finish then some cursor else none
  | period :: rest, cursor =>
    if fits cursor period.start then some cursor
    else if cursor < period.stop then firstFit finish rest (snap period.stop)
    else firstFit finish rest cursor

variable {fits snap}

theorem firstFit_isFirst (hfits : Fitting fits) {places : Set T} {lower finish : T}
    (hsnap : ∀ time, lower ≤ time → IsLeast {place | place ∈ places ∧ time ≤ place} (snap time))
    (periods : List (Period T)) (hwithin : ∀ period ∈ periods, period.Within lower finish)
    (hsorted : periods.Pairwise fun a b => a.start ≤ b.start) {cursor : T} (hcursor : cursor ∈ places) :
    IsFirst {place | (place ∈ places ∧ cursor ≤ place) ∧ fits place finish ∧
      ∀ period ∈ periods, ¬Overlaps fits place period} (firstFit fits snap finish periods cursor) := by
  fun_induction firstFit fits snap finish periods cursor with
  | case1 cursor hfit => exact ⟨⟨⟨hcursor, le_rfl⟩, hfit, by simp⟩, fun place hplace => hplace.1.2⟩
  | case2 cursor hnot =>
    refine Set.eq_empty_iff_forall_notMem.2 fun place hplace => hnot ?_
    exact hfits.earlier hplace.2.1 hplace.1.2
  | case3 period rest cursor hfit =>
    rw [List.pairwise_cons] at hsorted
    have hperiod := hwithin period List.mem_cons_self
    refine ⟨⟨⟨hcursor, le_rfl⟩, ?_, ?_⟩, fun place hplace => hplace.1.2⟩
    · exact hfits.later hfit (le_trans hperiod.start_lt.le hperiod.le_upper)
    · refine List.forall_mem_cons.2 ⟨fun hover => hover.2 hfit, fun later hlater hover => hover.2 ?_⟩
      exact hfits.later hfit (hsorted.1 later hlater)
  | case4 period rest cursor hnot hlt ih =>
    rw [List.pairwise_cons] at hsorted
    rw [List.forall_mem_cons] at hwithin
    have hsnapped := hsnap period.stop (le_trans hwithin.1.lower_le hwithin.1.start_lt.le)
    have hih := ih hwithin.2 hsorted.2 hsnapped.1.1
    convert hih using 1
    ext place
    simp only [Set.mem_ofPred_eq, List.forall_mem_cons]
    constructor
    · rintro ⟨⟨hplace, hle⟩, hfinish, hfree, hrest⟩
      have hstop : period.stop ≤ place := by
        by_contra hlt'
        exact hfree ⟨not_le.1 hlt', fun hfit => hnot (hfits.earlier hfit hle)⟩
      exact ⟨⟨hplace, hsnapped.2 ⟨hplace, hstop⟩⟩, hfinish, hrest⟩
    · rintro ⟨⟨hplace, hle⟩, hfinish, hrest⟩
      have hstop : period.stop ≤ place := le_trans hsnapped.1.2 hle
      exact ⟨⟨hplace, le_trans hlt.le hstop⟩, hfinish, fun hover => absurd hover.1 (not_lt.2 hstop), hrest⟩
  | case5 period rest cursor hnot hge ih =>
    rw [List.pairwise_cons] at hsorted
    rw [List.forall_mem_cons] at hwithin
    have hih := ih hwithin.2 hsorted.2 hcursor
    convert hih using 1
    ext place
    simp only [Set.mem_ofPred_eq, List.forall_mem_cons]
    constructor
    · rintro ⟨hplace, hfinish, -, hrest⟩
      exact ⟨hplace, hfinish, hrest⟩
    · rintro ⟨hplace, hfinish, hrest⟩
      exact ⟨hplace, hfinish, fun hover => hge (lt_of_le_of_lt hplace.2 hover.1), hrest⟩

end

end Mindwtr.Lib
