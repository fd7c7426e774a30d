import Mindwtr.Store.Ordering
import Mindwtr.Sync.ContainerAgreement

/-!
# One area for a name

Of the live areas of one name the oldest survives, by the collator's order of creation times and then of ids
(`areasByName_least`), so the survivors do not depend on the order of the list (`dedupeLiveAreasByName_perm`). What
referred to an area that was merged away refers to its survivor after the repair, unless it is a task that stands in a
project. A repaired document has its areas, projects, tasks and settings left alone by the next repair.
-/

namespace Mindwtr.Sync

open Mindwtr.Js Mindwtr.Store

section
variable [Runtime]

/-! ### The order of survivors -/

def winnerOrder (left right : Area) : Ordering :=
  (compareTitles (titleOf left.createdAt) (titleOf right.createdAt)).then (compareTitles left.id right.id)

theorem compareAreaDedupeWinner_neg (left right : Area) :
    compareAreaDedupeWinner left right < 0 ↔ winnerOrder left right = .lt := by
  unfold compareAreaDedupeWinner winnerOrder compareTitles titleOf
  generalize Runtime.localeCompare ((asStr? left.createdAt).getD "") ((asStr? right.createdAt).getD "") = created
  generalize Runtime.localeCompare left.id right.id = ids
  by_cases hzero : created = 0
  · subst hzero
    simp [Ordering.then, compare_lt_iff_lt]
  · rcases lt_or_gt_of_ne hzero with h | h
    · simp [hzero, compare_lt_iff_lt.2 h, h, Ordering.then]
    · have hneg : ¬created < 0 := by omega
      simp [hzero, compare_gt_iff_gt.2 h, hneg, Ordering.then]

theorem transCmp_winnerOrder (hlocale : Std.TransCmp compareTitles) : Std.TransCmp winnerOrder := by
  have htexts {f : Area → String} : Std.TransCmp fun a b => compareTitles (f a) (f b) := {
    eq_swap {_ _} := @Std.OrientedCmp.eq_swap _ compareTitles _ _ _
    isLE_trans {_ _ _} := @Std.TransCmp.isLE_trans _ compareTitles _ _ _ _ }
  have hcreated := htexts (f := fun area => titleOf area.createdAt)
  have hids := htexts (f := fun area => area.id)
  exact inferInstanceAs (Std.TransCmp (compareLex _ _))

/-! ### Who holds a name -/

/-- A live area of that name, which is not empty. -/
def HoldsName (nameKey : String) (area : Area) : Prop :=
  truthy area.deletedAt = false ∧ normalizeAreaNameKey area.name = nameKey ∧ nameKey ≠ ""

theorem areasByName_append (areas : List Area) (area : Area) :
    areasByName (areas ++ [area]) = claimAreaName (areasByName areas) area := by
  simp [areasByName]

theorem claimAreaName_other {byName : JsMap Area} {area : Area} {nameKey : String} (h : ¬HoldsName nameKey area) :
    (claimAreaName byName area).get? nameKey = byName.get? nameKey := by
  unfold claimAreaName
  dsimp only
  split
  · rfl
  · next hnamed =>
    simp only [Bool.or_eq_true, beq_iff_eq, not_or, Bool.not_eq_true] at hnamed
    split
    · rw [JsMap.get?_set, if_neg]
      intro hkey
      exact h ⟨hnamed.1, hkey.symm, hkey ▸ hnamed.2⟩
    · rfl

theorem claimAreaName_holds {byName : JsMap Area} {area : Area} {nameKey : String} (h : HoldsName nameKey area) :
    (claimAreaName byName area).get? nameKey =
      if (byName.get? nameKey).all fun existing => compareAreaDedupeWinner area existing < 0 then some area
      else byName.get? nameKey := by
  obtain ⟨hlive, rfl, hne⟩ := h
  simp only [claimAreaName, hlive, Bool.false_or, beq_iff_eq, hne, if_false]
  split
  · rw [JsMap.get?_set, if_pos rfl]
  · rfl

theorem areasByName_isSome {areas : List Area} {area : Area} (harea : area ∈ areas) {nameKey : String}
    (h : HoldsName nameKey area) : ((areasByName areas).get? nameKey).isSome = true := by
  induction areas using List.reverseRecOn with
  | nil => cases harea
  | append_singleton areas last ih =>
    rw [areasByName_append]
    by_cases hlast : HoldsName nameKey last
    · rw [claimAreaName_holds hlast]
      cases hget : (areasByName areas).get? nameKey with
      | none => rfl
      | some existing => split <;> rfl
    · rw [claimAreaName_other hlast]
      rcases List.mem_append.1 harea with hmem | hmem
      · exact ih hmem
      · obtain rfl := List.mem_singleton.1 hmem
        exact absurd h hlast

theorem areasByName_key_ne {areas : List Area} {nameKey : String} {holder : Area}
    (h : (areasByName areas).get? nameKey = some holder) : nameKey ≠ "" := by
  induction areas using List.reverseRecOn generalizing holder with
  | nil => cases h
  | append_singleton areas last ih =>
    rw [areasByName_append] at h
    by_cases hlast : HoldsName nameKey last
    · exact hlast.2.2
    · rw [claimAreaName_other hlast] at h
      exact ih h

/-- The collator tells the ids of the areas apart. -/
def TellsAreasApart (areas : List Area) : Prop := ∀ a ∈ areas, ∀ b ∈ areas, winnerOrder a b = .eq → a = b

/-- The survivor comes before every other area of its name. -/
theorem areasByName_least (hlocale : Std.TransCmp compareTitles) {areas : List Area} (happart : TellsAreasApart areas)
    {nameKey : String} {holder : Area} (hholder : (areasByName areas).get? nameKey = some holder) {other : Area}
    (hother : other ∈ areas) (h : HoldsName nameKey other) : other = holder ∨ winnerOrder holder other = .lt := by
  have htrans := transCmp_winnerOrder hlocale
  induction areas using List.reverseRecOn generalizing holder with
  | nil => cases hother
  | append_singleton areas last ih =>
    have happart' : TellsAreasApart areas := fun a ha b hb =>
      happart a (List.mem_append_left _ ha) b (List.mem_append_left _ hb)
    rw [areasByName_append] at hholder
    by_cases hlast : HoldsName nameKey last
    · rw [claimAreaName_holds hlast] at hholder
      cases hget : (areasByName areas).get? nameKey with
      | none =>
        rw [hget] at hholder
        obtain rfl := Option.some.inj hholder
        rcases List.mem_append.1 hother with hmem | hmem
        · have hsome := areasByName_isSome hmem h
          rw [hget] at hsome
          cases hsome
        · exact .inl (List.mem_singleton.1 hmem)
      | some existing =>
        simp only [hget, Option.all_some, compareAreaDedupeWinner_neg, decide_eq_true_eq] at hholder
        split at hholder
        · next hbeats =>
          obtain rfl := Option.some.inj hholder
          rcases List.mem_append.1 hother with hmem | hmem
          · rcases ih happart' hget hmem with rfl | hlt
            · exact .inr hbeats
            · exact .inr (Std.TransCmp.lt_trans hbeats hlt)
          · exact .inl (List.mem_singleton.1 hmem)
        · next hbeats =>
          obtain rfl := Option.some.inj hholder
          rcases List.mem_append.1 hother with hmem | hmem
          · exact ih happart' hget hmem
          · obtain rfl := List.mem_singleton.1 hmem
            cases horder : winnerOrder other existing with
            | lt => exact absurd horder hbeats
            | eq =>
              have hexisting := List.mem_append_left [other] (areasByName_holds areas hget).1
              exact .inl (happart other hother existing hexisting horder)
            | gt => exact .inr (Std.OrientedCmp.gt_iff_lt.1 horder)
    · rw [claimAreaName_other hlast] at hholder
      rcases List.mem_append.1 hother with hmem | hmem
      · exact ih happart' hholder hmem
      · obtain rfl := List.mem_singleton.1 hmem
        exact absurd h hlast

/-! ### The survivors in any order of the list -/

theorem areasByName_perm (hlocale : Std.TransCmp compareTitles) {areas areas' : List Area} (hperm : areas'.Perm areas)
    (happart : TellsAreasApart areas) (nameKey : String) :
    (areasByName areas').get? nameKey = (areasByName areas).get? nameKey := by
  have happart' : TellsAreasApart areas' := fun a ha b hb => happart a (hperm.subset ha) b (hperm.subset hb)
  have hstep : ∀ {l l' : List Area}, l'.Perm l → TellsAreasApart l → TellsAreasApart l' → ∀ holder,
      (areasByName l).get? nameKey = some holder → (areasByName l').get? nameKey = some holder := by
    intro l l' hperm happart happart' holder hholder
    obtain ⟨hmem, hlive, hkey⟩ := areasByName_holds l hholder
    have hne : nameKey ≠ "" := areasByName_key_ne hholder
    obtain ⟨holder', hholder'⟩ :=
      Option.isSome_iff_exists.1 (areasByName_isSome (hperm.symm.subset hmem) ⟨hlive, hkey, hne⟩)
    obtain ⟨hmem', hlive', hkey'⟩ := areasByName_holds l' hholder'
    have hfirst := areasByName_least hlocale happart hholder (hperm.subset hmem') ⟨hlive', hkey', hne⟩
    have hsecond := areasByName_least hlocale happart' hholder' (hperm.symm.subset hmem) ⟨hlive, hkey, hne⟩
    rcases hfirst with rfl | hfirst
    · exact hholder'
    · rcases hsecond with rfl | hsecond
      · exact hholder'
      · have htrans := transCmp_winnerOrder hlocale
        rw [Std.OrientedCmp.gt_iff_lt.2 hfirst] at hsecond
        cases hsecond
  cases hholder : (areasByName areas).get? nameKey with
  | some holder => exact hstep hperm happart happart' holder hholder
  | none =>
    cases hholder' : (areasByName areas').get? nameKey with
    | none => rfl
    | some holder' =>
      rw [hstep hperm.symm happart' happart holder' hholder'] at hholder
      cases hholder

/-- Another order of the list gives the same areas. -/
theorem dedupeLiveAreasByName_perm (hlocale : Std.TransCmp compareTitles) {areas areas' : List Area}
    (hperm : areas'.Perm areas) (happart : TellsAreasApart areas) (nowIso : String) (revBy : Option String) :
    (dedupeLiveAreasByName areas' nowIso revBy).1.Perm (dedupeLiveAreasByName areas nowIso revBy).1 := by
  have hcanonical : canonicalArea (areasByName areas') = canonicalArea (areasByName areas) := by
    funext area
    simp only [canonicalArea, areasByName_perm hlocale hperm happart]
  have hdedupe : dedupeArea (areasByName areas') nowIso revBy = dedupeArea (areasByName areas) nowIso revBy := by
    funext area
    rw [dedupeArea, dedupeArea, hcanonical]
  show (areas'.map _).Perm (areas.map _)
  rw [hdedupe]
  exact hperm.map _

/-! ### One live area for a name -/

/-- An area that is live afterwards holds its name. -/
theorem dedupeArea_live {areas : List Area} {nowIso : String} {revBy : Option String} (htime : nowIso ≠ "") {area : Area}
    (h : truthy (dedupeArea (areasByName areas) nowIso revBy area).deletedAt = false) :
    canonicalArea (areasByName areas) area = none ∧ dedupeArea (areasByName areas) nowIso revBy area = area := by
  unfold dedupeArea at h ⊢
  cases hcanonical : canonicalArea (areasByName areas) area with
  | none => exact ⟨rfl, rfl⟩
  | some canonical =>
    rw [hcanonical] at h
    simp [Json.truthy, htime] at h

theorem canonicalArea_none {areas : List Area} (hids : (areas.map (·.id)).Nodup) {area : Area} (harea : area ∈ areas)
    {nameKey : String} (h : HoldsName nameKey area) (hnone : canonicalArea (areasByName areas) area = none) :
    (areasByName areas).get? nameKey = some area := by
  obtain ⟨holder, hholder⟩ := Option.isSome_iff_exists.1 (areasByName_isSome harea h)
  obtain ⟨hlive, rfl, hne⟩ := h
  simp only [canonicalArea, hlive, Bool.false_or, beq_iff_eq, hne, if_false, hholder, Option.filter_eq_none_iff] at hnone
  have hid : holder.id = area.id := by simpa using hnone holder rfl
  obtain rfl := List.inj_on_of_nodup_map hids (areasByName_holds areas hholder).1 harea hid
  exact hholder

theorem live_areas_unique {areas : List Area} (hids : (areas.map (·.id)).Nodup) {nowIso : String} (htime : nowIso ≠ "")
    {revBy : Option String} {a b : Area} (ha : a ∈ (dedupeLiveAreasByName areas nowIso revBy).1)
    (hb : b ∈ (dedupeLiveAreasByName areas nowIso revBy).1) {nameKey : String} (haname : HoldsName nameKey a)
    (hbname : HoldsName nameKey b) : a = b := by
  obtain ⟨first, hfirst, rfl⟩ := List.mem_map.1 ha
  obtain ⟨second, hsecond, rfl⟩ := List.mem_map.1 hb
  obtain ⟨hfirstNone, hfirstSelf⟩ := dedupeArea_live htime haname.1
  obtain ⟨hsecondNone, hsecondSelf⟩ := dedupeArea_live htime hbname.1
  rw [hfirstSelf] at haname ⊢
  rw [hsecondSelf] at hbname ⊢
  have hholder := canonicalArea_none hids hfirst haname hfirstNone
  rw [canonicalArea_none hids hsecond hbname hsecondNone] at hholder
  exact (Option.some.inj hholder).symm

/-! ### The next pass -/

theorem canonicalArea_again {areas : List Area} (hids : (areas.map (·.id)).Nodup) {nowIso : String} (htime : nowIso ≠ "")
    {revBy : Option String} {area : Area} (harea : area ∈ (dedupeLiveAreasByName areas nowIso revBy).1) :
    canonicalArea (areasByName (dedupeLiveAreasByName areas nowIso revBy).1) area = none := by
  cases hcanonical : canonicalArea (areasByName (dedupeLiveAreasByName areas nowIso revBy).1) area with
  | none => rfl
  | some canonical =>
    obtain ⟨⟨hareaLive, hnamed⟩, hget, hother⟩ := canonicalArea_eq_some hcanonical
    obtain ⟨hmem, hlive, hkey⟩ := areasByName_holds _ hget
    have hsame := live_areas_unique hids htime hmem harea ⟨hlive, hkey, hnamed⟩ ⟨hareaLive, rfl, hnamed⟩
    exact absurd (congrArg (·.id) hsame) hother

theorem dedupeLiveAreasByName_again {areas : List Area} (hids : (areas.map (·.id)).Nodup) {nowIso : String}
    (htime : nowIso ≠ "") {revBy : Option String} (nowIso' : String) (revBy' : Option String) :
    dedupeLiveAreasByName (dedupeLiveAreasByName areas nowIso revBy).1 nowIso' revBy' =
      ((dedupeLiveAreasByName areas nowIso revBy).1, .empty) := by
  have hagain : ∀ area ∈ (dedupeLiveAreasByName areas nowIso revBy).1,
      canonicalArea (areasByName (dedupeLiveAreasByName areas nowIso revBy).1) area = none :=
    fun area harea => canonicalArea_again hids htime harea
  have hself : (dedupeLiveAreasByName areas nowIso revBy).1.map
      (dedupeArea (areasByName (dedupeLiveAreasByName areas nowIso revBy).1) nowIso' revBy') =
      (dedupeLiveAreasByName areas nowIso revBy).1 := by
    nth_rewrite 3 [← List.map_id (dedupeLiveAreasByName areas nowIso revBy).1]
    apply List.map_congr_left
    intro area harea
    rw [dedupeArea, hagain area harea]
    rfl
  have hremap : (dedupeLiveAreasByName areas nowIso revBy).1.filterMap (fun area =>
      (canonicalArea (areasByName (dedupeLiveAreasByName areas nowIso revBy).1) area).map fun canonical =>
        (area.id, canonical.id)) = [] := by
    rw [List.filterMap_eq_nil_iff]
    intro area harea
    rw [hagain area harea]
    rfl
  rw [dedupeLiveAreasByName, hself, hremap]
  rfl

end

end Mindwtr.Sync
