import Mindwtr.Sync.MergeLoop
import Mindwtr.Entity.Comparison

/-!
# The merge does not depend on who calls itself local

Exchanging the two lists exchanges the sides of every pair. Each test of the cascade is symmetric or
changes sign (`comparableUpdatedTimeDiff_swap`, `resolveDeleteVsLiveWinner_swap`), so the winner is
the same version (`winnerSide_swap`), except where the cascade ends with two versions of one full
signature. The repair of `createdAt` is done once: a repaired version is not repaired again
(`normalizeTimestamps_normalizeTimestamps`).
-/

namespace Mindwtr.Sync

open Mindwtr.Js MergeableEntity

section
variable [Runtime] {α : Type} [MergeableEntity α]

/-! ### Repaired timestamps -/

theorem createdAfterUpdated_iff {item : α} :
    createdAfterUpdated item = true ↔ truthy (createdAt item) = true ∧ ∃ c u,
      dateTime (createdAt item) = some c ∧ dateTime (updatedAt item) = some u ∧ u < c := by
  unfold createdAfterUpdated
  rw [Bool.and_eq_true]
  refine and_congr_right fun _ => ?_
  cases hc : dateTime (createdAt item) with
  | none => simp
  | some c =>
    cases hu : dateTime (updatedAt item) with
    | none => simp
    | some u => simp

/-- A recovered `createdAt` is a date no later than the last update. -/
theorem recoverCreatedAt_le {item : α} {counterpart : Option α} {v : Json}
    (h : recoverCreatedAtFromCounterpart item counterpart = some v) :
    ∃ c u, dateTime (some v) = some c ∧ dateTime (updatedAt item) = some u ∧ c ≤ u := by
  unfold recoverCreatedAtFromCounterpart at h
  cases counterpart with
  | none => cases h
  | some other =>
    simp only at h
    split_ifs at h
    split at h
    · rename_i u c hu hc
      split_ifs at h with hcu
      rw [h] at hc
      exact ⟨c, u, hc, hu, not_lt.1 hcu⟩
    · cases h

theorem createdAfterUpdated_normalizeTimestamps (item : α) (counterpart : Option α) :
    createdAfterUpdated (normalizeTimestamps item counterpart) = false := by
  unfold normalizeTimestamps
  split
  · rw [← Bool.not_eq_true, createdAfterUpdated_iff]
    rintro ⟨-, c, u, hc, hu, hlt⟩
    rw [createdAt_setCreatedAt] at hc
    rw [updatedAt_setCreatedAt] at hu
    cases hr : recoverCreatedAtFromCounterpart item counterpart with
    | none =>
      rw [hr, Option.none_or, hu] at hc
      have := Option.some.inj hc
      omega
    | some v =>
      obtain ⟨c', u', hc', hu', hle⟩ := recoverCreatedAt_le hr
      rw [hr, Option.some_or, hc'] at hc
      rw [hu'] at hu
      have := Option.some.inj hc
      have := Option.some.inj hu
      omega
  · simpa using ‹¬createdAfterUpdated item = true›

/-- A version repaired once is not repaired again. -/
theorem normalizeTimestamps_normalizeTimestamps (item : α) (c d : Option α) :
    normalizeTimestamps (normalizeTimestamps item c) d = normalizeTimestamps item c := by
  rw [normalizeTimestamps, if_neg (by simp [createdAfterUpdated_normalizeTimestamps])]

/-! ### The tests of the cascade -/

omit [Runtime] in
theorem getMergeTimestampComparison_swap (a b : MergeTimestampInfo) :
    getMergeTimestampComparison b a = -getMergeTimestampComparison a b := by
  unfold getMergeTimestampComparison
  by_cases hsafe : b.safe - a.safe = 0
  · have hsafe' : a.safe - b.safe = 0 := by omega
    simp only [hsafe, hsafe', ne_eq, not_true_eq_false, if_false]
    by_cases hraw : a.wasClamped ∧ b.wasClamped ∧ b.raw ≠ a.raw
    · rw [if_pos hraw, if_pos ⟨hraw.2.1, hraw.1, hraw.2.2.symm⟩]
      omega
    · rw [if_neg hraw, if_neg fun h => hraw ⟨h.2.1, h.1, Ne.symm h.2.2⟩]
      rfl
  · have hsafe' : a.safe - b.safe ≠ 0 := by omega
    simp only [hsafe, hsafe', ne_eq, not_false_eq_true, if_true]
    omega

theorem comparableUpdatedTimeDiff_swap (now : Int) (l i : α) :
    comparableUpdatedTimeDiff now i l = -comparableUpdatedTimeDiff now l i :=
  getMergeTimestampComparison_swap _ _

theorem withinSkew_swap (now : Int) (l i : α) : withinSkew now i l = withinSkew now l i := by
  rw [withinSkew, withinSkew, abs_sub_comm]

omit [Runtime] in
theorem hasRevision_swap (l i : α) : hasRevision i l = hasRevision l i := by
  unfold hasRevision
  generalize decide (0 < revOf l) = a
  generalize decide (0 < revOf i) = b
  generalize (revByOf l != "") = c
  generalize (revByOf i != "") = d
  revert a b c d
  decide

theorem requiresStrictTimestampOrdering_swap (now : Int) (l i : α) :
    requiresStrictTimestampOrdering now i l = requiresStrictTimestampOrdering now l i := by
  unfold requiresStrictTimestampOrdering
  rw [comparableUpdatedTimeDiff_swap now l i]
  congr 1
  · rw [Bool.eq_iff_iff]
    simp
  · generalize decide ((updatedTime now l).raw < 0) = a
    generalize decide ((updatedTime now i).raw < 0) = b
    generalize (updatedTime now l).wasClamped = c
    generalize (updatedTime now i).wasClamped = d
    revert a b c d
    decide

omit [Runtime] in
theorem byRevDiff_swap {l i : α} (h : revOf l - revOf i ≠ 0) : byRevDiff i l = (byRevDiff l i).swap := by
  unfold byRevDiff
  rcases lt_or_gt_of_ne h with hlt | hgt
  · rw [if_pos (by linarith), if_neg (by linarith)]; rfl
  · rw [if_neg (by linarith), if_pos hgt]; rfl

omit [Runtime] in
theorem byTimeDiff_swap {d : Int} (h : d ≠ 0) : byTimeDiff (-d) = (byTimeDiff d).swap := by
  unfold byTimeDiff
  rcases lt_or_gt_of_ne h with hlt | hgt
  · rw [if_pos (by omega), if_neg (by omega)]; rfl
  · rw [if_neg (by omega), if_pos hgt]; rfl

theorem operationDiff_swap (now : Int) (l i : α) : operationDiff now i l = -operationDiff now l i := by
  unfold operationDiff
  omega

/-- Of a deleted and a live version only one can be a restore candidate. -/
theorem restoredSide_swap (now : Int) {l i : α} (h : isDeleted l ≠ isDeleted i) :
    restoredSide now i l = (restoredSide now l i).map Side.swap := by
  unfold restoredSide
  by_cases hl : isBackupRestoreLiveCandidate l
  · have hi : isBackupRestoreLiveCandidate i = false := by
      unfold isBackupRestoreLiveCandidate at hl ⊢
      cases hdl : isDeleted l <;> cases hdi : isDeleted i <;> simp_all
    simp only [hl, hi, Bool.false_eq_true, if_true, if_false]
    split <;> rfl
  · simp only [hl, Bool.false_eq_true, if_false]
    split
    · split <;> rfl
    · rfl

theorem preferLiveCandidate_swap {l i : α} (h : isDeleted l ≠ isDeleted i) :
    preferLiveCandidate i l = (preferLiveCandidate l i).swap := by
  unfold preferLiveCandidate
  cases hl : isDeleted l <;> cases hi : isDeleted i <;> simp_all

theorem preferDeletedCandidate_swap {l i : α} (h : isDeleted l ≠ isDeleted i) :
    preferDeletedCandidate i l = (preferDeletedCandidate l i).swap := by
  unfold preferDeletedCandidate
  cases hl : isDeleted l <;> cases hi : isDeleted i <;> simp_all

theorem resolveDeleteVsLiveWinner_swap (now : Int) {l i : α} (h : isDeleted l ≠ isDeleted i) :
    (resolveDeleteVsLiveWinner now i l).winner = (resolveDeleteVsLiveWinner now l i).winner.swap := by
  unfold resolveDeleteVsLiveWinner
  simp only [restoredSide_swap now h, operationDiff_swap now l i, abs_neg, hasRevision_swap l i]
  have hrev : (revOf i - revOf l ≠ 0) ↔ (revOf l - revOf i ≠ 0) := by
    rw [← neg_sub, neg_ne_zero]
  simp only [hrev]
  cases restoredSide now l i with
  | some side => rfl
  | none =>
    simp only [Option.map_none]
    by_cases hwindow : |operationDiff now l i| ≤ deleteVsLiveAmbiguousWindowMs
    · rw [if_pos hwindow, if_pos hwindow]
      by_cases hrevs : hasRevision l i = true ∧ revOf l - revOf i ≠ 0
      · rw [if_pos hrevs, if_pos hrevs]
        exact byRevDiff_swap hrevs.2
      · rw [if_neg hrevs, if_neg hrevs]
        split
        · exact preferLiveCandidate_swap h
        · exact preferDeletedCandidate_swap h
    · -- outside the window the difference is not zero, and the later operation wins
      have hne : operationDiff now l i ≠ 0 := by
        intro h0
        rw [h0] at hwindow
        exact hwindow (by decide)
      rw [if_neg hwindow, if_neg hwindow]
      rcases lt_or_gt_of_ne hne with hlt | hgt
      · rw [if_pos (by omega), if_neg (by omega), if_pos hlt]; rfl
      · rw [if_neg (by omega), if_pos (by omega), if_pos hgt]; rfl

/-- **Either order of the arguments chooses the same version**, or one of two versions with the
same full signature. -/
theorem winnerSide_swap (now : Int) {l i : α} (hl : HasSignature (record l))
    (hi : HasSignature (record i)) :
    winnerSide now i l = (winnerSide now l i).swap ∨ fullSignature l = fullSignature i := by
  have hchoose : chooseDeterministic i l = (chooseDeterministic l i).swap ∨
      fullSignature l = fullSignature i := chooseDeterministicWinner_swap hl hi
  unfold winnerSide
  simp only [comparableUpdatedTimeDiff_swap now l i, withinSkew_swap now l i, hasRevision_swap l i,
    requiresStrictTimestampOrdering_swap now l i]
  by_cases hdel : isDeleted l = isDeleted i
  · simp only [hdel, ne_eq, not_true_eq_false, if_false]
    by_cases hrev : hasRevision l i = true
    · simp only [if_pos hrev]
      by_cases hrevs : revOf l - revOf i = 0
      · have hrevs' : revOf i - revOf l = 0 := by linarith
        simp only [hrevs, hrevs', not_true_eq_false, if_false]
        by_cases htime : comparableUpdatedTimeDiff now l i = 0
        · simp only [htime, neg_zero, not_true_eq_false, if_false]
          by_cases hby : revByOf l ≠ revByOf i ∧ revByOf l ≠ "" ∧ revByOf i ≠ ""
          · refine .inl ?_
            have hby' : revByOf i ≠ revByOf l ∧ revByOf i ≠ "" ∧ revByOf l ≠ "" :=
              ⟨hby.1.symm, hby.2.2, hby.2.1⟩
            simp only [ne_eq] at hby hby'
            rw [if_pos hby, if_pos hby', jsLt_of_ne hby.1]
            cases jsLt (revByOf l) (revByOf i) <;> rfl
          · have hby' : ¬(revByOf i ≠ revByOf l ∧ revByOf i ≠ "" ∧ revByOf l ≠ "") :=
              fun h => hby ⟨h.1.symm, h.2.2, h.2.1⟩
            simp only [ne_eq] at hby hby'
            rw [if_neg hby, if_neg hby']
            exact hchoose
        · simp only [htime, neg_eq_zero, not_false_eq_true, if_true]
          exact .inl (byTimeDiff_swap htime)
      · have hrevs' : ¬revOf i - revOf l = 0 := fun h => hrevs (by linarith)
        simp only [hrevs, hrevs', not_false_eq_true, if_true]
        exact .inl (byRevDiff_swap hrevs)
    · simp only [if_neg hrev]
      by_cases hstrict : requiresStrictTimestampOrdering now l i = true
      · simp only [if_pos hstrict]
        refine .inl (byTimeDiff_swap ?_)
        unfold requiresStrictTimestampOrdering at hstrict
        simp only [Bool.and_eq_true, bne_iff_ne, ne_eq] at hstrict
        exact hstrict.1
      · simp only [if_neg hstrict]
        by_cases hskew : withinSkew now l i = true
        · simp only [if_pos hskew]
          exact hchoose
        · simp only [if_neg hskew]
          by_cases htime : comparableUpdatedTimeDiff now l i = 0
          · simp only [htime, neg_zero, not_true_eq_false, if_false]
            exact hchoose
          · simp only [htime, neg_eq_zero, not_false_eq_true, if_true]
            exact .inl (byTimeDiff_swap htime)
  · simp only [hdel, Ne.symm hdel, ne_eq, not_false_eq_true, if_true]
    exact .inl (resolveDeleteVsLiveWinner_swap now hdel)

/-! ### The merged lists -/

theorem mergedPair_of_none {opts : MergeOptions α} (hopts : opts.mergeConflict = none) (l i : α) :
    mergedPair opts l i = .ok ((winnerSide opts.now (normalizeTimestamps l (some i))
      (normalizeTimestamps i (some l))).pick (normalizeTimestamps l (some i))
      (normalizeTimestamps i (some l))) := by
  have hpick : ∀ s : Side, normalizeTimestamps (s.pick (normalizeTimestamps l (some i))
      (normalizeTimestamps i (some l))) none =
      s.pick (normalizeTimestamps l (some i)) (normalizeTimestamps i (some l)) := by
    intro s
    cases s <;> simp [normalizeTimestamps_normalizeTimestamps]
  simp only [mergedPair, repairedPair, resolvedPair, hopts]
  show Except.ok (normalizeTimestamps _ none) = _
  rw [hpick]

theorem mergedPair_swap {opts : MergeOptions α} (hopts : opts.mergeConflict = none) {l i a b : α}
    (hl : isBlank (entityId l) = false) (hi : isBlank (entityId i) = false)
    (ha : mergedPair opts l i = .ok a) (hb : mergedPair opts i l = .ok b) :
    fullSignature a = fullSignature b := by
  rw [mergedPair_of_none hopts] at ha hb
  obtain rfl := Except.ok.inj ha
  obtain rfl := Except.ok.inj hb
  have hsig : ∀ (x : α) (c : Option α), isBlank (entityId x) = false →
      HasSignature (record (normalizeTimestamps x c)) :=
    fun x c hx => hasSignature_record (by rwa [entityId_normalizeTimestamps])
  rcases winnerSide_swap opts.now (hsig l (some i) hl) (hsig i (some l) hi) with h | h
  · rw [h, Side.pick_swap]
  · -- both versions carry the signature, whichever was chosen
    have hboth : ∀ s : Side, fullSignature (s.pick (normalizeTimestamps l (some i))
        (normalizeTimestamps i (some l))) = fullSignature (normalizeTimestamps l (some i)) := by
      intro s
      cases s <;> simp [h]
    rw [hboth, ← Side.pick_swap, hboth]

theorem entryOf_swap {opts : MergeOptions α} (hopts : opts.mergeConflict = none) {L I : List α}
    (hL : ∀ item ∈ L, isBlank (entityId item) = false)
    (hI : ∀ item ∈ I, isBlank (entityId item) = false) {key : String} {a b : α}
    (ha : EntryOf opts L I key (some a)) (hb : EntryOf opts I L key (some b)) :
    fullSignature a = fullSignature b := by
  unfold EntryOf mergedEntry at ha hb
  cases hl : (JsMap.ofItems entityId L).get? key with
  | none =>
    cases hi : (JsMap.ofItems entityId I).get? key with
    | none => rw [hl, hi] at ha; cases ha
    | some i => rw [hl, hi] at ha hb; cases ha; cases hb; rfl
  | some l =>
    cases hi : (JsMap.ofItems entityId I).get? key with
    | none => rw [hl, hi] at ha hb; cases ha; cases hb; rfl
    | some i =>
      simp only [hl, hi] at ha hb
      obtain ⟨a', ha', ha⟩ := map_eq_ok ha
      obtain ⟨b', hb', hb⟩ := map_eq_ok hb
      obtain rfl := Option.some.inj ha
      obtain rfl := Option.some.inj hb
      exact mergedPair_swap hopts (hL l (JsMap.mem_of_get?_ofItems hl).1)
        (hI i (JsMap.mem_of_get?_ofItems hi).1) ha' hb'

omit [Runtime] in
theorem keepsId_of_none {opts : MergeOptions α} (hopts : opts.mergeConflict = none) :
    opts.KeepsId := by
  intro f hf
  rw [hopts] at hf
  cases hf

omit [Runtime] in
theorem total_of_none {opts : MergeOptions α} (hopts : opts.mergeConflict = none) : opts.Total := by
  intro f hf
  rw [hopts] at hf
  cases hf

/-- The merged list has exactly the ids of both lists, each once. -/
theorem merged_ids {opts : MergeOptions α} (hopts : opts.KeepsId) {L I : List α} {out : MergeState α}
    (hL : (L.map entityId).Nodup) (hI : (I.map entityId).Nodup)
    (h : mergeEntitiesWithStats opts L I = .ok out) :
    (out.merged.map entityId).Nodup ∧
      ∀ key, key ∈ out.merged.map entityId ↔ key ∈ L.map entityId ∨ key ∈ I.map entityId := by
  rw [map_entityId_merged hopts h]
  refine ⟨JsMap.nodup_unionKeys _ _, fun key => ?_⟩
  rw [visitedKeys, JsMap.mem_unionKeys, JsMap.keys_ofItems hL, JsMap.keys_ofItems hI]

/-- **The merge is commutative up to the full signature**, for entities whose ids are not blank. -/
theorem mergeEntitiesWithStats_comm (opts : MergeOptions α) (hopts : opts.mergeConflict = none)
    {L I : List α} (hLnodup : (L.map entityId).Nodup) (hInodup : (I.map entityId).Nodup)
    (hL : ∀ item ∈ L, isBlank (entityId item) = false)
    (hI : ∀ item ∈ I, isBlank (entityId item) = false) :
    ∃ m₁ m₂, mergeEntitiesWithStats opts L I = .ok m₁ ∧ mergeEntitiesWithStats opts I L = .ok m₂ ∧
      (m₁.merged.map entityId).Nodup ∧ (m₂.merged.map entityId).Nodup ∧
      (∀ key, key ∈ m₁.merged.map entityId ↔ key ∈ L.map entityId ∨ key ∈ I.map entityId) ∧
      (∀ key, key ∈ m₂.merged.map entityId ↔ key ∈ L.map entityId ∨ key ∈ I.map entityId) ∧
      ∀ a ∈ m₁.merged, ∀ b ∈ m₂.merged, entityId a = entityId b → fullSignature a = fullSignature b := by
  have hkeeps := keepsId_of_none hopts
  obtain ⟨m₁, h₁⟩ := mergeEntitiesWithStats_ok (total_of_none hopts) hL hI
  obtain ⟨m₂, h₂⟩ := mergeEntitiesWithStats_ok (total_of_none hopts) hI hL
  obtain ⟨hnodup₁, hids₁⟩ := merged_ids hkeeps hLnodup hInodup h₁
  obtain ⟨hnodup₂, hids₂⟩ := merged_ids hkeeps hInodup hLnodup h₂
  refine ⟨m₁, m₂, h₁, h₂, hnodup₁, hnodup₂, hids₁, fun key => (hids₂ key).trans or_comm, ?_⟩
  intro a ha b hb hab
  obtain ⟨key, hkey⟩ := entryOf_of_mem h₁ ha
  obtain ⟨key', hkey'⟩ := entryOf_of_mem h₂ hb
  obtain rfl : key = key' := by
    rw [← entityId_of_entryOf hkeeps hkey, ← entityId_of_entryOf hkeeps hkey', hab]
  exact entryOf_swap hopts hL hI hkey hkey'

end

/-! ### Blank ids -/

section blank
attribute [local instance] isoRuntime

/-- A section whose comparable fields are all blank has no plain signature. -/
def blankSection : Section :=
  { id := ""
    projectId := some (.str "")
    title := some (.str "")
    order := some (.num 0)
    createdAt := some (.str "2026-01-01T00:00:00.000Z")
    updatedAt := some (.str "2026-01-01T00:00:00.000Z") }

def blankOpenSection : Section := { blankSection with isCollapsed := some (.bool false) }

def sectionMergeOptions : MergeOptions Section :=
  { normalizeForComparison := some normalizeSectionForContentComparison
    nowIso := some "2026-01-02T00:00:00.000Z"
    dateNow := 0 }

/-- Against a section that does have a signature neither is the greater, so each side keeps its own
version. -/
theorem blank_id_not_comm :
    (mergeEntitiesWithStats sectionMergeOptions [blankSection] [blankOpenSection]).map (·.merged) =
        .ok [blankSection] ∧
      (mergeEntitiesWithStats sectionMergeOptions [blankOpenSection] [blankSection]).map (·.merged) =
        .ok [blankOpenSection] ∧
      entityId blankSection = entityId blankOpenSection ∧
      fullSignature blankSection ≠ fullSignature blankOpenSection := by
  decide

theorem mergeEntitiesWithStats_comm_sections :
    let l : Section := { blankSection with id := "s1" }
    let i : Section := { blankOpenSection with id := "s1" }
    ∃ m₁ m₂, mergeEntitiesWithStats sectionMergeOptions [l] [i] = .ok m₁ ∧
      mergeEntitiesWithStats sectionMergeOptions [i] [l] = .ok m₂ ∧
      ∀ a ∈ m₁.merged, ∀ b ∈ m₂.merged, entityId a = entityId b → fullSignature a = fullSignature b := by
  obtain ⟨m₁, m₂, h₁, h₂, -, -, -, -, h⟩ := mergeEntitiesWithStats_comm sectionMergeOptions rfl
    (L := [{ blankSection with id := "s1" }]) (I := [{ blankOpenSection with id := "s1" }])
    (by decide) (by decide) (by decide) (by decide)
  exact ⟨m₁, m₂, h₁, h₂, h⟩

end blank

end Mindwtr.Sync
