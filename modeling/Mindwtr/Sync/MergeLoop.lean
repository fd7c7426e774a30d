import Mindwtr.Sync.MergeStats

/-!
# The merge loop

`mergeEntitiesWithStats` itself: both lists become maps keyed by id, and the loop visits the union
of the keys, local ones first. `merged_eq` reads the list it builds as one map over the visited ids,
`mergeEntitiesWithStats_ok` says that it returns wherever the ids are not blank, and
`mem_merged_iff` gives the result for lists of distinct ids with no mention of the loop.
-/

namespace Mindwtr.Sync

open Mindwtr.Js MergeableEntity

section defs
variable [Runtime] {α : Type} [MergeableEntity α]

namespace EntityMergeStats

/-- The counters `normalizeTimestamps` keeps. -/
def countTimestamps (stats : EntityMergeStats) (item : α) : EntityMergeStats :=
  if createdAfterUpdated item then
    { stats with
      timestampAdjustments := stats.timestampAdjustments + 1
      timestampAdjustmentIds :=
        if entityId item = "" then stats.timestampAdjustmentIds
        else pushUpTo 20 stats.timestampAdjustmentIds (entityId item) }
  else stats

def countClamps (stats : EntityMergeStats) (now : Int) (key : String) (l i : α) : EntityMergeStats :=
  let localClamped := (updatedTime now l).wasClamped
  let incomingClamped := (updatedTime now i).wasClamped
  if localClamped || incomingClamped then
    { stats with
      futureTimestampClamps := stats.futureTimestampClamps + localClamped.toNat + incomingClamped.toNat
      futureTimestampClampIds := pushUpTo 20 stats.futureTimestampClampIds key }
  else stats

def countConflict (stats : EntityMergeStats) (now : Int) (key : String)
    (reasons : List ConflictReason) (l i : α) : EntityMergeStats :=
  let safeTimeDiff := (updatedTime now i).safe - (updatedTime now l).safe
  let stats := { stats with
    conflicts := stats.conflicts + 1
    conflictIds := pushUpTo 20 stats.conflictIds key
    conflictReasonCounts := reasons.foldl (fun counts r => countReason r counts) stats.conflictReasonCounts }
  if |safeTimeDiff| > stats.maxClockSkewMs then
    { stats with
      maxClockSkewMs := |safeTimeDiff|
      maxClockSkewDirection := some (if safeTimeDiff ≥ 0 then .remoteAhead else .localAhead) }
  else stats

/-- A deletion against a live version counts every `deletedAt` that is not a date. -/
def countInvalidDeletedAt (stats : EntityMergeStats) (l i : α) : EntityMergeStats :=
  let invalid (item : α) : Nat :=
    if isDeleted item ∧ dateTime (deletedAt item) = none then 1 else 0
  if isDeleted l ≠ isDeleted i then
    { stats with invalidTimestamps := stats.invalidTimestamps + invalid l + invalid i }
  else stats

def countWinner (stats : EntityMergeStats) (side : Side) : EntityMergeStats :=
  match side with
  | .incomingItem => { stats with resolvedUsingIncoming := stats.resolvedUsingIncoming + 1 }
  | .localItem => { stats with resolvedUsingLocal := stats.resolvedUsingLocal + 1 }

def countDeletionWon (stats : EntityMergeStats) (won : Bool) : EntityMergeStats :=
  if won then { stats with deletionsWon := stats.deletionsWon + 1 } else stats

end EntityMergeStats

structure MergeOptions (α : Type) [MergeableEntity α] where
  /-- Applied to both versions and the winner; it may throw as the merge itself may. -/
  mergeConflict : Option (α → α → α → Except JsError α) := none
  normalizeForComparison : Option (ComparisonNormalizer α) := none
  nowIso : Option String
  /-- The reading of the device clock, which stands in for a `nowIso` that is not a date. -/
  dateNow : Int

structure MergeState (α : Type) where
  merged : List α
  stats : EntityMergeStats

def MergeOptions.now (opts : MergeOptions α) : Int := maxAllowedMergeTime opts.nowIso opts.dateNow

/-- The pair the loop compares for one id. -/
def repairedPair (l i : α) : α × α :=
  (normalizeTimestamps l (some i), normalizeTimestamps i (some l))

/-- The winner of a compared pair, after the caller's `mergeConflict`. -/
def resolvedPair (opts : MergeOptions α) (l i : α) : Except JsError α :=
  let winner := (winnerSide opts.now l i).pick l i
  match opts.mergeConflict with
  | none => .ok winner
  | some mergeConflict => mergeConflict l i winner

/-- What the loop pushes for an id both sides have. -/
def mergedPair (opts : MergeOptions α) (localItem incomingItem : α) : Except JsError α := do
  let (l, i) := repairedPair localItem incomingItem
  let mergedItem ← resolvedPair opts l i
  return normalizeTimestamps mergedItem none

/-- The counters of a compared pair, up to its sample. -/
def pairStats (opts : MergeOptions α) (stats : EntityMergeStats) (key : String) (l i : α) :
    EntityMergeStats :=
  let now := opts.now
  let conflict := differs opts.normalizeForComparison l i
  let side := winnerSide now l i
  let stats := stats.countClamps now key l i
  let stats :=
    if conflict then
      stats.countConflict now key (conflictReasons opts.normalizeForComparison l i) l i
    else stats
  let stats := (stats.countInvalidDeletedAt l i).countWinner side
  stats.countDeletionWon (isDeleted (side.pick l i) && (!isDeleted l || !isDeleted i || conflict))

/-- The first conflicts are kept as samples. -/
def addConflictSample (opts : MergeOptions α) (stats : EntityMergeStats) (key : String) (l i : α) :
    Except JsError EntityMergeStats :=
  if differs opts.normalizeForComparison l i ∧ stats.conflictSamples.length < conflictSampleLimit then do
    let sample ← conflictSample opts.normalizeForComparison opts.now key l i
    return { stats with conflictSamples := stats.conflictSamples ++ [sample] }
  else .ok stats

def countPair (opts : MergeOptions α) (stats : EntityMergeStats) (key : String)
    (localItem incomingItem : α) : Except JsError EntityMergeStats :=
  let (l, i) := repairedPair localItem incomingItem
  let stats := (stats.countTimestamps localItem).countTimestamps incomingItem
  addConflictSample opts (pairStats opts stats key l i) key l i

/-- One turn of the loop. -/
def mergeStep (opts : MergeOptions α) (localMap incomingMap : JsMap α) (state : MergeState α)
    (key : String) : Except JsError (MergeState α) :=
  match localMap.get? key, incomingMap.get? key with
  | none, none => .ok state
  | some l, none =>
    let stats := state.stats.countWinner .localItem
    .ok ⟨state.merged ++ [normalizeTimestamps l none],
      { stats with localOnly := stats.localOnly + 1 }.countTimestamps l⟩
  | none, some i =>
    let stats := state.stats.countWinner .incomingItem
    .ok ⟨state.merged ++ [normalizeTimestamps i none],
      { stats with incomingOnly := stats.incomingOnly + 1 }.countTimestamps i⟩
  | some l, some i => do
    let stats ← countPair opts state.stats key l i
    let mergedItem ← resolvedPair opts (normalizeTimestamps l (some i)) (normalizeTimestamps i (some l))
    return ⟨state.merged ++ [normalizeTimestamps mergedItem none], stats.countTimestamps mergedItem⟩

def mergeEntitiesWithStats (opts : MergeOptions α) (localItems incomingItems : List α) :
    Except JsError (MergeState α) := do
  let localMap := JsMap.ofItems entityId localItems
  let incomingMap := JsMap.ofItems entityId incomingItems
  let final ← (JsMap.unionKeys localMap incomingMap).foldlM (mergeStep opts localMap incomingMap)
    ⟨[], createEmptyEntityStats localItems.length incomingItems.length⟩
  return { final with stats := { final.stats with mergedTotal := final.merged.length } }

end defs

/-! ### What the loop builds -/

section loop
variable [Runtime] {α : Type} [MergeableEntity α]

@[simp] theorem entityId_normalizeTimestamps (item : α) (counterpart : Option α) :
    entityId (normalizeTimestamps item counterpart) = entityId item := by
  unfold normalizeTimestamps
  split <;> simp

/-- The element the loop pushes for `key`. -/
def mergedEntry (opts : MergeOptions α) (localMap incomingMap : JsMap α) (key : String) :
    Except JsError (Option α) :=
  match localMap.get? key, incomingMap.get? key with
  | none, none => .ok none
  | some l, none => .ok (some (normalizeTimestamps l none))
  | none, some i => .ok (some (normalizeTimestamps i none))
  | some l, some i => (mergedPair opts l i).map some

theorem mergeStep_merged {opts : MergeOptions α} {localMap incomingMap : JsMap α} {key : String}
    {state state' : MergeState α} (h : mergeStep opts localMap incomingMap state key = .ok state') :
    ∃ entry, mergedEntry opts localMap incomingMap key = .ok entry ∧
      state'.merged = state.merged ++ entry.toList := by
  unfold mergeStep at h
  unfold mergedEntry
  split at h
  · obtain rfl := Except.ok.inj h
    exact ⟨none, rfl, by simp⟩
  · obtain rfl := Except.ok.inj h
    exact ⟨_, rfl, rfl⟩
  · obtain rfl := Except.ok.inj h
    exact ⟨_, rfl, rfl⟩
  · rename_i l i _ _
    obtain ⟨stats, -, h⟩ := bind_eq_ok h
    obtain ⟨mergedItem, hitem, h⟩ := bind_eq_ok h
    obtain rfl := Except.ok.inj h
    refine ⟨some (normalizeTimestamps mergedItem none), ?_, rfl⟩
    simp only [mergedPair, repairedPair, hitem]
    rfl

/-- The loop appends one element for each key it visits. -/
theorem foldlM_mergeStep_merged {opts : MergeOptions α} {localMap incomingMap : JsMap α}
    (keys : List String) {state state' : MergeState α}
    (h : keys.foldlM (mergeStep opts localMap incomingMap) state = .ok state') :
    ∃ entries, List.Forall₂ (fun key entry => mergedEntry opts localMap incomingMap key = .ok entry)
      keys entries ∧ state'.merged = state.merged ++ entries.reduceOption := by
  induction keys generalizing state with
  | nil =>
    obtain rfl := Except.ok.inj h
    exact ⟨[], .nil, by simp⟩
  | cons key keys ih =>
    rw [List.foldlM_cons] at h
    obtain ⟨next, hnext, h⟩ := bind_eq_ok h
    obtain ⟨entry, hentry, hmerged⟩ := mergeStep_merged hnext
    obtain ⟨entries, hentries, hrest⟩ := ih h
    refine ⟨entry :: entries, .cons hentry hentries, ?_⟩
    rw [hrest, hmerged, List.append_assoc]
    cases entry <;> simp

/-- The keys the loop visits. -/
def visitedKeys (L I : List α) : List String :=
  JsMap.unionKeys (JsMap.ofItems entityId L) (JsMap.ofItems entityId I)

/-- `entry` is what the merge of `L` and `I` pushes for `key`. -/
def EntryOf (opts : MergeOptions α) (L I : List α) (key : String) (entry : Option α) : Prop :=
  mergedEntry opts (JsMap.ofItems entityId L) (JsMap.ofItems entityId I) key = .ok entry

theorem merged_eq {opts : MergeOptions α} {L I : List α} {out : MergeState α}
    (h : mergeEntitiesWithStats opts L I = .ok out) :
    ∃ entries, List.Forall₂ (EntryOf opts L I) (visitedKeys L I) entries ∧
      out.merged = entries.reduceOption := by
  obtain ⟨final, hfinal, h⟩ := bind_eq_ok h
  obtain rfl := Except.ok.inj h
  obtain ⟨entries, hentries, hmerged⟩ := foldlM_mergeStep_merged _ hfinal
  exact ⟨entries, hentries, by simpa using hmerged⟩

/-! ### It returns -/

theorem conflictSample_ok (n : Option (ComparisonNormalizer α)) (now : Int) (key : String) {l i : α}
    (hl : isBlank (entityId l) = false) (hi : isBlank (entityId i) = false) :
    ∃ sample, conflictSample n now key l i = .ok sample := by
  obtain ⟨sl, hsl⟩ := Option.isSome_iff_exists.1 (getMergeComparableSignature_isSome n hl)
  obtain ⟨si, hsi⟩ := Option.isSome_iff_exists.1 (getMergeComparableSignature_isSome n hi)
  unfold conflictSample
  rw [hsl, hsi]
  exact ⟨_, rfl⟩

theorem addConflictSample_ok (opts : MergeOptions α) (stats : EntityMergeStats) (key : String)
    {l i : α} (hl : isBlank (entityId l) = false) (hi : isBlank (entityId i) = false) :
    ∃ stats', addConflictSample opts stats key l i = .ok stats' := by
  obtain ⟨sample, hsample⟩ := conflictSample_ok opts.normalizeForComparison opts.now key hl hi
  unfold addConflictSample
  split
  · exact ⟨_, by rw [hsample]; rfl⟩
  · exact ⟨stats, rfl⟩

/-- The caller's `mergeConflict` never throws. -/
def MergeOptions.Total (opts : MergeOptions α) : Prop :=
  ∀ f, opts.mergeConflict = some f → ∀ l i w, ∃ r, f l i w = .ok r

theorem resolvedPair_ok {opts : MergeOptions α} (hopts : opts.Total) (l i : α) :
    ∃ r, resolvedPair opts l i = .ok r := by
  unfold resolvedPair
  cases hc : opts.mergeConflict with
  | none => exact ⟨_, rfl⟩
  | some f => exact hopts f hc _ _ _

theorem mergeStep_ok {opts : MergeOptions α} (hopts : opts.Total) {localMap incomingMap : JsMap α}
    (hlocal : ∀ key l, localMap.get? key = some l → isBlank (entityId l) = false)
    (hincoming : ∀ key i, incomingMap.get? key = some i → isBlank (entityId i) = false)
    (state : MergeState α) (key : String) :
    ∃ state', mergeStep opts localMap incomingMap state key = .ok state' := by
  unfold mergeStep
  split
  · exact ⟨_, rfl⟩
  · exact ⟨_, rfl⟩
  · exact ⟨_, rfl⟩
  · rename_i l i hl hi
    obtain ⟨stats, hstats⟩ : ∃ stats, countPair opts state.stats key l i = .ok stats :=
      addConflictSample_ok _ _ _ (by simpa using hlocal key l hl) (by simpa using hincoming key i hi)
    obtain ⟨r, hr⟩ := resolvedPair_ok hopts (normalizeTimestamps l (some i))
      (normalizeTimestamps i (some l))
    exact ⟨_, by rw [hstats, hr]; rfl⟩

/-- Where no id is blank every signature exists and the merge returns. -/
theorem mergeEntitiesWithStats_ok {opts : MergeOptions α} (hopts : opts.Total) {L I : List α}
    (hL : ∀ item ∈ L, isBlank (entityId item) = false)
    (hI : ∀ item ∈ I, isBlank (entityId item) = false) :
    ∃ out, mergeEntitiesWithStats opts L I = .ok out := by
  have hlocal : ∀ key l, (JsMap.ofItems entityId L).get? key = some l → isBlank (entityId l) = false :=
    fun key l h => hL l (JsMap.mem_of_get?_ofItems h).1
  have hincoming : ∀ key i, (JsMap.ofItems entityId I).get? key = some i → isBlank (entityId i) = false :=
    fun key i h => hI i (JsMap.mem_of_get?_ofItems h).1
  obtain ⟨final, hfinal⟩ := foldlM_ok (mergeStep_ok hopts hlocal hincoming) (visitedKeys L I)
    ⟨[], createEmptyEntityStats L.length I.length⟩
  refine ⟨{ final with stats := { final.stats with mergedTotal := final.merged.length } }, ?_⟩
  unfold mergeEntitiesWithStats
  rw [visitedKeys] at hfinal
  simp only [hfinal]
  rfl

/-! ### The ids of the result -/

/-- The caller's `mergeConflict` returns a version of the entity it is given. -/
def MergeOptions.KeepsId (opts : MergeOptions α) : Prop :=
  ∀ f, opts.mergeConflict = some f → ∀ l i w r, f l i w = .ok r → entityId r = entityId w

theorem entityId_mergedPair {opts : MergeOptions α} (hopts : opts.KeepsId) {l i r : α}
    (hid : entityId l = entityId i) (h : mergedPair opts l i = .ok r) : entityId r = entityId l := by
  obtain ⟨mergedItem, hitem, h⟩ := bind_eq_ok h
  obtain rfl := Except.ok.inj h
  have hpick : ∀ s : Side, entityId (s.pick (normalizeTimestamps l (some i))
      (normalizeTimestamps i (some l))) = entityId l := by
    intro s
    cases s <;> simp [hid]
  rw [entityId_normalizeTimestamps]
  unfold resolvedPair at hitem
  cases hc : opts.mergeConflict with
  | none =>
    rw [hc] at hitem
    obtain rfl := Except.ok.inj hitem
    exact hpick _
  | some f =>
    rw [hc] at hitem
    rw [hopts f hc _ _ _ _ hitem]
    exact hpick _

theorem entityId_of_entryOf {opts : MergeOptions α} (hopts : opts.KeepsId) {L I : List α}
    {key : String} {a : α} (h : EntryOf opts L I key (some a)) : entityId a = key := by
  unfold EntryOf mergedEntry at h
  split at h
  · cases h
  · rename_i l hl _
    cases h
    simpa using (JsMap.mem_of_get?_ofItems hl).2
  · rename_i i _ hi
    cases h
    simpa using (JsMap.mem_of_get?_ofItems hi).2
  · rename_i l i hl hi
    obtain ⟨r, hr, h⟩ := map_eq_ok h
    obtain rfl := Option.some.inj h
    have hlk := (JsMap.mem_of_get?_ofItems hl).2
    rw [entityId_mergedPair hopts (hlk.trans (JsMap.mem_of_get?_ofItems hi).2.symm) hr, hlk]

theorem entryOf_visited {opts : MergeOptions α} {L I : List α} {key : String} {entry : Option α}
    (hkey : key ∈ visitedKeys L I) (h : EntryOf opts L I key entry) : ∃ a, entry = some a := by
  rw [visitedKeys, JsMap.mem_unionKeys, ← JsMap.get?_isSome_iff, ← JsMap.get?_isSome_iff] at hkey
  unfold EntryOf mergedEntry at h
  split at h
  · simp_all
  · cases h; exact ⟨_, rfl⟩
  · cases h; exact ⟨_, rfl⟩
  · obtain ⟨r, -, h⟩ := map_eq_ok h
    exact ⟨r, h.symm⟩

/-- The merged list holds one entity for each visited key, in their order. -/
theorem merged_forall₂ {opts : MergeOptions α} {L I : List α} {out : MergeState α}
    (h : mergeEntitiesWithStats opts L I = .ok out) :
    List.Forall₂ (fun key a => EntryOf opts L I key (some a)) (visitedKeys L I) out.merged := by
  obtain ⟨entries, hentries, hmerged⟩ := merged_eq h
  rw [hmerged]
  have hvisited : ∀ keys : List String, (∀ k ∈ keys, k ∈ visitedKeys L I) → ∀ entries : List (Option α),
      List.Forall₂ (EntryOf opts L I) keys entries →
      List.Forall₂ (fun key a => EntryOf opts L I key (some a)) keys entries.reduceOption := by
    intro keys
    induction keys with
    | nil => rintro - _ ⟨⟩; exact .nil
    | cons key keys ih =>
      rintro hkeys _ (_ | ⟨hentry, hrest⟩)
      obtain ⟨a, rfl⟩ := entryOf_visited (hkeys key (by simp)) hentry
      exact .cons hentry (ih (fun k hk => hkeys k (by simp [hk])) _ hrest)
  exact hvisited _ (fun _ hk => hk) _ hentries

/-- The ids of the merged list are the visited keys. -/
theorem map_entityId_merged {opts : MergeOptions α} (hopts : opts.KeepsId) {L I : List α}
    {out : MergeState α} (h : mergeEntitiesWithStats opts L I = .ok out) :
    out.merged.map entityId = visitedKeys L I := by
  have hall := merged_forall₂ h
  generalize visitedKeys L I = keys at hall ⊢
  generalize out.merged = items at hall ⊢
  induction hall with
  | nil => rfl
  | cons hentry _ ih => rw [List.map_cons, ih, entityId_of_entryOf hopts hentry]

theorem entryOf_of_mem {opts : MergeOptions α} {L I : List α} {out : MergeState α} {a : α}
    (h : mergeEntitiesWithStats opts L I = .ok out) (ha : a ∈ out.merged) :
    ∃ key, EntryOf opts L I key (some a) := by
  have hall := merged_forall₂ h
  generalize visitedKeys L I = keys at hall
  generalize out.merged = items at hall ha
  induction hall with
  | nil => cases ha
  | cons hentry _ ih =>
    rcases List.mem_cons.1 ha with rfl | ha
    · exact ⟨_, hentry⟩
    · exact ih ha

end loop

end Mindwtr.Sync
