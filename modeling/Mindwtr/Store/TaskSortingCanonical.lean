import Mindwtr.Store.OrderingActions
import Mindwtr.Store.TaskSorting

/-!
# When the order of tasks is canonical

The keys of each sort field (`savedPreferenceKeys`) and of the next actions (`focusKeys`). The comparators try them
in turn, so a list of tasks is sorted into the order of its keys from every arrangement exactly if no two tasks stop
the chain (`task_orderings_canonical_iff`): they are the same in the first keys and both lack the next one, where
the comparator computes `Infinity - Infinity` instead of going on to the time of creation and the id.
-/

namespace Mindwtr.Store

open Mindwtr.Js Mindwtr.Lib

/-! ### Keys that may be missing -/

/-- A missing number comes after all others. -/
def Number.rank : Number → WithTop Rat
  | .finite n => n
  | _ => ⊤

def Number.isNan (n : Number) : Bool := n == .nan

theorem compare_coe (m n : Rat) : compare (m : WithTop Rat) n = compare m n :=
  (compareKeys_eq (some m) (some n)).symm

theorem Number.minus_eq (m n : Number) : m.minus n =
    if (!m.isNan && !n.isNan && !(m == .infinity && n == .infinity)) = true then some (compare m.rank n.rank)
    else none := by
  cases m with
  | finite m =>
    have htop : compare (m : WithTop Rat) ⊤ = .lt := compare_lt_iff_lt.2 (WithTop.coe_lt_top m)
    cases n <;> simp [Number.minus, Number.isNan, Number.rank, compare_coe, htop]
  | infinity =>
    have htop : ∀ n : Rat, compare (⊤ : WithTop Rat) n = .gt := fun n =>
      compare_gt_iff_gt.2 (WithTop.coe_lt_top n)
    cases n <;> simp [Number.minus, Number.isNan, Number.rank, htop]
  | nan => cases n <;> simp [Number.minus, Number.isNan]

theorem Number.guardedMinus_eq (m n : Number) : m.guardedMinus n =
    if (!m.isNan && !n.isNan) = true then some (compare m.rank n.rank) else none := by
  unfold Number.guardedMinus
  by_cases hsame : m = n
  · subst hsame
    cases m with
    | finite m => simp [Number.isNan]
    | infinity => simp [Number.isNan]
    | nan => simp [Number.isNan, Number.minus]
  · rw [if_neg fun h => hsame h.1, Number.minus_eq]
    have hinfinity : (m == .infinity && n == .infinity) = false := by
      rw [Bool.and_eq_false_iff]
      by_contra hboth
      simp only [not_or, Bool.not_eq_false, beq_iff_eq] at hboth
      exact hsame (hboth.1.trans hboth.2.symm)
    simp [hinfinity]

/-- A key compared by its difference, which is no number if both tasks lack the key. -/
def numberKey {α : Type} (read : α → Number) : Level α where
  order a b := compare (read a).rank (read b).rank
  isNumber a b := !(read a).isNan && !(read b).isNan && !(read a == .infinity && read b == .infinity)

/-- The larger number comes first. -/
def descendingKey {α : Type} (read : α → Number) : Level α where
  order a b := compare (read b).rank (read a).rank
  isNumber a b := !(read b).isNan && !(read a).isNan && !(read b == .infinity && read a == .infinity)

/-- A key that is compared by its difference only if the two are not the same. -/
def guardedKey {α : Type} (read : α → Number) : Level α where
  order a b := compare (read a).rank (read b).rank
  isNumber a b := !(read a).isNan && !(read b).isNan

/-- A key of which every two values can be compared. -/
def totalKey {α : Type} (order : α → α → Ordering) : Level α where
  order := order
  isNumber _ _ := true

section
variable {α : Type} (read : α → Number) (a b : α)

theorem numberKey_difference : (numberKey read).difference a b = (read a).minus (read b) :=
  (Number.minus_eq _ _).symm

theorem guardedKey_difference : (guardedKey read).difference a b = (read a).guardedMinus (read b) :=
  (Number.guardedMinus_eq _ _).symm

theorem totalKey_difference (order : α → α → Ordering) : (totalKey order).difference a b = some (order a b) := rfl

theorem trans_rank : Std.TransCmp fun a b => compare (read a).rank (read b).rank :=
  inferInstanceAs (Std.TransCmp (compareOn fun a => (read a).rank))

theorem isLawful_numberKey : IsLawful (numberKey read) := by
  refine ⟨trans_rank read, ?_⟩
  intro a b
  simp only [numberKey, Bool.and_comm]

theorem isLawful_guardedKey : IsLawful (guardedKey read) := by
  refine ⟨trans_rank read, ?_⟩
  intro a b
  simp only [guardedKey, Bool.and_comm]

theorem isLawful_descendingKey : IsLawful (descendingKey read) := by
  have := trans_rank read
  refine ⟨{ eq_swap := ?_, isLE_trans := ?_ }, ?_⟩
  · intro a b
    exact @Std.OrientedCmp.eq_swap _ (fun a b => compare (read a).rank (read b).rank) _ b a
  · intro a b c hab hbc
    exact @Std.TransCmp.isLE_trans _ (fun a b => compare (read a).rank (read b).rank) _ c b a hbc hab
  · intro a b
    simp only [descendingKey, Bool.and_comm]

theorem isLawful_totalKey {order : α → α → Ordering} (h : Std.TransCmp order) : IsLawful (totalKey order) :=
  ⟨h, fun _ _ => rfl⟩

end

/-! ### The keys of a sort field -/

section
variable [LocalCalendar]

def dueKey : Level Task := numberKey dueOf
def startKey : Level Task := numberKey fun task => safeTime task.startTime .infinity
def reviewKey : Level Task := numberKey fun task => safeTime task.reviewAt .infinity
def timeEstimateKey : Level Task := numberKey fun task => timeEstimateSortRank task.timeEstimate
/-- A task is always created at some time: without a valid one, at the beginning of time. -/
def createdKey : Level Task := numberKey fun task => safeTime task.createdAt (.finite 0)
def latestKey : Level Task := descendingKey fun task => safeTime task.createdAt (.finite 0)
def updatedKey : Level Task := descendingKey fun task => safeTime task.updatedAt (.finite 0)
def titleKey : Level Task := totalKey fun a b => compareTitles (titleOf a.title) (titleOf b.title)
def idKey : Level Task := totalKey fun a b => compareTitles a.id b.id
def priorityKey : Level Task :=
  totalKey fun a b => compare (taskPrioritySortRank b.priority) (taskPrioritySortRank a.priority)
def energyKey : Level Task :=
  totalKey fun a b => compare (taskEnergySortRank b.energyLevel) (taskEnergySortRank a.energyLevel)
def projectPlaceKey (projects : List Project) : Level Task := guardedKey (projectPlace projects)
def projectTitleKey (projects : List Project) : Level Task :=
  totalKey fun a b => compareTitles (titleOfProject projects a) (titleOfProject projects b)

/-- The keys of a sort field, before the time of creation and the id. -/
def fieldKeys (options : SortTasksBySavedPreferenceOptions) : SortField → List (Level Task)
  | .due => [dueKey]
  | .start => startKey :: if options.prioritizeByPriority then [priorityKey] else []
  | .review => [reviewKey]
  | .title => [titleKey]
  | .created | .completed | .default => []
  | .createdDesc => [latestKey]
  | .priority => (if options.prioritizeByPriority then [priorityKey] else []) ++ [dueKey, startKey]
  | .energy => [energyKey, dueKey, startKey]
  | .timeEstimate => [timeEstimateKey, dueKey, startKey]
  | .project => [projectPlaceKey options.projects, projectTitleKey options.projects]
  | .updated => [updatedKey]

def savedPreferenceKeys (options : SortTasksBySavedPreferenceOptions) (sortBy : SortField) : List (Level Task) :=
  fieldKeys options sortBy ++ (if sortBy = .createdDesc then [] else [createdKey]) ++ [idKey]

theorem compareBySavedPreference_eq (options : SortTasksBySavedPreferenceOptions) (sortBy : SortField) (a b : Task) :
    compareBySavedPreference options a b sortBy =
      firstDifference ((savedPreferenceKeys options sortBy).map (·.difference a b)) := by
  have hcreated : byCreatedAsc a b = createdKey.difference a b := Number.minus_eq _ _
  have hlatest : byCreatedDesc a b = latestKey.difference a b := Number.minus_eq _ _
  have hdue : byDue a b = dueKey.difference a b := Number.minus_eq _ _
  have hstart : byStart a b = startKey.difference a b := Number.minus_eq _ _
  have hreview : byReview a b = reviewKey.difference a b := Number.minus_eq _ _
  have hestimate : byTimeEstimate a b = timeEstimateKey.difference a b := Number.minus_eq _ _
  have hupdated : byUpdated a b = updatedKey.difference a b := Number.minus_eq _ _
  have hproject : byProject options a b = firstDifference [(projectPlaceKey options.projects).difference a b,
      (projectTitleKey options.projects).difference a b] := by
    rw [byProject, projectPlaceKey, guardedKey_difference]
    rfl
  have hpriority : byPriority a b = priorityKey.difference a b := rfl
  have henergy : byEnergy a b = energyKey.difference a b := rfl
  have htitle : byTitle a b = titleKey.difference a b := rfl
  have hid : byId a b = idKey.difference a b := rfl
  cases sortBy <;> simp only [compareBySavedPreference, savedPreferenceKeys, fieldKeys, withFallbacks, hcreated,
    hlatest, hdue, hstart, hreview, hestimate, hupdated, hproject, hpriority, henergy, htitle, hid, reduceCtorEq,
    if_false, if_true, List.map_cons, List.map_nil, List.cons_append, List.nil_append, List.append_nil,
    firstDifference_nested]
  all_goals cases options.prioritizeByPriority <;> rfl

/-! ### The keys of the next actions -/

section
variable (options : SortFocusNextActionsOptions)

/-- The boost of a task without a due date. -/
def boostOf (task : Task) : Option ProjectDeadlineBoost :=
  if bucketOf options task = 1 then options.projectDeadlineBoosts.get? task.id else none

/-- A number that only boosted tasks have. -/
def boostedNumber (read : ProjectDeadlineBoost → Task → Number) (task : Task) : Number :=
  ((boostOf options task).map fun boost => read boost task).getD (.finite 0)

def boostedText (read : ProjectDeadlineBoost → Task → String) (task : Task) : String :=
  ((boostOf options task).map fun boost => read boost task).getD ""

def textKey (read : Task → String) : Level Task := totalKey fun a b => compareTitles (read a) (read b)

def boostKeys : List (Level Task) :=
  [totalKey fun a b => compare (boostOf options b).isSome.toNat (boostOf options a).isSome.toNat,
    guardedKey (boostedNumber options fun boost _ => boost.projectDueTime),
    guardedKey (boostedNumber options fun boost _ => boost.projectOrder),
    textKey (boostedText options fun boost _ => boost.projectTitle),
    guardedKey (boostedNumber options fun _ task => taskOrderNumber task),
    numberKey (boostedNumber options fun _ task => safeTime task.createdAt .infinity),
    textKey (boostedText options fun _ task => titleOf task.title),
    textKey (boostedText options fun _ task => task.id)]

def focusKeys : List (Level Task) :=
  [totalKey fun a b => compare (bucketOf options a) (bucketOf options b),
    guardedKey fun task => if bucketOf options task ≠ 1 then dueOf task else .finite 0] ++
  boostKeys options ++ (if options.prioritizeByPriority then [priorityKey] else []) ++
  [guardedKey fun task => safeTime task.startTime .infinity, createdKey, titleKey, idKey]

variable {options} {a b : Task}

theorem compareProjectDeadlineBoosts_eq (hcollator : Std.TransCmp compareTitles) :
    compareProjectDeadlineBoosts (boostOf options a) (boostOf options b) a b =
      firstDifference ((boostKeys options).map (·.difference a b)) := by
  have hself : ∀ s, compareTitles s s = .eq := fun s => Std.ReflCmp.compare_self
  simp only [boostKeys, List.map_cons, List.map_nil, textKey, totalKey_difference, guardedKey_difference,
    numberKey_difference, boostedNumber, boostedText]
  cases boostOf options a with
  | none =>
    cases boostOf options b with
    | none => simp [compareProjectDeadlineBoosts, Number.guardedMinus, Number.minus, hself, firstDifference]
    | some boost => rfl
  | some boostA =>
    cases boostOf options b with
    | none => rfl
    | some boostB =>
      have hsame : compare (some boostB).isSome.toNat (some boostA).isSome.toNat = .eq := by simp
      rw [hsame, firstDifference_cons_eq]
      exact firstDifference_within [_, _, _] [_, _, _, _] []

theorem boostOf_of_bucket (h : bucketOf options a = bucketOf options b) :
    (if bucketOf options a = 1 then compareProjectDeadlineBoosts (options.projectDeadlineBoosts.get? a.id)
        (options.projectDeadlineBoosts.get? b.id) a b
      else some .eq) = compareProjectDeadlineBoosts (boostOf options a) (boostOf options b) a b := by
  unfold boostOf
  rw [← h]
  split
  · rfl
  · rfl

theorem compareFocusNextActions_eq (hcollator : Std.TransCmp compareTitles) (a b : Task) :
    compareFocusNextActions options a b = firstDifference ((focusKeys options).map (·.difference a b)) := by
  have hcreated : byCreatedAsc a b = createdKey.difference a b := Number.minus_eq _ _
  unfold compareFocusNextActions focusKeys
  by_cases hbucket : bucketOf options a = bucketOf options b
  · have hself : compare (bucketOf options a) (bucketOf options b) = .eq := compare_eq_iff_eq.2 hbucket
    have hdue : (if bucketOf options a ≠ 1 then (dueOf a).guardedMinus (dueOf b) else some .eq) =
        (guardedKey fun task => if bucketOf options task ≠ 1 then dueOf task else .finite 0).difference a b := by
      rw [guardedKey_difference, ← hbucket]
      split
      · rfl
      · rfl
    rw [boostOf_of_bucket hbucket, compareProjectDeadlineBoosts_eq hcollator, hdue, hcreated]
    rw [List.map_append, List.map_append, List.map_append, List.append_assoc, List.append_assoc]
    have hwithin := firstDifference_within [some (compare (bucketOf options a) (bucketOf options b)),
      (guardedKey fun task => if bucketOf options task ≠ 1 then dueOf task else .finite 0).difference a b]
      ((boostKeys options).map (·.difference a b))
      [if options.prioritizeByPriority = true then byPriority a b else some .eq,
        (safeTime a.startTime .infinity).guardedMinus (safeTime b.startTime .infinity), createdKey.difference a b,
        byTitle a b, byId a b]
    refine hwithin.trans ?_
    have hstart : (safeTime a.startTime .infinity).guardedMinus (safeTime b.startTime .infinity) =
        (guardedKey fun task => safeTime task.startTime .infinity).difference a b := Number.guardedMinus_eq _ _
    rw [hstart]
    cases options.prioritizeByPriority with
    | true => rfl
    | false =>
      -- without priorities, their place in the chain does not decide
      have hskip := firstDifference_within ([some (compare (bucketOf options a) (bucketOf options b)),
        (guardedKey fun task => if bucketOf options task ≠ 1 then dueOf task else .finite 0).difference a b] ++
        (boostKeys options).map (·.difference a b)) []
        [(guardedKey fun task => safeTime task.startTime .infinity).difference a b, createdKey.difference a b,
          byTitle a b, byId a b]
      exact hskip
  · cases horder : compare (bucketOf options a) (bucketOf options b) with
    | eq => exact absurd (compare_eq_iff_eq.1 horder) hbucket
    | lt => simp [totalKey_difference, horder, firstDifference]
    | gt => simp [totalKey_difference, horder, firstDifference]

/-! ### Canonical orders -/

theorem isLawful_textKey (hcollator : Std.TransCmp compareTitles) (read : Task → String) :
    IsLawful (totalKey fun a b => compareTitles (read a) (read b)) :=
  isLawful_totalKey (trans_comap hcollator read)

omit [LocalCalendar] in
theorem isLawful_rankKey (read : Task → Nat) : IsLawful (totalKey fun a b => compare (read a) (read b)) :=
  isLawful_totalKey (inferInstanceAs (Std.TransCmp (compareOn read)))

omit [LocalCalendar] in
theorem isLawful_descendingRankKey (read : Task → Nat) :
    IsLawful (totalKey fun a b => compare (read b) (read a)) :=
  isLawful_totalKey {
    eq_swap {_ _} := @Std.OrientedCmp.eq_swap _ (compareOn read) _ _ _
    isLE_trans {_ _ _} hab hbc := @Std.TransCmp.isLE_trans _ (compareOn read) _ _ _ _ hbc hab }

theorem fieldKeys_subset (options : SortTasksBySavedPreferenceOptions) (sortBy : SortField) :
    ∀ level ∈ fieldKeys options sortBy, level ∈ [dueKey, startKey, reviewKey, timeEstimateKey, latestKey, updatedKey,
      titleKey, priorityKey, energyKey, projectPlaceKey options.projects, projectTitleKey options.projects] := by
  cases sortBy <;> simp +contextual [fieldKeys]
  rintro level (⟨-, rfl⟩ | rfl | rfl) <;> simp

theorem isLawful_fieldKeys (hcollator : Std.TransCmp compareTitles) (options : SortTasksBySavedPreferenceOptions)
    (sortBy : SortField) : ∀ level ∈ fieldKeys options sortBy, IsLawful level := by
  intro level hlevel
  have hmem := fieldKeys_subset options sortBy level hlevel
  simp only [List.mem_cons, List.not_mem_nil, or_false] at hmem
  obtain rfl | rfl | rfl | rfl | rfl | rfl | rfl | rfl | rfl | rfl | rfl := hmem
  · exact isLawful_numberKey _
  · exact isLawful_numberKey _
  · exact isLawful_numberKey _
  · exact isLawful_numberKey _
  · exact isLawful_descendingKey _
  · exact isLawful_descendingKey _
  · exact isLawful_textKey hcollator fun task => titleOf task.title
  · exact isLawful_descendingRankKey fun task => taskPrioritySortRank task.priority
  · exact isLawful_descendingRankKey fun task => taskEnergySortRank task.energyLevel
  · exact isLawful_guardedKey _
  · exact isLawful_textKey hcollator (titleOfProject options.projects)

theorem isLawful_savedPreferenceKeys (hcollator : Std.TransCmp compareTitles)
    (options : SortTasksBySavedPreferenceOptions) (sortBy : SortField) :
    ∀ level ∈ savedPreferenceKeys options sortBy, IsLawful level := by
  intro level hlevel
  simp only [savedPreferenceKeys, List.mem_append, List.mem_singleton] at hlevel
  rcases hlevel with (hlevel | hlevel) | rfl
  · exact isLawful_fieldKeys hcollator options sortBy level hlevel
  · split at hlevel
    · cases hlevel
    · rw [List.mem_singleton.1 hlevel]
      exact isLawful_numberKey _
  · exact isLawful_textKey hcollator fun task => task.id

theorem isLawful_boostKeys (hcollator : Std.TransCmp compareTitles) (options : SortFocusNextActionsOptions) :
    ∀ level ∈ boostKeys options, IsLawful level := by
  intro level hlevel
  simp only [boostKeys, List.mem_cons, List.not_mem_nil, or_false] at hlevel
  obtain rfl | rfl | rfl | rfl | rfl | rfl | rfl | rfl := hlevel
  · exact isLawful_descendingRankKey fun task => (boostOf options task).isSome.toNat
  · exact isLawful_guardedKey _
  · exact isLawful_guardedKey _
  · exact isLawful_textKey hcollator _
  · exact isLawful_guardedKey _
  · exact isLawful_numberKey _
  · exact isLawful_textKey hcollator _
  · exact isLawful_textKey hcollator _

theorem isLawful_focusKeys (hcollator : Std.TransCmp compareTitles) (options : SortFocusNextActionsOptions) :
    ∀ level ∈ focusKeys options, IsLawful level := by
  intro level hlevel
  simp only [focusKeys, List.mem_append, List.mem_cons, List.not_mem_nil, or_false] at hlevel
  rcases hlevel with (((rfl | rfl) | hlevel) | hlevel) | rfl | rfl | rfl | rfl
  · exact isLawful_rankKey (bucketOf options)
  · exact isLawful_guardedKey _
  · exact isLawful_boostKeys hcollator options level hlevel
  · split at hlevel
    · rw [List.mem_singleton.1 hlevel]
      exact isLawful_descendingRankKey fun task => taskPrioritySortRank task.priority
    · cases hlevel
  · exact isLawful_guardedKey _
  · exact isLawful_numberKey _
  · exact isLawful_textKey hcollator fun task => titleOf task.title
  · exact isLawful_textKey hcollator fun task => task.id

/-- The ids of the tasks are their own, and the collator tells them apart. -/
structure HaveOwnIds (tasks : List Task) : Prop where
  nodup : (tasks.map (·.id)).Nodup
  told : ∀ a ∈ tasks, ∀ b ∈ tasks, compareTitles a.id b.id = .eq → a.id = b.id

theorem lexOrder_ne_of_ids {tasks : List Task} (hids : HaveOwnIds tasks) {levels : List (Level Task)}
    (hlevels : idKey ∈ levels) : ∀ a ∈ tasks, ∀ b ∈ tasks, a ≠ b → lexOrder levels a b ≠ .eq := by
  intro a ha b hb hab horder
  have hid : compareTitles a.id b.id = .eq := lexOrder_eq_iff.1 horder _ hlevels
  exact hab (List.inj_on_of_nodup_map hids.nodup ha hb (hids.told a ha b hb hid))

/-- Tasks come out in the order of their keys, whatever the order they come in, exactly if no two of them are the
same up to a key that both lack. -/
theorem task_orderings_canonical_iff (hcollator : Std.TransCmp compareTitles) {tasks : List Task}
    (hids : HaveOwnIds tasks) :
    (∀ sortBy, sortBy ≠ .default → ∀ options : SortTasksBySavedPreferenceOptions,
      IsCanonical (fun tasks => sortTasksBySavedPreference tasks sortBy options)
          (directed options.descending (lexOrder (savedPreferenceKeys options sortBy))) tasks ↔
        ∀ a ∈ tasks, ∀ b ∈ tasks, a ≠ b → ¬StopsChain (savedPreferenceKeys options sortBy) a b) ∧
      ∀ options : SortFocusNextActionsOptions,
        IsCanonical (fun tasks => sortFocusNextActions tasks options) (lexOrder (focusKeys options)) tasks ↔
          ∀ a ∈ tasks, ∀ b ∈ tasks, a ≠ b → ¬StopsChain (focusKeys options) a b := by
  have hnodup : tasks.Nodup := hids.nodup.of_map
  constructor
  · intro sortBy hsort options
    have hsame : (fun tasks => sortTasksBySavedPreference tasks sortBy options) =
        sortByComparator options.descending fun a b => compareBySavedPreference options a b sortBy := by
      funext tasks
      exact if_neg hsort
    rw [hsame]
    apply isCanonical_iff (fun a b => compareBySavedPreference_eq options sortBy a b)
      (isLawful_savedPreferenceKeys hcollator options sortBy) _ hnodup
    exact lexOrder_ne_of_ids hids (by simp [savedPreferenceKeys])
  · intro options
    apply isCanonical_iff (compareFocusNextActions_eq hcollator) (isLawful_focusKeys hcollator options) _ hnodup
    exact lexOrder_ne_of_ids hids (by simp [focusKeys])

end

end

/-! ### Two tasks without a due date -/

def undatedTask (id createdAt : String) : Task :=
  { id := id, title := some (.str id), status := some (.str "next"), createdAt := some (.str createdAt) }

def undatedTasks : List Task :=
  [undatedTask "b" "2026-03-02T09:00:00.000Z", undatedTask "a" "2026-03-01T09:00:00.000Z"]

theorem haveOwnIds_undated : @HaveOwnIds utcCalendar undatedTasks :=
  @HaveOwnIds.mk utcCalendar _ (by decide +kernel) (by decide +kernel)

theorem task_orderings_canonical_iff_undated :
    let _ := utcCalendar
    (∀ sortBy, sortBy ≠ .default → ∀ options : SortTasksBySavedPreferenceOptions,
      IsCanonical (fun tasks => sortTasksBySavedPreference tasks sortBy options)
          (directed options.descending (lexOrder (savedPreferenceKeys options sortBy))) undatedTasks ↔
        ∀ a ∈ undatedTasks, ∀ b ∈ undatedTasks, a ≠ b → ¬StopsChain (savedPreferenceKeys options sortBy) a b) ∧
      ∀ options : SortFocusNextActionsOptions,
        IsCanonical (fun tasks => sortFocusNextActions tasks options) (lexOrder (focusKeys options)) undatedTasks ↔
          ∀ a ∈ undatedTasks, ∀ b ∈ undatedTasks, a ≠ b → ¬StopsChain (focusKeys options) a b :=
  @task_orderings_canonical_iff utcCalendar transCmp_isoRuntime undatedTasks haveOwnIds_undated

/-- Sorted by due date, the two stay as they come in, although one was created before the other. -/
theorem undated_tasks_stay :
    let _ := utcCalendar
    (undatedTasks.map (·.id)).Nodup ∧ undatedTasks.reverse.Perm undatedTasks ∧
      (sortTasksBySavedPreference undatedTasks .due {}).map (·.id) = ["b", "a"] ∧
      (sortTasksBySavedPreference undatedTasks.reverse .due {}).map (·.id) = ["a", "b"] ∧
      (sortTasksBySavedPreference undatedTasks .created {}).map (·.id) = ["a", "b"] := by
  refine ⟨?_, ?_, ?_, ?_, ?_⟩
  · decide +kernel
  · exact List.reverse_perm _
  · decide +kernel
  · decide +kernel
  · decide +kernel

end Mindwtr.Store
