import Mindwtr.Store.SequentialHeads
import Mindwtr.Store.TaskSortingCanonical

/-!
# Which task is first

The first tasks of the sequential groups are the least ones by `sequentialKeys`, whatever the order in which tasks and
sections come in, exactly if every two groups are collected under different texts and no first task has the empty id
(`focusHeads_canonical_iff`). The text of a section is that of its project and its own with a colon between them, so
two groups may share one when an id holds a colon (`focusHeads_shared_key`).
-/

namespace Mindwtr.Store

open Mindwtr.Js Mindwtr.Lib

/-! ### Groups -/

/-- A sequential project, or its tasks in one section or in none. -/
structure SequentialGroup where
  projectId : String
  sectionId : Option (Option String) := none
deriving DecidableEq, Repr

def SequentialGroup.key (group : SequentialGroup) : String :=
  match group.sectionId with
  | none => group.projectId
  | some sectionId => group.projectId ++ ":" ++ sectionId.getD noSectionGroup

section
variable [LocalCalendar]

/-- The group of a task that takes part. -/
def sequentialGroup (sequentialProjectIds : Finset String) (options : FocusSequentialOptions) (task : Task) :
    Option SequentialGroup :=
  ((nonEmptyString task.projectId).map fun projectId =>
    { projectId
      sectionId :=
        if projectId ∈ options.sectionScopedProjectIds then
          some (getSequentialTaskSectionId task (buildSequentialSectionOrder options.sections))
        else none }).filter fun group =>
    decide (group.projectId ∈ sequentialProjectIds) && isFocusSequentialCandidate task options.now

def candidatesOf (tasks : List Task) (sequentialProjectIds : Finset String) (options : FocusSequentialOptions)
    (group : SequentialGroup) : List Task :=
  tasks.filter fun task => sequentialGroup sequentialProjectIds options task == some group

/-! ### Keys -/

/-- The place of a task's section; tasks without one come last. -/
def sectionPlace (sectionOrder : Option SequentialSectionOrder) (task : Task) : Number :=
  match sectionOrder with
  | none => .infinity
  | some order => sectionRank order (getSequentialTaskSectionId task sectionOrder)

def manualKeys (hasOrder : Bool) : List (Level Task) :=
  [guardedKey fun task => getSequentialTaskOrderKey task hasOrder,
    guardedKey fun task => safeTime task.createdAt .infinity, idKey]

/-- Starred tasks first, then the scheduled by their time; then by section, by order or creation, and by id. -/
def sequentialKeys (now : Int) (hasOrder : Bool) (sectionOrder : Option SequentialSectionOrder) : List (Level Task) :=
  totalKey (fun a b => compare (getFocusSequentialScheduleKey a now).rank (getFocusSequentialScheduleKey b now).rank) ::
  guardedKey (fun task => (getFocusSequentialScheduleKey task now).time) ::
  guardedKey (sectionPlace sectionOrder) :: manualKeys hasOrder

def sequentialOrder (tasks : List Task) (sequentialProjectIds : Finset String) (options : FocusSequentialOptions)
    (group : SequentialGroup) : Task → Task → Ordering :=
  lexOrder (sequentialKeys options.now
    (hasSequentialOrder (candidatesOf tasks sequentialProjectIds options group))
    (buildSequentialSectionOrder options.sections))

/-- The first candidate of a group. -/
def IsHead (tasks : List Task) (sequentialProjectIds : Finset String) (options : FocusSequentialOptions)
    (group : SequentialGroup) (task : Task) : Prop :=
  task ∈ candidatesOf tasks sequentialProjectIds options group ∧
    ∀ other ∈ candidatesOf tasks sequentialProjectIds options group, other ≠ task →
      sequentialOrder tasks sequentialProjectIds options group task other = .lt

/-- Of every group that has a candidate exactly the first one is found, and no other task. -/
structure FindsHeads (tasks : List Task) (sequentialProjectIds : Finset String) (options : FocusSequentialOptions) :
    Prop where
  one : ∀ group, candidatesOf tasks sequentialProjectIds options group ≠ [] →
    ∃ head, IsHead tasks sequentialProjectIds options group head ∧
      ∀ task ∈ candidatesOf tasks sequentialProjectIds options group,
        task.id ∈ getFocusSequentialFirstTaskIds tasks sequentialProjectIds options ↔ task = head
  others : ∀ id ∈ getFocusSequentialFirstTaskIds tasks sequentialProjectIds options,
    ∃ task ∈ tasks, task.id = id ∧ (sequentialGroup sequentialProjectIds options task).isSome

/-- The texts tell the groups apart, and the empty id is that of no first task. -/
structure TellsGroups (tasks : List Task) (sequentialProjectIds : Finset String) (options : FocusSequentialOptions) :
    Prop where
  keys : ∀ a ∈ tasks, ∀ b ∈ tasks, ∀ groupA groupB,
    sequentialGroup sequentialProjectIds options a = some groupA →
    sequentialGroup sequentialProjectIds options b = some groupB → groupA.key = groupB.key → groupA = groupB
  ids : ∀ group task, IsHead tasks sequentialProjectIds options group task → task.id ≠ ""

end

/-! ### The places of sections -/

section
variable [Runtime] {sections sections' : List Section} {order : SequentialSectionOrder}

/-- The ids of the sections are their own, and the collator tells them apart. -/
structure HaveOwnSectionIds (sections : List Section) : Prop where
  nodup : (sections.map (·.id)).Nodup
  told : ∀ a ∈ sections, ∀ b ∈ sections, compareTitles a.id b.id = .eq → a.id = b.id

def sequentialSectionKeys : List (Level Section) :=
  [totalKey fun a b => compare ((finiteOrder a.order).getD 0) ((finiteOrder b.order).getD 0),
    totalKey fun a b => compareTitles (titleOf a.title) (titleOf b.title),
    totalKey fun a b => compareTitles a.id b.id]

theorem isLawful_sequentialSectionKeys (hcollator : Std.TransCmp compareTitles) :
    ∀ level ∈ sequentialSectionKeys, IsLawful level := by
  intro level hlevel
  simp only [sequentialSectionKeys, List.mem_cons, List.not_mem_nil, or_false] at hlevel
  rcases hlevel with rfl | rfl | rfl
  · exact isLawful_totalKey
      (inferInstanceAs (Std.TransCmp (compareOn fun sec : Section => (finiteOrder sec.order).getD 0)))
  · exact isLawful_totalKey (trans_comap hcollator fun sec : Section => titleOf sec.title)
  · exact isLawful_totalKey (trans_comap hcollator fun sec : Section => sec.id)

theorem stopsChain_sequentialSectionKeys (a b : Section) : ¬StopsChain sequentialSectionKeys a b := by
  simp [sequentialSectionKeys, StopsChain, totalKey]

theorem sortSequentialSections_perm (hcollator : Std.TransCmp compareTitles) (hids : HaveOwnSectionIds sections)
    (hperm : sections'.Perm sections) : sortSequentialSections sections' = sortSequentialSections sections := by
  have hne : ∀ a ∈ sections, ∀ b ∈ sections, a ≠ b → lexOrder sequentialSectionKeys a b ≠ .eq := by
    intro a ha b hb hab horder
    have hid : compareTitles a.id b.id = .eq :=
      lexOrder_eq_iff.1 horder (totalKey fun a b => compareTitles a.id b.id) (by simp [sequentialSectionKeys])
    exact hab (List.inj_on_of_nodup_map hids.nodup ha hb (hids.told a ha b hb hid))
  have hcanonical : IsCanonical sortSequentialSections (directed false (lexOrder sequentialSectionKeys)) sections :=
    (isCanonical_iff (fun _ _ => rfl) (isLawful_sequentialSectionKeys hcollator) hne hids.nodup.of_map).2
      fun a _ b _ _ => stopsChain_sequentialSectionKeys a b
  exact (hcanonical sections' hperm).1

theorem perm_sortSequentialSections (sections : List Section) :
    (sortSequentialSections sections).Perm sections := List.perm_insertionSort _ _

theorem mem_sectionPlaces {id : String} {place : Nat} :
    (id, place) ∈ sectionPlaces sections ↔ ∃ sec ∈ sections, sec.id = id ∧
      (sortSequentialSections (sections.filter fun other =>
        some (projectOfSection other) == some (projectOfSection sec)))[place]? = some sec := by
  simp only [sectionPlaces, List.mem_flatMap, List.mem_map, Prod.mk.injEq]
  constructor
  · rintro ⟨group, hgroup, e, he, hid, hplace⟩
    obtain ⟨hfilter, -⟩ := JsMap.get?_groupBy_eq_some.1 ((JsMap.mem_entries_iff _ _).1 hgroup)
    rw [List.mem_zipIdx_iff_getElem?, hplace] at he
    have hmem : e.1 ∈ group.2 := (perm_sortSequentialSections group.2).mem_iff.1 (List.mem_of_getElem? he)
    rw [hfilter, List.mem_filter, beq_iff_eq] at hmem
    refine ⟨e.1, hmem.1, hid, ?_⟩
    rw [hmem.2, ← hfilter]
    exact he
  · rintro ⟨sec, hsec, hid, hplace⟩
    refine ⟨(projectOfSection sec,
        sections.filter fun other => some (projectOfSection other) == some (projectOfSection sec)),
      (JsMap.mem_entries_iff _ _).2 (JsMap.get?_groupBy_eq_some.2 ⟨rfl, ?_⟩), (sec, place), ?_, hid, rfl⟩
    · exact List.ne_nil_of_mem (List.mem_filter.2 ⟨hsec, by simp⟩)
    · rw [List.mem_zipIdx_iff_getElem?]
      exact hplace

theorem nodup_sectionPlaces (hids : (sections.map (·.id)).Nodup) :
    ((sectionPlaces sections).map Prod.fst).Nodup := by
  rw [sectionPlaces, List.map_flatMap, List.nodup_flatMap]
  have hgroup : ∀ group ∈ (JsMap.groupBy (fun sec => some (projectOfSection sec)) sections).entries,
      group.2 = sections.filter fun sec => some (projectOfSection sec) == some group.1 := by
    intro group hgroup
    exact (JsMap.get?_groupBy_eq_some.1 ((JsMap.mem_entries_iff _ _).1 hgroup)).1
  have hnames : ∀ l : List Section, (l.zipIdx.map fun e => (e.1.id, e.2)).map Prod.fst = l.map (·.id) := by
    intro l
    have hfst := List.zipIdx_map_fst 0 l
    conv_rhs => rw [← hfst]
    rw [List.map_map, List.map_map]
    rfl
  constructor
  · intro group hmem
    rw [hnames]
    have hperm := (perm_sortSequentialSections group.2).map (·.id)
    apply hperm.nodup_iff.2
    rw [hgroup group hmem]
    exact hids.sublist (List.filter_sublist.map _)
  · have hkeys : (JsMap.groupBy (fun sec => some (projectOfSection sec)) sections).entries.Pairwise
        fun a b => a.1 ≠ b.1 := List.pairwise_map.1 (JsMap.keys_nodup _)
    apply hkeys.imp_of_mem
    intro a b ha hb hab id hida hidb
    simp only [hnames] at hida hidb
    obtain ⟨seca, hseca, hida⟩ := List.mem_map.1 hida
    obtain ⟨secb, hsecb, hidb⟩ := List.mem_map.1 hidb
    have hina := (perm_sortSequentialSections a.2).mem_iff.1 hseca
    have hinb := (perm_sortSequentialSections b.2).mem_iff.1 hsecb
    rw [hgroup a ha, List.mem_filter, beq_iff_eq] at hina
    rw [hgroup b hb, List.mem_filter, beq_iff_eq] at hinb
    obtain rfl := List.inj_on_of_nodup_map hids hina.1 hinb.1 (hida.trans hidb.symm)
    exact hab (Option.some.inj (hina.2.symm.trans hinb.2))

theorem get?_sectionPlaces (hids : (sections.map (·.id)).Nodup) {id : String} {place : Nat} :
    (JsMap.ofList (sectionPlaces sections)).get? id = some place ↔ (id, place) ∈ sectionPlaces sections := by
  rw [← JsMap.mem_entries_iff _ (id, place), JsMap.entries_ofList _ (nodup_sectionPlaces hids)]

theorem HaveOwnSectionIds.live (hids : HaveOwnSectionIds sections) : HaveOwnSectionIds (liveSections sections) where
  nodup := hids.nodup.sublist (List.filter_sublist.map _)
  told a ha b hb := hids.told a (List.mem_of_mem_filter ha) b (List.mem_of_mem_filter hb)

theorem HaveOwnSectionIds.perm (hids : HaveOwnSectionIds sections) (hperm : sections'.Perm sections) :
    HaveOwnSectionIds sections' where
  nodup := (hperm.map _).nodup_iff.2 hids.nodup
  told a ha b hb := hids.told a (hperm.mem_iff.1 ha) b (hperm.mem_iff.1 hb)

/-- Two orders of sections that answer alike. -/
def SameSectionOrder (a b : SequentialSectionOrder) : Prop :=
  (∀ id, a.sectionById.get? id = b.sectionById.get? id) ∧ ∀ id, a.rankById.get? id = b.rankById.get? id

theorem mem_sectionPlaces_perm (hcollator : Std.TransCmp compareTitles) (hids : HaveOwnSectionIds sections)
    (hperm : sections'.Perm sections) {id : String} {place : Nat} :
    (id, place) ∈ sectionPlaces sections' ↔ (id, place) ∈ sectionPlaces sections := by
  rw [mem_sectionPlaces, mem_sectionPlaces]
  apply exists_congr
  intro sec
  have hfilter : HaveOwnSectionIds
      (sections.filter fun other => some (projectOfSection other) == some (projectOfSection sec)) :=
    ⟨hids.nodup.sublist (List.filter_sublist.map _),
      fun a ha b hb => hids.told a (List.mem_of_mem_filter ha) b (List.mem_of_mem_filter hb)⟩
  rw [hperm.mem_iff, sortSequentialSections_perm hcollator hfilter (hperm.filter _)]

theorem buildSequentialSectionOrder_perm (hcollator : Std.TransCmp compareTitles) {a b : Option (List Section)}
    (hids : ∀ sections ∈ a, HaveOwnSectionIds sections) (hperm : Option.Rel List.Perm b a) :
    Option.Rel SameSectionOrder (buildSequentialSectionOrder b) (buildSequentialSectionOrder a) := by
  cases hperm with
  | none => exact .none
  | @some sections' sections hperm =>
    have hown := (hids sections rfl).live
    have hlive : (liveSections sections').Perm (liveSections sections) := hperm.filter _
    have hown' := hown.perm hlive
    refine .some ⟨?_, ?_⟩
    · intro id
      apply Option.ext
      intro sec
      dsimp only
      rw [JsMap.get?_ofItems hown'.nodup, JsMap.get?_ofItems hown.nodup, hlive.mem_iff]
    · intro id
      apply Option.ext
      intro place
      dsimp only
      rw [get?_sectionPlaces hown'.nodup, get?_sectionPlaces hown.nodup, mem_sectionPlaces_perm hcollator hown hlive]

/-! ### Sections of a task -/

omit [Runtime] in
theorem getSequentialTaskSectionId_congr {a b : Option SequentialSectionOrder}
    (h : Option.Rel SameSectionOrder a b) (task : Task) :
    getSequentialTaskSectionId task a = getSequentialTaskSectionId task b := by
  unfold getSequentialTaskSectionId
  cases h with
  | none => rfl
  | some h =>
    dsimp only
    simp only [h.1]

omit [Runtime] in
theorem sectionRank_congr {a b : SequentialSectionOrder} (h : SameSectionOrder a b) (sectionId : Option String) :
    sectionRank a sectionId = sectionRank b sectionId := by
  unfold sectionRank
  rw [show a.rankById.get? = b.rankById.get? from funext h.2]

/-- The section that a task is in: a live one of its project. -/
theorem getSequentialTaskSectionId_some (hids : (sections.map (·.id)).Nodup) {task : Task} {sectionId : String}
    (h : getSequentialTaskSectionId task (buildSequentialSectionOrder (some sections)) = some sectionId) :
    sectionId ≠ "" ∧ ∃ sec ∈ liveSections sections, sec.id = sectionId ∧ sec.projectId = task.projectId := by
  obtain ⟨named, hnamed, hfound⟩ := Option.bind_eq_some_iff.1 h
  obtain ⟨sec, hsec, hown⟩ := Option.bind_eq_some_iff.1 hfound
  split at hown
  · rename_i hproject
    obtain rfl := Option.some.inj hown
    have hlive : ((liveSections sections).map (·.id)).Nodup := hids.sublist (List.filter_sublist.map _)
    obtain ⟨hmem, hid⟩ := (JsMap.get?_ofItems hlive).1 hsec
    refine ⟨?_, sec, hmem, rfl, hproject⟩
    have hne := (Option.filter_eq_some_iff.1 hnamed).2
    rw [hid]
    simpa using hne
  · cases hown

/-- Two tasks of a project whose sections have the same place are in the same section. -/
theorem sectionId_eq_of_rank (hids : HaveOwnSectionIds sections) {a b : Task}
    (hproject : a.projectId = b.projectId) (hbuild : buildSequentialSectionOrder (some sections) = some order)
    (hrank : sectionRank order (getSequentialTaskSectionId a (some order)) =
      sectionRank order (getSequentialTaskSectionId b (some order))) :
    getSequentialTaskSectionId a (some order) = getSequentialTaskSectionId b (some order) := by
  have hlive := hids.live.nodup
  have hranks : order.rankById = JsMap.ofList (sectionPlaces (liveSections sections)) := by
    rw [← Option.some.inj hbuild]
  -- the place of a section is a number
  have hplace : ∀ (task : Task) (sectionId : String),
      getSequentialTaskSectionId task (some order) = some sectionId →
      ∃ sec ∈ liveSections sections, sec.id = sectionId ∧ sec.projectId = task.projectId ∧ ∃ place : Nat,
        sectionRank order (some sectionId) = .finite place ∧
        (sortSequentialSections ((liveSections sections).filter fun other =>
          some (projectOfSection other) == some (projectOfSection sec)))[place]? = some sec := by
    intro task sectionId htask
    obtain ⟨hne, sec, hsec, hid, hown⟩ := getSequentialTaskSectionId_some hids.nodup (hbuild ▸ htask)
    have hmem : sec ∈ sortSequentialSections ((liveSections sections).filter fun other =>
        some (projectOfSection other) == some (projectOfSection sec)) :=
      (perm_sortSequentialSections _).mem_iff.2 (List.mem_filter.2 ⟨hsec, by simp⟩)
    obtain ⟨place, hplace⟩ := List.mem_iff_getElem?.1 hmem
    refine ⟨sec, hsec, hid, hown, place, ?_, hplace⟩
    have hget : (JsMap.ofList (sectionPlaces (liveSections sections))).get? sectionId = some place :=
      (get?_sectionPlaces hlive).2 (mem_sectionPlaces.2 ⟨sec, hsec, hid, hplace⟩)
    have hfilter : (some sectionId).filter (· != "") = some sectionId :=
      Option.filter_eq_some_iff.2 ⟨rfl, by simpa using hne⟩
    rw [sectionRank, hfilter, Option.bind_some, hranks, hget]
    rfl
  cases ha : getSequentialTaskSectionId a (some order) with
  | none =>
    cases hb : getSequentialTaskSectionId b (some order) with
    | none => rfl
    | some sectionId =>
      obtain ⟨_, -, -, -, place, hfinite, -⟩ := hplace b sectionId hb
      rw [ha, hb, hfinite] at hrank
      cases hrank
  | some sectionId =>
    obtain ⟨seca, hseca, hida, howna, placea, hfinitea, hplacea⟩ := hplace a sectionId ha
    cases hb : getSequentialTaskSectionId b (some order) with
    | none =>
      rw [ha, hb, hfinitea] at hrank
      cases hrank
    | some sectionId' =>
      obtain ⟨secb, hsecb, hidb, hownb, placeb, hfiniteb, hplaceb⟩ := hplace b sectionId' hb
      rw [ha, hb, hfinitea, hfiniteb] at hrank
      have hsame : placea = placeb := by
        have hnumbers := Number.finite.inj hrank
        exact_mod_cast hnumbers
      have hprojects : projectOfSection seca = projectOfSection secb := by
        unfold projectOfSection
        rw [howna, hownb, hproject]
      rw [hprojects, hsame] at hplacea
      rw [← hida, ← hidb, Option.some.inj (hplacea.symm.trans hplaceb)]

end

/-! ### The comparator -/

section
variable [LocalCalendar] {now : Int} {hasOrder : Bool} {sectionOrder : Option SequentialSectionOrder} {a b : Task}

omit [LocalCalendar] in
@[simp] theorem isNan_orInfinity (n : Option Rat) : (orInfinity n).isNan = false := by
  cases n <;> rfl

omit [LocalCalendar] in
theorem guardedMinus_of_numbers {m n : Number} (hm : m.isNan = false) (hn : n.isNan = false) :
    m.guardedMinus n = some (compare m.rank n.rank) := by
  rw [Number.guardedMinus_eq, hm, hn]
  rfl

omit [LocalCalendar] in
theorem rank_injective {m n : Number} (hm : m.isNan = false) (hn : n.isNan = false) (h : m.rank = n.rank) :
    m = n := by
  cases m <;> cases n <;> simp_all [Number.rank, Number.isNan]

theorem isNan_orderKey (task : Task) (hasOrder : Bool) : (getSequentialTaskOrderKey task hasOrder).isNan = false := by
  unfold getSequentialTaskOrderKey
  split <;> exact isNan_orInfinity _

theorem isNan_created (task : Task) : (safeTime task.createdAt .infinity).isNan = false := by
  unfold safeTime
  split
  · rfl
  · split
    · rfl
    · rename_i s _ _
      cases dateParse s <;> rfl

omit [LocalCalendar] in
theorem isNan_sectionPlace (sectionOrder : Option SequentialSectionOrder) (task : Task) :
    (sectionPlace sectionOrder task).isNan = false := by
  unfold sectionPlace
  split
  · rfl
  · exact isNan_orInfinity _

theorem isNan_scheduleTime (task : Task) (now : Int) : (getFocusSequentialScheduleKey task now).time.isNan = false := by
  unfold getFocusSequentialScheduleKey
  split
  · rfl
  · split <;> rfl

theorem compareSequentialTasks_eq :
    compareSequentialTasks a b hasOrder = some (lexOrder (manualKeys hasOrder) a b) := by
  have hchain : compareSequentialTasks a b hasOrder =
      firstDifference ((manualKeys hasOrder).map (·.difference a b)) := by
    simp only [compareSequentialTasks, manualKeys, List.map_cons, List.map_nil, guardedKey_difference]
    rfl
  rw [hchain]
  apply firstDifference_of_not_stops
  simp [manualKeys, StopsChain, guardedKey, idKey, totalKey, isNan_orderKey, isNan_created]

/-- Within a project, the comparator goes by the places of the sections and then by order, creation and id. -/
theorem compareSequentialManualHierarchy_eq (hproject : a.projectId = b.projectId)
    (hsection : ∀ order ∈ sectionOrder, sectionRank order (getSequentialTaskSectionId a sectionOrder) =
      sectionRank order (getSequentialTaskSectionId b sectionOrder) →
      getSequentialTaskSectionId a sectionOrder = getSequentialTaskSectionId b sectionOrder) :
    compareSequentialManualHierarchy a b hasOrder sectionOrder =
      some (lexOrder (guardedKey (sectionPlace sectionOrder) :: manualKeys hasOrder) a b) := by
  have hplaces := guardedMinus_of_numbers (isNan_sectionPlace sectionOrder a) (isNan_sectionPlace sectionOrder b)
  unfold compareSequentialManualHierarchy
  rw [lexOrder, compareSequentialTasks_eq]
  cases sectionOrder with
  | none =>
    have hself : compare (sectionPlace none a).rank (sectionPlace none b).rank = .eq := compare_eq_iff_eq.2 rfl
    simp [guardedKey, hself]
  | some order =>
    by_cases hrank : sectionRank order (getSequentialTaskSectionId a (some order)) =
        sectionRank order (getSequentialTaskSectionId b (some order))
    · have hself : compare (sectionPlace (some order) a).rank (sectionPlace (some order) b).rank = .eq :=
        compare_eq_iff_eq.2 (congrArg Number.rank hrank)
      have hsame := hsection order rfl hrank
      simp [guardedKey, hself, hproject, hsame]
    · have hminus : (sectionRank order (getSequentialTaskSectionId a (some order))).minus
          (sectionRank order (getSequentialTaskSectionId b (some order))) =
          some (compare (sectionPlace (some order) a).rank (sectionPlace (some order) b).rank) := by
        rw [← hplaces, Number.guardedMinus]
        exact (if_neg fun h => hrank h.1).symm
      have hne : compare (sectionPlace (some order) a).rank (sectionPlace (some order) b).rank ≠ .eq := by
        intro heq
        exact hrank (rank_injective (isNan_sectionPlace (some order) a) (isNan_sectionPlace (some order) b)
          (compare_eq_iff_eq.1 heq))
      simp only [hproject, ne_eq, not_true_eq_false, if_false, hrank, not_false_eq_true, if_true, hminus, guardedKey]
      cases horder : compare (sectionPlace (some order) a).rank (sectionPlace (some order) b).rank with
      | eq => exact absurd horder hne
      | lt => rfl
      | gt => rfl

theorem comesFirst_eq (hproject : a.projectId = b.projectId)
    (hsection : ∀ order ∈ sectionOrder, sectionRank order (getSequentialTaskSectionId a sectionOrder) =
      sectionRank order (getSequentialTaskSectionId b sectionOrder) →
      getSequentialTaskSectionId a sectionOrder = getSequentialTaskSectionId b sectionOrder) :
    comesFirst now hasOrder sectionOrder a b = (lexOrder (sequentialKeys now hasOrder sectionOrder) a b == .lt) := by
  have htimes := guardedMinus_of_numbers (isNan_scheduleTime a now) (isNan_scheduleTime b now)
  have hkeys : lexOrder (sequentialKeys now hasOrder sectionOrder) a b =
      (compare (getFocusSequentialScheduleKey a now).rank (getFocusSequentialScheduleKey b now).rank).then
        ((compare (getFocusSequentialScheduleKey a now).time.rank
          (getFocusSequentialScheduleKey b now).time.rank).then
          (lexOrder (guardedKey (sectionPlace sectionOrder) :: manualKeys hasOrder) a b)) := rfl
  unfold comesFirst
  dsimp only
  rw [compareSequentialManualHierarchy_eq hproject hsection, hkeys]
  generalize lexOrder (guardedKey (sectionPlace sectionOrder) :: manualKeys hasOrder) a b = rest
  cases hrank : compare (getFocusSequentialScheduleKey a now).rank (getFocusSequentialScheduleKey b now).rank with
  | lt =>
    have hlt := Nat.compare_eq_lt.1 hrank
    simp [hlt]
  | gt =>
    have hgt := Nat.compare_eq_gt.1 hrank
    have hne : (getFocusSequentialScheduleKey a now).rank ≠ (getFocusSequentialScheduleKey b now).rank := by omega
    simp [hne, Nat.not_lt.2 hgt.le]
  | eq =>
    have heq := Nat.compare_eq_eq.1 hrank
    rw [heq]
    by_cases htime : (getFocusSequentialScheduleKey a now).time = (getFocusSequentialScheduleKey b now).time
    · have hminus : (getFocusSequentialScheduleKey b now).time.minus (getFocusSequentialScheduleKey b now).time ≠
          some .lt := by
        cases (getFocusSequentialScheduleKey b now).time <;> simp [Number.minus]
      simp [htime, hminus]
    · have hminus : (getFocusSequentialScheduleKey a now).time.minus (getFocusSequentialScheduleKey b now).time =
          some (compare (getFocusSequentialScheduleKey a now).time.rank
            (getFocusSequentialScheduleKey b now).time.rank) := by
        rw [← htimes, Number.guardedMinus]
        exact (if_neg fun h => htime h.1).symm
      have hne : compare (getFocusSequentialScheduleKey a now).time.rank
          (getFocusSequentialScheduleKey b now).time.rank ≠ .eq := by
        intro h
        exact htime (rank_injective (isNan_scheduleTime a now) (isNan_scheduleTime b now) (compare_eq_iff_eq.1 h))
      rw [hminus]
      cases horder : compare (getFocusSequentialScheduleKey a now).time.rank
          (getFocusSequentialScheduleKey b now).time.rank with
      | eq => exact absurd horder hne
      | lt => simp
      | gt => simp [htime]

theorem isLawful_sequentialKeys (hcollator : Std.TransCmp compareTitles) :
    ∀ level ∈ sequentialKeys now hasOrder sectionOrder, IsLawful level := by
  intro level hlevel
  simp only [sequentialKeys, manualKeys, List.mem_cons, List.not_mem_nil, or_false] at hlevel
  rcases hlevel with rfl | rfl | rfl | rfl | rfl | rfl
  · exact isLawful_rankKey fun task => (getFocusSequentialScheduleKey task now).rank
  · exact isLawful_guardedKey _
  · exact isLawful_guardedKey _
  · exact isLawful_guardedKey _
  · exact isLawful_guardedKey _
  · exact isLawful_textKey hcollator fun task => task.id

end

/-! ### Groups and texts -/

section
variable [LocalCalendar] {tasks tasks' : List Task} {sequentialProjectIds : Finset String}
  {options : FocusSequentialOptions} {group : SequentialGroup} {task : Task}

omit [LocalCalendar] in
theorem eq_str_of_nonEmptyString {value : Option Json} {s : String} (h : nonEmptyString value = some s) :
    value = some (.str s) := by
  have hs := (Option.filter_eq_some_iff.1 h).1
  cases value with
  | none => cases hs
  | some value => cases value <;> simp_all [Json.asStr?]

theorem getSequentialTaskSectionId_ne_empty {sectionOrder : Option (List Section)} {sectionId : String}
    (h : getSequentialTaskSectionId task (buildSequentialSectionOrder sectionOrder) = some sectionId) :
    sectionId ≠ "" := by
  obtain ⟨named, hnamed, hfound⟩ := Option.bind_eq_some_iff.1 h
  have hne : named ≠ "" := by simpa using (Option.filter_eq_some_iff.mp hnamed).2
  cases sectionOrder with
  | none =>
    obtain rfl := Option.some.inj hfound
    exact hne
  | some sections =>
    obtain ⟨sec, hsec, hown⟩ := Option.bind_eq_some_iff.1 hfound
    have hid := (JsMap.mem_of_get?_ofItems hsec).2
    split at hown
    · obtain rfl := Option.some.inj hown
      rw [hid]
      exact hne
    · cases hown

/-- Tasks are collected under the texts of their groups. -/
theorem sequentialCandidateKey_eq (task : Task) :
    sequentialCandidateKey sequentialProjectIds options (buildSequentialSectionOrder options.sections) task =
      (sequentialGroup sequentialProjectIds options task).map SequentialGroup.key := by
  unfold sequentialCandidateKey sequentialGroup getSequentialTaskGroupKey
  cases nonEmptyString task.projectId with
  | none => rfl
  | some projectId =>
    have hsection : (getSequentialTaskSectionId task (buildSequentialSectionOrder options.sections)).filter (· != "") =
        getSequentialTaskSectionId task (buildSequentialSectionOrder options.sections) := by
      cases hid : getSequentialTaskSectionId task (buildSequentialSectionOrder options.sections) with
      | none => rfl
      | some sectionId =>
        exact Option.filter_eq_some_iff.2 ⟨rfl, by simpa using getSequentialTaskSectionId_ne_empty hid⟩
    have hproject : (∃ p ∈ some projectId, p ∈ sequentialProjectIds) ↔ projectId ∈ sequentialProjectIds := by
      simp
    rw [hsection]
    simp only [Option.map_some, hproject]
    split
    · cases h : decide (projectId ∈ sequentialProjectIds) && isFocusSequentialCandidate task options.now <;>
        simp [Option.filter, h, SequentialGroup.key]
    · cases h : decide (projectId ∈ sequentialProjectIds) && isFocusSequentialCandidate task options.now <;>
        simp [Option.filter, h, SequentialGroup.key]

theorem mem_firstTaskIds {id : String} :
    id ∈ getFocusSequentialFirstTaskIds tasks sequentialProjectIds options ↔ id ≠ "" ∧ ∃ text head,
      firstSequentialTask options.now (buildSequentialSectionOrder options.sections)
        (tasks.filter fun task =>
          (sequentialGroup sequentialProjectIds options task).map SequentialGroup.key == some text) = some head ∧
      head.id = id := by
  unfold getFocusSequentialFirstTaskIds
  simp only [List.mem_toFinset, List.mem_filterMap]
  constructor
  · rintro ⟨entry, hentry, hid⟩
    obtain ⟨hid, hne⟩ := Option.filter_eq_some_iff.1 hid
    obtain ⟨head, hhead, rfl⟩ := Option.map_eq_some_iff.1 hid
    obtain ⟨hgroup, -⟩ := JsMap.get?_groupBy_eq_some.1 ((JsMap.mem_entries_iff _ _).1 hentry)
    simp only [sequentialCandidateKey_eq] at hgroup
    exact ⟨by simpa using hne, entry.1, head, hgroup ▸ hhead, rfl⟩
  · rintro ⟨hne, text, head, hhead, rfl⟩
    refine ⟨(text, tasks.filter fun task =>
        (sequentialGroup sequentialProjectIds options task).map SequentialGroup.key == some text), ?_, ?_⟩
    · apply (JsMap.mem_entries_iff _ _).2
      apply JsMap.get?_groupBy_eq_some.2
      simp only [sequentialCandidateKey_eq, true_and]
      exact List.ne_nil_of_mem (keepFirst_mem hhead)
    · refine Option.filter_eq_some_iff.2 ⟨?_, by simpa using hne⟩
      rw [hhead]
      rfl

theorem mem_candidatesOf : task ∈ candidatesOf tasks sequentialProjectIds options group ↔
    task ∈ tasks ∧ sequentialGroup sequentialProjectIds options task = some group := by
  simp [candidatesOf]

/-- Where the texts tell the groups apart, what is collected under a text is a group. -/
theorem filter_text (htells : TellsGroups tasks sequentialProjectIds options) (hmem : task ∈ tasks)
    (hgroup : sequentialGroup sequentialProjectIds options task = some group) :
    (tasks.filter fun task =>
      (sequentialGroup sequentialProjectIds options task).map SequentialGroup.key == some group.key) =
      candidatesOf tasks sequentialProjectIds options group := by
  apply List.filter_congr
  intro other hother
  cases hown : sequentialGroup sequentialProjectIds options other with
  | none => rfl
  | some own =>
    have hiff : own.key = group.key ↔ own = group :=
      ⟨htells.keys other hother task hmem own group hown hgroup, fun h => h ▸ rfl⟩
    simp [hiff]

theorem sequentialGroup_project (h : sequentialGroup sequentialProjectIds options task = some group) :
    task.projectId = some (.str group.projectId) := by
  obtain ⟨projectId, hproject, rfl⟩ := Option.map_eq_some_iff.1 (Option.filter_eq_some_iff.1 h).1
  exact eq_str_of_nonEmptyString hproject

/-- Within a group the one pass compares by `sequentialKeys`. -/
theorem comesFirst_candidates (hsections : ∀ sections ∈ options.sections, HaveOwnSectionIds sections) {a b : Task}
    {hasOrder : Bool} (ha : a ∈ candidatesOf tasks sequentialProjectIds options group)
    (hb : b ∈ candidatesOf tasks sequentialProjectIds options group) :
    comesFirst options.now hasOrder (buildSequentialSectionOrder options.sections) a b =
      (lexOrder (sequentialKeys options.now hasOrder (buildSequentialSectionOrder options.sections)) a b == .lt) := by
  have hproject : a.projectId = b.projectId := by
    rw [sequentialGroup_project (mem_candidatesOf.1 ha).2, sequentialGroup_project (mem_candidatesOf.1 hb).2]
  apply comesFirst_eq hproject
  intro order horder hrank
  cases hopt : options.sections with
  | none =>
    rw [hopt] at horder
    cases horder
  | some sections =>
    rw [hopt] at horder hrank
    have hbuild : buildSequentialSectionOrder (some sections) = some order := horder
    rw [hbuild] at hrank ⊢
    exact sectionId_eq_of_rank (hsections sections hopt) hproject hbuild hrank

/-! ### Heads -/

theorem sequentialOrder_trans (hcollator : Std.TransCmp compareTitles) (tasks : List Task)
    (sequentialProjectIds : Finset String) (options : FocusSequentialOptions) (group : SequentialGroup) :
    Std.TransCmp (sequentialOrder tasks sequentialProjectIds options group) :=
  lexOrder_trans (isLawful_sequentialKeys hcollator)

theorem sequentialOrder_ne (hids : HaveOwnIds tasks) {a b : Task} (ha : a ∈ tasks) (hb : b ∈ tasks) (hab : a ≠ b) :
    sequentialOrder tasks sequentialProjectIds options group a b ≠ .eq :=
  lexOrder_ne_of_ids hids (by simp [sequentialKeys, manualKeys]) a ha b hb hab

theorem exists_isHead (hcollator : Std.TransCmp compareTitles) (hids : HaveOwnIds tasks)
    (hne : candidatesOf tasks sequentialProjectIds options group ≠ []) :
    ∃ head, IsHead tasks sequentialProjectIds options group head := by
  have hnodup : (candidatesOf tasks sequentialProjectIds options group).Nodup := hids.nodup.of_map.filter _
  have hdiffer : ∀ a ∈ candidatesOf tasks sequentialProjectIds options group,
      ∀ b ∈ candidatesOf tasks sequentialProjectIds options group, a ≠ b →
      sequentialOrder tasks sequentialProjectIds options group a b ≠ .eq :=
    fun a ha b hb hab => sequentialOrder_ne hids (mem_candidatesOf.1 ha).1 (mem_candidatesOf.1 hb).1 hab
  have htrans := sequentialOrder_trans hcollator tasks sequentialProjectIds options group
  have hsorted := isCanonical_insertionSort htrans hdiffer hnodup _ (List.Perm.refl _)
  obtain ⟨-, hperm, hpairwise⟩ := hsorted
  dsimp only at hperm hpairwise
  cases hsort : (candidatesOf tasks sequentialProjectIds options group).insertionSort
      fun a b => sequentialOrder tasks sequentialProjectIds options group a b ≠ .gt with
  | nil =>
    rw [hsort] at hperm
    exact absurd hperm.nil_eq.symm hne
  | cons head rest =>
    rw [hsort] at hperm hpairwise
    refine ⟨head, hperm.mem_iff.1 (by simp), ?_⟩
    intro other hother hdiffers
    rcases List.mem_cons.1 (hperm.mem_iff.2 hother) with rfl | hrest
    · exact absurd rfl hdiffers
    · exact List.rel_of_pairwise_cons hpairwise hrest

theorem IsHead.unique (hcollator : Std.TransCmp compareTitles) {a b : Task}
    (ha : IsHead tasks sequentialProjectIds options group a) (hb : IsHead tasks sequentialProjectIds options group b) :
    a = b := by
  by_contra hab
  have htrans := sequentialOrder_trans hcollator tasks sequentialProjectIds options group
  have hlt := ha.2 b hb.1 fun h => hab h.symm
  have hgt := Std.OrientedCmp.gt_iff_lt.2 (hb.2 a ha.1 hab)
  rw [hlt] at hgt
  cases hgt

/-- The one pass finds the first candidate of a group, if its id counts. -/
theorem firstSequentialTask_candidates (hcollator : Std.TransCmp compareTitles)
    (hsections : ∀ sections ∈ options.sections, HaveOwnSectionIds sections) {head : Task}
    (hhead : IsHead tasks sequentialProjectIds options group head) (hid : head.id ≠ "") :
    firstSequentialTask options.now (buildSequentialSectionOrder options.sections)
      (candidatesOf tasks sequentialProjectIds options group) = some head := by
  have htrans := sequentialOrder_trans hcollator tasks sequentialProjectIds options group
  apply keepFirst_eq_some hhead.1 (by simpa using hid)
  · intro other hother hdiffers
    rw [comesFirst_candidates hsections hhead.1 hother, beq_iff_eq]
    exact hhead.2 other hother hdiffers
  · intro other hother
    rw [comesFirst_candidates hsections hother hhead.1, beq_eq_false_iff_ne]
    intro hlt
    by_cases hsame : other = head
    · have hself : sequentialOrder tasks sequentialProjectIds options group head head = .eq := Std.ReflCmp.compare_self
      rw [hsame] at hlt
      cases hself.symm.trans hlt
    · have hgt := Std.OrientedCmp.gt_iff_lt.2 (hhead.2 other hother hsame)
      cases hgt.symm.trans hlt

/-- The ids that are found are those of the first candidates. -/
theorem mem_firstTaskIds_iff (hcollator : Std.TransCmp compareTitles) (hids : HaveOwnIds tasks)
    (hsections : ∀ sections ∈ options.sections, HaveOwnSectionIds sections)
    (htells : TellsGroups tasks sequentialProjectIds options) {id : String} :
    id ∈ getFocusSequentialFirstTaskIds tasks sequentialProjectIds options ↔
      ∃ group head, IsHead tasks sequentialProjectIds options group head ∧ head.id = id := by
  rw [mem_firstTaskIds]
  constructor
  · rintro ⟨-, text, head, hfirst, rfl⟩
    obtain ⟨hmem, htext⟩ := List.mem_filter.1 (keepFirst_mem hfirst)
    obtain ⟨group, hgroup, rfl⟩ := Option.map_eq_some_iff.1 (eq_of_beq htext)
    rw [filter_text htells hmem hgroup] at hfirst
    obtain ⟨least, hleast⟩ := exists_isHead hcollator hids
      (List.ne_nil_of_mem (mem_candidatesOf.2 ⟨hmem, hgroup⟩))
    rw [firstSequentialTask_candidates hcollator hsections hleast (htells.ids group least hleast)] at hfirst
    obtain rfl := Option.some.inj hfirst
    exact ⟨group, least, hleast, rfl⟩
  · rintro ⟨group, head, hhead, rfl⟩
    have hid := htells.ids group head hhead
    obtain ⟨hmem, hgroup⟩ := mem_candidatesOf.1 hhead.1
    refine ⟨hid, group.key, head, ?_, rfl⟩
    rw [filter_text htells hmem hgroup]
    exact firstSequentialTask_candidates hcollator hsections hhead hid

theorem findsHeads_of_tellsGroups (hcollator : Std.TransCmp compareTitles) (hids : HaveOwnIds tasks)
    (hsections : ∀ sections ∈ options.sections, HaveOwnSectionIds sections)
    (htells : TellsGroups tasks sequentialProjectIds options) : FindsHeads tasks sequentialProjectIds options where
  one := by
    intro group hne
    obtain ⟨head, hhead⟩ := exists_isHead hcollator hids hne
    refine ⟨head, hhead, ?_⟩
    intro task htask
    obtain ⟨hmem, hgroup⟩ := mem_candidatesOf.1 htask
    rw [mem_firstTaskIds_iff hcollator hids hsections htells]
    constructor
    · rintro ⟨group', head', hhead', hid⟩
      obtain ⟨hmem', hgroup'⟩ := mem_candidatesOf.1 hhead'.1
      obtain rfl := List.inj_on_of_nodup_map hids.nodup hmem' hmem hid
      obtain rfl := Option.some.inj (hgroup'.symm.trans hgroup)
      exact hhead'.unique hcollator hhead
    · rintro rfl
      exact ⟨group, task, hhead, rfl⟩
  others := by
    intro id hid
    obtain ⟨group, head, hhead, rfl⟩ := (mem_firstTaskIds_iff hcollator hids hsections htells).1 hid
    obtain ⟨hmem, hgroup⟩ := mem_candidatesOf.1 hhead.1
    exact ⟨head, hmem, rfl, by simp [hgroup]⟩

theorem tellsGroups_of_findsHeads (hcollator : Std.TransCmp compareTitles) (hids : HaveOwnIds tasks)
    (hfinds : FindsHeads tasks sequentialProjectIds options) : TellsGroups tasks sequentialProjectIds options where
  keys := by
    intro a ha b hb groupA groupB hgroupA hgroupB hkey
    obtain ⟨headA, hheadA, hfoundA⟩ := hfinds.one groupA (List.ne_nil_of_mem (mem_candidatesOf.2 ⟨ha, hgroupA⟩))
    obtain ⟨headB, hheadB, hfoundB⟩ := hfinds.one groupB (List.ne_nil_of_mem (mem_candidatesOf.2 ⟨hb, hgroupB⟩))
    -- both heads are what the one pass over their text has found
    have hpass : ∀ {group head}, IsHead tasks sequentialProjectIds options group head →
        head.id ∈ getFocusSequentialFirstTaskIds tasks sequentialProjectIds options →
        firstSequentialTask options.now (buildSequentialSectionOrder options.sections) (tasks.filter fun task =>
          (sequentialGroup sequentialProjectIds options task).map SequentialGroup.key == some group.key) = some head := by
      intro group head hhead hin
      obtain ⟨-, text, first, hfirst, hid⟩ := mem_firstTaskIds.1 hin
      obtain ⟨hmem, htext⟩ := List.mem_filter.1 (keepFirst_mem hfirst)
      obtain ⟨hmem', hgroup⟩ := mem_candidatesOf.1 hhead.1
      obtain rfl := List.inj_on_of_nodup_map hids.nodup hmem hmem' hid
      rw [hgroup] at htext
      obtain rfl : group.key = text := Option.some.inj (eq_of_beq htext)
      exact hfirst
    have hA := hpass hheadA ((hfoundA headA hheadA.1).2 rfl)
    have hB := hpass hheadB ((hfoundB headB hheadB.1).2 rfl)
    rw [hkey] at hA
    obtain rfl := Option.some.inj (hA.symm.trans hB)
    exact Option.some.inj ((mem_candidatesOf.1 hheadA.1).2.symm.trans (mem_candidatesOf.1 hheadB.1).2)
  ids := by
    intro group task htask hempty
    obtain ⟨head, hhead, hfound⟩ := hfinds.one group (List.ne_nil_of_mem htask.1)
    obtain rfl := htask.unique hcollator hhead
    exact (mem_firstTaskIds.1 ((hfound task htask.1).2 rfl)).1 hempty

/-! ### Other arrangements -/

variable {sections' : Option (List Section)}

theorem sequentialGroup_congr
    (horder : Option.Rel SameSectionOrder (buildSequentialSectionOrder sections')
      (buildSequentialSectionOrder options.sections)) (task : Task) :
    sequentialGroup sequentialProjectIds { options with sections := sections' } task =
      sequentialGroup sequentialProjectIds options task := by
  unfold sequentialGroup
  simp only [getSequentialTaskSectionId_congr horder]

theorem sequentialKeys_congr {a b : Option SequentialSectionOrder} (horder : Option.Rel SameSectionOrder a b)
    (now : Int) (hasOrder : Bool) : sequentialKeys now hasOrder a = sequentialKeys now hasOrder b := by
  have hplace : sectionPlace a = sectionPlace b := by
    funext task
    have hsection := getSequentialTaskSectionId_congr horder task
    unfold sectionPlace
    cases horder with
    | none => rfl
    | some h =>
      dsimp only
      rw [hsection, sectionRank_congr h]
  rw [sequentialKeys, sequentialKeys, hplace]

theorem candidatesOf_perm (sequentialProjectIds : Finset String) (group : SequentialGroup)
    (hperm : tasks'.Perm tasks)
    (horder : Option.Rel SameSectionOrder (buildSequentialSectionOrder sections')
      (buildSequentialSectionOrder options.sections)) :
    (candidatesOf tasks' sequentialProjectIds { options with sections := sections' } group).Perm
      (candidatesOf tasks sequentialProjectIds options group) := by
  unfold candidatesOf
  simp only [sequentialGroup_congr horder]
  exact hperm.filter _

theorem isHead_perm (hperm : tasks'.Perm tasks)
    (horder : Option.Rel SameSectionOrder (buildSequentialSectionOrder sections')
      (buildSequentialSectionOrder options.sections)) :
    IsHead tasks' sequentialProjectIds { options with sections := sections' } group task ↔
      IsHead tasks sequentialProjectIds options group task := by
  have hcandidates := candidatesOf_perm sequentialProjectIds group hperm horder
  have hsame : sequentialOrder tasks' sequentialProjectIds { options with sections := sections' } group =
      sequentialOrder tasks sequentialProjectIds options group := by
    have hany : hasSequentialOrder
        (candidatesOf tasks' sequentialProjectIds { options with sections := sections' } group) =
        hasSequentialOrder (candidatesOf tasks sequentialProjectIds options group) := hcandidates.any_eq
    unfold sequentialOrder
    rw [hany, sequentialKeys_congr horder]
  unfold IsHead
  rw [hsame]
  simp only [hcandidates.mem_iff]

theorem TellsGroups.perm (htells : TellsGroups tasks sequentialProjectIds options) (hperm : tasks'.Perm tasks)
    (horder : Option.Rel SameSectionOrder (buildSequentialSectionOrder sections')
      (buildSequentialSectionOrder options.sections)) :
    TellsGroups tasks' sequentialProjectIds { options with sections := sections' } where
  keys := by
    intro a ha b hb groupA groupB hgroupA hgroupB
    rw [sequentialGroup_congr horder] at hgroupA hgroupB
    exact htells.keys a (hperm.mem_iff.1 ha) b (hperm.mem_iff.1 hb) groupA groupB hgroupA hgroupB
  ids := by
    intro group task hhead
    exact htells.ids group task ((isHead_perm hperm horder).1 hhead)

omit [LocalCalendar] in
theorem rel_refl (sections : Option (List Section)) : Option.Rel List.Perm sections sections := by
  cases sections with
  | none => exact .none
  | some sections => exact .some (List.Perm.refl _)

theorem haveOwnSectionIds_rel {a b : Option (List Section)} (hids : ∀ sections ∈ a, HaveOwnSectionIds sections)
    (hrel : Option.Rel List.Perm b a) : ∀ sections ∈ b, HaveOwnSectionIds sections := by
  cases hrel with
  | none => simp
  | some hperm =>
    intro sections hsections
    obtain rfl := Option.some.inj hsections
    exact (hids _ rfl).perm hperm

theorem HaveOwnIds.perm (hids : HaveOwnIds tasks) (hperm : tasks'.Perm tasks) : HaveOwnIds tasks' where
  nodup := (hperm.map _).nodup_iff.2 hids.nodup
  told a ha b hb := hids.told a (hperm.mem_iff.1 ha) b (hperm.mem_iff.1 hb)

/-- For every arrangement of the tasks and the sections the same first tasks are found, and they are those of the
groups, exactly if the texts tell the groups apart. A context that was made before does not change an answer. -/
theorem focusHeads_canonical_iff (hcollator : Std.TransCmp compareTitles) (hids : HaveOwnIds tasks)
    (hsections : ∀ sections ∈ options.sections, HaveOwnSectionIds sections) :
    ((∀ tasks' sections', tasks'.Perm tasks → Option.Rel List.Perm sections' options.sections →
      getFocusSequentialFirstTaskIds tasks' sequentialProjectIds { options with sections := sections' } =
        getFocusSequentialFirstTaskIds tasks sequentialProjectIds options ∧
      FindsHeads tasks' sequentialProjectIds { options with sections := sections' }) ↔
        TellsGroups tasks sequentialProjectIds options) ∧
    ∀ (task : Task) (library : List Task) (projects : ProjectLookup) (sections : Option (List Section)) (now : Int),
      getTaskFocusEligibility task
          { tasks := library
            projects := .map (buildTaskFocusEligibilityContext library projects sections now).projects
            sections
            now
            sequentialProjectIds :=
              some (buildTaskFocusEligibilityContext library projects sections now).sequentialProjectIds
            sectionScopedProjectIds :=
              some (buildTaskFocusEligibilityContext library projects sections now).sectionScopedProjectIds
            sequentialFirstTaskIds :=
              some (buildTaskFocusEligibilityContext library projects sections now).sequentialFirstTaskIds } =
        getTaskFocusEligibility task { tasks := library, projects, sections, now } := by
  refine ⟨⟨?_, ?_⟩, fun _ _ _ _ _ => rfl⟩
  · intro hfinds
    exact tellsGroups_of_findsHeads hcollator hids (hfinds tasks options.sections (List.Perm.refl _) (rel_refl _)).2
  · intro htells tasks' sections' hperm hrel
    have horder := buildSequentialSectionOrder_perm hcollator hsections hrel
    have hids' := hids.perm hperm
    have hsections' := haveOwnSectionIds_rel hsections hrel
    have htells' := htells.perm hperm horder
    refine ⟨?_, findsHeads_of_tellsGroups hcollator hids' hsections' htells'⟩
    ext id
    rw [mem_firstTaskIds_iff hcollator hids' hsections' htells', mem_firstTaskIds_iff hcollator hids hsections htells]
    simp only [isHead_perm hperm horder]

end

/-! ### Two projects under one text -/

def nextTask (id projectId : String) (sectionId : Option Json) : Task :=
  { id := id, status := some (.str "next"), projectId := some (.str projectId), sectionId := sectionId }

/-- A task in a section of one project, and one in a project whose id reads like the two ids. -/
def sharedKeyTasks : List Task := [nextTask "t1" "a" (some (.str "b")), nextTask "t2" "a:b" none]

def sharedKeyOptions : FocusSequentialOptions :=
  { now := 0
    sectionScopedProjectIds := {"a"}
    sections := some [{ id := "b", projectId := some (.str "a") }] }

theorem haveOwnIds_sharedKey : @HaveOwnIds utcCalendar sharedKeyTasks :=
  @HaveOwnIds.mk utcCalendar _ (by decide +kernel) (by decide +kernel)

theorem haveOwnSectionIds_sharedKey :
    ∀ sections ∈ sharedKeyOptions.sections, @HaveOwnSectionIds utcCalendar.toRuntime sections := by
  intro sections hsections
  obtain rfl := Option.some.inj hsections
  exact @HaveOwnSectionIds.mk utcCalendar.toRuntime _ (by decide +kernel) (by decide +kernel)

theorem focusHeads_canonical_iff_sharedKey :
    let _ := utcCalendar
    (∀ tasks' sections', tasks'.Perm sharedKeyTasks → Option.Rel List.Perm sections' sharedKeyOptions.sections →
      getFocusSequentialFirstTaskIds tasks' {"a", "a:b"} { sharedKeyOptions with sections := sections' } =
        getFocusSequentialFirstTaskIds sharedKeyTasks {"a", "a:b"} sharedKeyOptions ∧
      FindsHeads tasks' {"a", "a:b"} { sharedKeyOptions with sections := sections' }) ↔
        TellsGroups sharedKeyTasks {"a", "a:b"} sharedKeyOptions :=
  (@focusHeads_canonical_iff utcCalendar _ _ _ transCmp_isoRuntime haveOwnIds_sharedKey
    haveOwnSectionIds_sharedKey).1

/-- Both projects are sequential, and each has one candidate; only one of the two is found. -/
theorem focusHeads_shared_key :
    let _ := utcCalendar
    (sharedKeyTasks.map (·.id)).Nodup ∧
      sharedKeyTasks.map (sequentialGroup {"a", "a:b"} sharedKeyOptions) =
        [some { projectId := "a", sectionId := some (some "b") }, some { projectId := "a:b" }] ∧
      getFocusSequentialFirstTaskIds sharedKeyTasks {"a", "a:b"} sharedKeyOptions = {"t1"} ∧
      ¬FindsHeads sharedKeyTasks {"a", "a:b"} sharedKeyOptions := by
  refine ⟨by decide +kernel, by decide +kernel, by decide +kernel, ?_⟩
  intro hfinds
  have htells := @tellsGroups_of_findsHeads utcCalendar _ _ _ transCmp_isoRuntime haveOwnIds_sharedKey hfinds
  have hsame := @TellsGroups.keys utcCalendar _ _ _ htells
    (nextTask "t1" "a" (some (.str "b"))) (by simp [sharedKeyTasks]) (nextTask "t2" "a:b" none) (by simp [sharedKeyTasks])
    { projectId := "a", sectionId := some (some "b") } { projectId := "a:b" }
    (by decide +kernel) (by decide +kernel) (by decide +kernel)
  exact absurd hsame (by decide)

end Mindwtr.Store
