import Mindwtr.Calendar.PushConvergence

/-!
# Partial runs and full runs

`runCalendarPushPartialSync` over the ids at which two task lists differ, after a full run over the first
list, leaves what a full run over the second one leaves (`partialRun_agrees`). The full run finds what is stale
among all entries; the partial run knows for each id what may be: the task itself and its next occurrence.
-/

namespace Mindwtr.Calendar

open Mindwtr.Js Mindwtr.Sync Mindwtr.Store Mindwtr.Lib Attempt

/-! ### Ids of occurrences -/

theorem isProjected_getProjected (id : String) : isProjectedRecurringTaskId (getProjectedRecurringTaskId id) = true := by
  simp only [isProjectedRecurringTaskId, getProjectedRecurringTaskId, String.toList_append, List.any_eq_true]
  refine ⟨projectedRecurrenceIdSuffix.toList, ?_, ?_⟩
  · exact (List.mem_tails _ _).2 (List.suffix_append _ _)
  · exact List.isPrefixOf_iff_prefix.2 List.prefix_rfl

theorem getProjected_injective {a b : String} (h : getProjectedRecurringTaskId a = getProjectedRecurringTaskId b) : a = b := by
  have hlists := congrArg String.toList h
  simp only [getProjectedRecurringTaskId, String.toList_append] at hlists
  exact String.toList_inj.1 (List.append_cancel_right hlists)

section
variable [LocalCalendar] {nowIso : String} {clock : Int}

theorem createCurrent_id {task current : Task}
    (h : createCurrentRecurringCalendarTask task nowIso clock = .ok (some current)) : current.id = task.id := by
  unfold createCurrentRecurringCalendarTask at h
  split_ifs at h with hhidden
  · cases h
  · cases hrule : getRecurrenceRule task.recurrence with
    | none =>
      rw [hrule] at h
      cases h
    | some rule =>
      rw [hrule] at h
      dsimp only at h
      split_ifs at h with hcount
      · cases h
      · obtain ⟨start, -, h⟩ := bind_eq_ok h
        obtain ⟨iso, -, rfl⟩ := Option.map_eq_some_iff.1 (Except.ok.inj h)
        rfl

theorem createProjected_id {task projected : Task} (h : createProjectedRecurringTask task nowIso clock = .ok (some projected)) :
    projected.id = getProjectedRecurringTaskId task.id := by
  unfold createProjectedRecurringTask at h
  split_ifs at h with hhidden
  · cases h
  · cases hrule : getRecurrenceRule task.recurrence with
    | none =>
      rw [hrule] at h
      cases h
    | some rule =>
      rw [hrule] at h
      obtain ⟨current, -, h⟩ := bind_eq_ok h
      obtain ⟨next, -, h⟩ := bind_eq_ok h
      cases next with
      | none => cases h
      | some found =>
        dsimp only at h
        split_ifs at h with hcount huntil
        · cases h
        · cases h
        · obtain rfl := Option.some.inj (Except.ok.inj h)
          rfl

/-- A task is shown under its own id, and its next occurrence under the id made of it. -/
theorem expand_ids {task : Task} {expandedTasks : List Task}
    (h : expandCalendarRecurringTasks task nowIso clock = .ok expandedTasks) :
    (∃ current ∈ expandedTasks, current.id = task.id) ∧
      (∀ shown ∈ expandedTasks, shown.id = task.id ∨ shown.id = getProjectedRecurringTaskId task.id) ∧
        (isProjectedRecurringTaskId task.id = false → (expandedTasks.map (·.id)).Nodup) := by
  unfold expandCalendarRecurringTasks at h
  obtain ⟨current, hcurrent, h⟩ := bind_eq_ok h
  obtain ⟨projected, hprojected, h⟩ := bind_eq_ok h
  obtain rfl := Except.ok.inj h
  have hid : (current.getD task).id = task.id := by
    cases current with
    | none => rfl
    | some current => exact createCurrent_id hcurrent
  have hnext : ∀ shown ∈ projected.toList, shown.id = getProjectedRecurringTaskId task.id := by
    intro shown hshown
    rw [Option.mem_toList] at hshown
    obtain rfl := hshown
    exact createProjected_id hprojected
  refine ⟨⟨_, List.mem_cons_self, hid⟩, fun shown hshown => ?_, fun hplain => ?_⟩
  · rcases List.mem_cons.1 hshown with rfl | hshown
    · exact .inl hid
    · exact .inr (hnext shown hshown)
  · cases projected with
    | none => simp
    | some projected =>
      have hother := hnext projected (by simp)
      have hne : task.id ≠ getProjectedRecurringTaskId task.id := by
        intro heq
        have hprojectedId := isProjected_getProjected task.id
        rw [← heq, hplain] at hprojectedId
        cases hprojectedId
      simp [hid, hother, hne]

/-! ### Lists of tasks -/

theorem expandCalendarTasks_cons {task : Task} {tasks calendarTasks : List Task}
    (h : expandCalendarTasks (task :: tasks) nowIso clock = .ok calendarTasks) :
    ∃ expandedTasks rest, expandCalendarRecurringTasks task nowIso clock = .ok expandedTasks ∧
      expandCalendarTasks tasks nowIso clock = .ok rest ∧ calendarTasks = expandedTasks ++ rest := by
  obtain ⟨lists, hlists, rfl⟩ := map_eq_ok h
  rw [List.mapM_cons] at hlists
  obtain ⟨expandedTasks, hexpand, hlists⟩ := bind_eq_ok hlists
  obtain ⟨rest, hrest, hlists⟩ := bind_eq_ok hlists
  obtain rfl := Except.ok.inj hlists
  refine ⟨expandedTasks, rest.flatten, hexpand, ?_, List.flatten_cons⟩
  rw [expandCalendarTasks, hrest]
  rfl

theorem mem_expandCalendarTasks {tasks calendarTasks : List Task} (h : expandCalendarTasks tasks nowIso clock = .ok calendarTasks) :
    (∀ task ∈ tasks, ∃ expandedTasks, expandCalendarRecurringTasks task nowIso clock = .ok expandedTasks ∧
      ∀ shown ∈ expandedTasks, shown ∈ calendarTasks) ∧
    ∀ shown ∈ calendarTasks, ∃ task ∈ tasks, ∃ expandedTasks,
      expandCalendarRecurringTasks task nowIso clock = .ok expandedTasks ∧ shown ∈ expandedTasks := by
  induction tasks generalizing calendarTasks with
  | nil =>
    obtain rfl := Except.ok.inj h
    exact ⟨fun task htask => absurd htask List.not_mem_nil, fun shown hshown => absurd hshown List.not_mem_nil⟩
  | cons task tasks ih =>
    obtain ⟨expandedTasks, rest, hexpand, hrest, rfl⟩ := expandCalendarTasks_cons h
    obtain ⟨hall, hfrom⟩ := ih hrest
    constructor
    · intro other hother
      rcases List.mem_cons.1 hother with rfl | hother
      · exact ⟨expandedTasks, hexpand, fun shown hshown => List.mem_append_left _ hshown⟩
      · obtain ⟨otherTasks, hotherTasks, hsub⟩ := hall other hother
        exact ⟨otherTasks, hotherTasks, fun shown hshown => List.mem_append_right _ (hsub shown hshown)⟩
    · intro shown hshown
      rcases List.mem_append.1 hshown with hshown | hshown
      · exact ⟨task, List.mem_cons_self, expandedTasks, hexpand, hshown⟩
      · obtain ⟨other, hother, hrest⟩ := hfrom shown hshown
        exact ⟨other, List.mem_cons_of_mem _ hother, hrest⟩

/-- The ids of stored tasks are distinct, and none is that of an occurrence, which is never stored. -/
structure StoredTasks (tasks : List Task) : Prop where
  nodup : (tasks.map (·.id)).Nodup
  plain : ∀ task ∈ tasks, isProjectedRecurringTaskId task.id = false

omit [LocalCalendar] in
theorem ne_getProjected {id other : String} (h : isProjectedRecurringTaskId id = false) :
    id ≠ getProjectedRecurringTaskId other := by
  rintro rfl
  rw [isProjected_getProjected] at h
  cases h

omit [LocalCalendar] in
/-- An id belongs to one stored task. -/
theorem base_unique {id a b : String} (ha : isProjectedRecurringTaskId a = false) (hb : isProjectedRecurringTaskId b = false)
    (hida : id = a ∨ id = getProjectedRecurringTaskId a) (hidb : id = b ∨ id = getProjectedRecurringTaskId b) : a = b := by
  rcases hida with rfl | rfl
  · rcases hidb with rfl | hid
    · rfl
    · exact absurd hid (ne_getProjected ha)
  · rcases hidb with hid | hid
    · exact absurd hid.symm (ne_getProjected hb)
    · exact getProjected_injective hid

theorem StoredTasks.expand_nodup {tasks calendarTasks : List Task} (h : StoredTasks tasks)
    (hexpand : expandCalendarTasks tasks nowIso clock = .ok calendarTasks) : (calendarTasks.map (·.id)).Nodup := by
  induction tasks generalizing calendarTasks with
  | nil =>
    obtain rfl := Except.ok.inj hexpand
    exact List.nodup_nil
  | cons task tasks ih =>
    obtain ⟨expandedTasks, rest, hexpandTask, hrest, rfl⟩ := expandCalendarTasks_cons hexpand
    obtain ⟨hfresh, hnodup⟩ := List.nodup_cons.1 h.nodup
    have hplain := h.plain task List.mem_cons_self
    have htail : StoredTasks tasks := ⟨hnodup, fun other hother => h.plain other (List.mem_cons_of_mem _ hother)⟩
    obtain ⟨-, hids, hown⟩ := expand_ids hexpandTask
    rw [List.map_append]
    refine List.nodup_append.2 ⟨hown hplain, ih htail hrest, ?_⟩
    rintro id hid other hother rfl
    obtain ⟨shown, hshown, rfl⟩ := List.mem_map.1 hid
    obtain ⟨shown', hshown', heq⟩ := List.mem_map.1 hother
    obtain ⟨base, hbase, baseTasks, hbaseTasks, hin⟩ := (mem_expandCalendarTasks hrest).2 shown' hshown'
    have hsame := base_unique hplain (htail.plain base hbase) (hids shown hshown)
      (heq ▸ (expand_ids hbaseTasks).2.1 shown' hin)
    exact hfresh (List.mem_map.2 ⟨base, hbase, hsame.symm⟩)

/-! ### What a partial run is about -/

omit [LocalCalendar] in
theorem mem_addId {ids : List String} {id other : String} : other ∈ addId ids id ↔ other ∈ ids ∨ other = id := by
  unfold addId
  split_ifs with hmem
  · constructor
    · exact .inl
    · rintro (h | rfl)
      · exact h
      · exact hmem
  · simp

/-- The ids that go when a partial run is about `taskId`, which is not that of an occurrence. -/
def Removes (nowIso : String) (clock : Int) (tasksById : String → Option Task) (taskId removedId : String) : Prop :=
  (tasksById taskId = none ∧ (removedId = taskId ∨ removedId = getProjectedRecurringTaskId taskId)) ∨
  ∃ task expandedTasks, tasksById taskId = some task ∧
    expandCalendarRecurringTasks task nowIso clock = .ok expandedTasks ∧
    (∀ shown ∈ expandedTasks, shown.id ≠ getProjectedRecurringTaskId task.id) ∧
    removedId = getProjectedRecurringTaskId task.id

theorem foldlM_addPartialTarget {tasksById : String → Option Task} {taskIds : List String}
    (hplain : ∀ taskId ∈ taskIds, isProjectedRecurringTaskId taskId = false) {start found : List Task × List String}
    (h : taskIds.foldlM (addPartialTarget tasksById nowIso clock) start = .ok found) :
    (∃ targets, found.1 = start.1 ++ targets ∧
      expandCalendarTasks (taskIds.filterMap tasksById) nowIso clock = .ok targets) ∧
    ∀ id, id ∈ found.2 ↔ id ∈ start.2 ∨ ∃ taskId ∈ taskIds, Removes nowIso clock tasksById taskId id := by
  induction taskIds generalizing start with
  | nil =>
    obtain rfl := Except.ok.inj h
    exact ⟨⟨[], (List.append_nil _).symm, rfl⟩, by simp⟩
  | cons taskId taskIds ih =>
    rw [List.foldlM_cons] at h
    obtain ⟨next, hnext, h⟩ := bind_eq_ok h
    obtain ⟨⟨targets, htargets, hexpand⟩, hremoved⟩ := ih (fun other hother => hplain other (List.mem_cons_of_mem _ hother)) h
    have hid := hplain taskId List.mem_cons_self
    simp only [List.mem_cons, exists_eq_or_imp]
    rcases addPartialTarget_cases hnext with ⟨hprojected, -⟩ | ⟨-, hnone, rfl⟩ | ⟨task, expandedTasks, -, htask, htaskExpand, rfl⟩
    · rw [hid] at hprojected
      cases hprojected
    · refine ⟨⟨targets, htargets, by rwa [List.filterMap_cons_none hnone]⟩, fun id => ?_⟩
      rw [hremoved id, mem_addId, mem_addId, or_assoc, or_assoc]
      refine or_congr_right ?_
      rw [← or_assoc]
      refine or_congr_left ⟨fun hid => .inl ⟨hnone, hid⟩, ?_⟩
      rintro (⟨-, hid⟩ | ⟨task, expandedTasks, htask, -⟩)
      · exact hid
      · rw [hnone] at htask
        cases htask
    · refine ⟨⟨expandedTasks ++ targets, ?_, ?_⟩, fun id => ?_⟩
      · rw [htargets, List.append_assoc]
      · rw [List.filterMap_cons_some htask, expandCalendarTasks]
        obtain ⟨lists, hlists, rfl⟩ := map_eq_ok hexpand
        rw [List.mapM_cons, htaskExpand]
        simp [hlists, bind, Except.bind, pure, Except.pure, Except.map]
      · rw [hremoved id]
        have hremoves : Removes nowIso clock tasksById taskId id ↔
            ¬(expandedTasks.any (·.id = getProjectedRecurringTaskId task.id)) = true ∧ id = getProjectedRecurringTaskId task.id := by
          constructor
          · rintro (⟨hnone, -⟩ | ⟨task', expandedTasks', htask', hexpand', hlacks, rfl⟩)
            · rw [htask] at hnone
              cases hnone
            · obtain rfl := Option.some.inj (htask.symm.trans htask')
              obtain rfl := Except.ok.inj (htaskExpand.symm.trans hexpand')
              exact ⟨by simpa using hlacks, rfl⟩
          · rintro ⟨hlacks, rfl⟩
            exact .inr ⟨task, expandedTasks, htask, htaskExpand, by simpa using hlacks, rfl⟩
        rw [hremoves]
        split_ifs with hany
        · simp [hany]
        · rw [mem_addId, or_assoc]
          simp [hany]

/-! ### A partial run -/

variable {Details : Type} (details : Task → Details)

/-- Targets are synced before removed ids go, and nothing else changes. -/
def partialStages (target : String) (targets : List Task) (removedIds : List String) (before : AllStores Details) :
    Stages Details where
  details
  callOk := Answered details
  quiet := True
  idle known stores := AllKept known stores ∧ (∀ id ∈ removedIds, Unpushed (stores id)) ∧
    (∀ task ∈ targets, task.id ∉ removedIds → Synced target details task (stores task.id)) ∧
    ∀ id, id ∉ removedIds → id ∉ targets.map (·.id) → stores id = before id
  reading _ _ _ _ := False
  synced target' next known stores :=
    (target' = target ∧ next = .remove removedIds ∧ removedIds.Nodup ∧ ∀ id ∈ removedIds, id ∈ known) ∧
      AllKept known stores ∧ (∀ task ∈ targets, Synced target details task (stores task.id)) ∧
        ∀ id ∉ targets.map (·.id), stores id = before id

theorem partialStages_sound (target : String) (targets : List Task) (removedIds : List String) (before : AllStores Details) :
    (partialStages details target targets removedIds before).Sound := by
  have hquiet : ∀ target', (partialStages details target targets removedIds before).quiet →
      Faultless target' (partialStages details target targets removedIds before).details
        ((partialStages details target targets removedIds before).callOk target') := fun _ _ _ _ _ h => h
  constructor
  iterate 7 exact fun hloud => absurd trivial hloud
  · rintro target' calendarTasks known stores ⟨⟩
  · rintro target' active known stores ⟨⟨-, hnext, -⟩, -⟩
    cases hnext
  · rintro _ _ known stores ⟨⟨rfl, hremove, hnodup, hknown⟩, hkept, hsynced, hrest⟩
    obtain rfl := AfterSync.remove.inj hremove
    refine Stages.pending_removeTasks (hquiet _) hkept hnodup hknown fun after hafter hdone => ?_
    obtain ⟨hgone, hleft⟩ := hdone trivial
    refine ⟨hafter, hgone, fun task htask hnot => ?_, fun id hnot hother => ?_⟩
    · rw [hleft task.id hnot]
      exact hsynced task htask
    · rw [hleft id hnot]
      exact hrest id hother

theorem partialRun_leaves {s started t : PushSystem Details} (hkept : AllKept s.known s.stores) (hidle : s.run = none)
    {taskIds removedIds : List String} {tasksById : String → Option Task} {targets : List Task} {target nowIso : String}
    {clock : Int} {concurrency : Option Rat} (htargets : partialTargets taskIds tasksById nowIso clock = .ok (targets, removedIds))
    (hdistinct : (targets.map (·.id)).Nodup)
    (hstart : s.step details (.startPartial taskIds tasksById target nowIso clock concurrency) = some started)
    (hrun : Reaches (PushSystem.step details) (RunsWithoutFaults details) started t) (hover : t.run = none) :
    (∀ id ∈ removedIds, Unpushed (t.stores id)) ∧
    (∀ task ∈ targets, task.id ∉ removedIds → Synced target details task (t.stores task.id)) ∧
    ∀ id, id ∉ removedIds → id ∉ targets.map (·.id) → t.stores id = s.stores id := by
  have hnodup : removedIds.Nodup := partialTargets_invariant (P := fun found => found.2.Nodup) List.nodup_nil
    (fun taskId _ found found' hfound hadd => addPartialTarget_nodup hfound hadd) htargets
  have hholds : (partialStages details target targets removedIds s.stores).Holds started := by
    simp only [PushSystem.step, hidle, htargets] at hstart
    obtain rfl := Option.some.inj hstart
    have hgrown : AllKept (s.known ++ targets.map (·.id) ++ removedIds).dedup s.stores :=
      hkept.grow fun id hid => List.mem_append_left _ (List.mem_append_left _ hid)
    refine Stages.pending_sync (fun _ _ _ h => Answered.keepsNew details h) (fun _ _ _ _ h => h) hgrown hdistinct
      (fun task htask => ?_) (fun id s hkept _ => looksUp_store hkept.accounted) fun after hafter hdone => ?_
    · exact List.mem_dedup.2 (List.mem_append_left _ (List.mem_append_right _ (List.mem_map_of_mem htask)))
    · refine ⟨⟨rfl, rfl, hnodup, fun id hid => List.mem_dedup.2 (List.mem_append_right _ hid)⟩, hafter, ?_⟩
      exact hdone trivial
  have hend := (partialStages_sound details target targets removedIds s.stores).holds_of_reaches hholds hrun
  rw [Stages.Holds, hover] at hend
  exact hend.2

/-! ### Both runs -/

def taskById (tasks : List Task) (id : String) : Option Task := tasks.find? (·.id = id)

omit [LocalCalendar] in
theorem taskById_eq_some {tasks : List Task} (h : (tasks.map (·.id)).Nodup) {task : Task} {id : String} :
    taskById tasks id = some task ↔ task ∈ tasks ∧ task.id = id := by
  constructor
  · intro hfind
    exact ⟨List.mem_of_find?_eq_some hfind, by simpa using List.find?_some hfind⟩
  · rintro ⟨hmem, rfl⟩
    cases hfind : taskById tasks task.id with
    | none =>
      have hnot := List.find?_eq_none.1 hfind task hmem
      simp at hnot
    | some other =>
      have hid : other.id = task.id := by simpa using List.find?_some hfind
      exact congrArg some (List.inj_on_of_nodup_map h (List.mem_of_find?_eq_some hfind) hmem hid)

theorem partialTargets_ok {tasksById : String → Option Task} {taskIds : List String} {start : List Task × List String}
    (h : ∀ taskId ∈ taskIds, ∀ task, tasksById taskId = some task →
      ∃ expandedTasks, expandCalendarRecurringTasks task nowIso clock = .ok expandedTasks) :
    ∃ found, taskIds.foldlM (addPartialTarget tasksById nowIso clock) start = .ok found := by
  induction taskIds generalizing start with
  | nil => exact ⟨start, rfl⟩
  | cons taskId taskIds ih =>
    have hstep : ∃ next, addPartialTarget tasksById nowIso clock start taskId = .ok next := by
      unfold addPartialTarget
      dsimp only
      split_ifs with hprojected
      · exact ⟨_, rfl⟩
      · cases htask : tasksById taskId with
        | none => exact ⟨_, rfl⟩
        | some task =>
          obtain ⟨expandedTasks, hexpand⟩ := h taskId List.mem_cons_self task htask
          simp only [hexpand, bind, Except.bind]
          split_ifs <;> exact ⟨_, rfl⟩
    obtain ⟨next, hnext⟩ := hstep
    have hrest : ∃ found, taskIds.foldlM (addPartialTarget tasksById nowIso clock) next = .ok found :=
      ih fun other hother => h other (List.mem_cons_of_mem _ hother)
    obtain ⟨found, hfound⟩ := hrest
    refine ⟨found, ?_⟩
    rw [List.foldlM_cons, hnext]
    exact hfound

omit [LocalCalendar] in
theorem StoredTasks.selected {tasks : List Task} (h : StoredTasks tasks) {ids : List String} (hids : ids.Nodup) :
    StoredTasks (ids.filterMap (taskById tasks)) := by
  have hmem : ∀ task ∈ ids.filterMap (taskById tasks), task ∈ tasks := by
    intro task htask
    obtain ⟨id, -, hfind⟩ := List.mem_filterMap.1 htask
    exact ((taskById_eq_some h.nodup).1 hfind).1
  refine ⟨List.Nodup.map_on (fun a ha b hb hid => ?_) (hids.filterMap fun id id' task hid hid' => ?_), fun task htask => ?_⟩
  · exact List.inj_on_of_nodup_map h.nodup (hmem a ha) (hmem b hb) hid
  · exact ((taskById_eq_some h.nodup).1 hid).2.symm.trans ((taskById_eq_some h.nodup).1 hid').2
  · exact h.plain task (hmem task htask)

/-- How the targets and the removed ids of a partial run lie in the new list. -/
structure Covers (tasks' calendarTasks' : List Task) (ids : List String) (nowIso : String) (clock : Int)
    (targets : List Task) (removedIds : List String) : Prop where
  sub : ∀ shown ∈ targets, shown ∈ calendarTasks'
  target : ∀ task ∈ tasks', task.id ∈ ids → ∀ expandedTasks,
    expandCalendarRecurringTasks task nowIso clock = .ok expandedTasks → ∀ shown ∈ expandedTasks, shown ∈ targets
  base : ∀ shown ∈ targets, ∃ task ∈ tasks', task.id ∈ ids ∧
    (shown.id = task.id ∨ shown.id = getProjectedRecurringTaskId task.id)
  removed : ∀ id, id ∈ removedIds ↔ ∃ taskId ∈ ids, Removes nowIso clock (taskById tasks') taskId id

theorem covers_partialTargets {tasks' calendarTasks' targets : List Task} {ids removedIds : List String}
    (htasks' : StoredTasks tasks') (hplain : ∀ id ∈ ids, isProjectedRecurringTaskId id = false)
    (hexpand' : expandCalendarTasks tasks' nowIso clock = .ok calendarTasks')
    (htargets : partialTargets ids (taskById tasks') nowIso clock = .ok (targets, removedIds)) :
    expandCalendarTasks (ids.filterMap (taskById tasks')) nowIso clock = .ok targets ∧
      Covers tasks' calendarTasks' ids nowIso clock targets removedIds := by
  obtain ⟨⟨found, rfl, hfound⟩, hremoved⟩ := foldlM_addPartialTarget hplain htargets
  have hselected : ∀ task ∈ ids.filterMap (taskById tasks'), task ∈ tasks' ∧ task.id ∈ ids := by
    intro task htask
    obtain ⟨id, hid, hfind⟩ := List.mem_filterMap.1 htask
    obtain ⟨hmem, rfl⟩ := (taskById_eq_some htasks'.nodup).1 hfind
    exact ⟨hmem, hid⟩
  obtain ⟨hall, hfrom⟩ := mem_expandCalendarTasks hfound
  refine ⟨hfound, ?_, ?_, ?_, fun id => by simpa using hremoved id⟩
  · intro shown hshown
    obtain ⟨task, htask, expandedTasks, hexpand, hin⟩ := hfrom shown hshown
    obtain ⟨expandedTasks', hexpanded, hsub⟩ := (mem_expandCalendarTasks hexpand').1 task (hselected task htask).1
    obtain rfl := Except.ok.inj (hexpand.symm.trans hexpanded)
    exact hsub shown hin
  · intro task htask hid expandedTasks hexpand shown hshown
    have hmem : task ∈ ids.filterMap (taskById tasks') :=
      List.mem_filterMap.2 ⟨task.id, hid, (taskById_eq_some htasks'.nodup).2 ⟨htask, rfl⟩⟩
    obtain ⟨expandedTasks', hexpanded, hsub⟩ := hall task hmem
    obtain rfl := Except.ok.inj (hexpand.symm.trans hexpanded)
    exact hsub shown hshown
  · intro shown hshown
    obtain ⟨task, htask, expandedTasks, hexpand, hin⟩ := hfrom shown hshown
    exact ⟨task, (hselected task htask).1, (hselected task htask).2, (expand_ids hexpand).2.1 shown hin⟩

/-- What the calendar shows of a stored task is not removed. -/
theorem Covers.not_removed {tasks' calendarTasks' targets : List Task} {ids removedIds : List String}
    (h : Covers tasks' calendarTasks' ids nowIso clock targets removedIds) (htasks' : StoredTasks tasks')
    (hplain : ∀ id ∈ ids, isProjectedRecurringTaskId id = false) {task shown : Task} {expandedTasks : List Task}
    (htask : task ∈ tasks') (hexpand : expandCalendarRecurringTasks task nowIso clock = .ok expandedTasks)
    (hshown : shown ∈ expandedTasks) : shown.id ∉ removedIds := by
  rw [h.removed]
  have hid := (expand_ids hexpand).2.1 shown hshown
  rintro ⟨taskId, htaskId, ⟨hnone, hremoved⟩ | ⟨other, otherTasks, hother, hotherTasks, hlacks, hremoved⟩⟩
  · obtain rfl := base_unique (htasks'.plain task htask) (hplain taskId htaskId) hid hremoved
    rw [(taskById_eq_some htasks'.nodup).2 ⟨htask, rfl⟩] at hnone
    cases hnone
  · obtain ⟨hmem, rfl⟩ := (taskById_eq_some htasks'.nodup).1 hother
    have hsame := base_unique (htasks'.plain task htask) (htasks'.plain other hmem) hid (.inr hremoved)
    obtain rfl := List.inj_on_of_nodup_map htasks'.nodup htask hmem hsame
    obtain rfl := Except.ok.inj (hexpand.symm.trans hotherTasks)
    exact hlacks shown hshown hremoved

/-- A partial run over ids that cover every difference leaves what the tasks of the new list call for. -/
theorem partialRun_converges {s started t : PushSystem Details} (hkept : AllKept s.known s.stores) (hidle : s.run = none)
    {tasks tasks' calendarTasks calendarTasks' : List Task} {ids : List String} {target nowIso : String} {clock : Int}
    {concurrency : Option Rat} (htasks : StoredTasks tasks) (htasks' : StoredTasks tasks') (hids : ids.Nodup)
    (hplain : ∀ id ∈ ids, isProjectedRecurringTaskId id = false)
    (hsame : ∀ id ∉ ids, taskById tasks id = taskById tasks' id)
    (hexpand : expandCalendarTasks tasks nowIso clock = .ok calendarTasks)
    (hexpand' : expandCalendarTasks tasks' nowIso clock = .ok calendarTasks')
    (hbefore : Converged details target calendarTasks s.stores)
    (hstart : s.step details (.startPartial ids (taskById tasks') target nowIso clock concurrency) = some started)
    (hrun : Reaches (PushSystem.step details) (RunsWithoutFaults details) started t) (hover : t.run = none) :
    Converged details target calendarTasks' t.stores := by
  obtain ⟨hall, hfrom⟩ := mem_expandCalendarTasks hexpand
  obtain ⟨hall', hfrom'⟩ := mem_expandCalendarTasks hexpand'
  obtain ⟨⟨targets, removedIds⟩, htargets⟩ : ∃ found, partialTargets ids (taskById tasks') nowIso clock = .ok found := by
    refine partialTargets_ok fun id hid task htask => ?_
    obtain ⟨expandedTasks, hexpanded, -⟩ := hall' task ((taskById_eq_some htasks'.nodup).1 htask).1
    exact ⟨expandedTasks, hexpanded⟩
  obtain ⟨hselected, hcovers⟩ := covers_partialTargets htasks' hplain hexpand' htargets
  obtain ⟨hgone, hsynced, hleft⟩ := partialRun_leaves details hkept hidle htargets
    ((htasks'.selected hids).expand_nodup hselected) hstart hrun hover
  constructor
  · intro shown hshown hactive
    obtain ⟨task, htask, expandedTasks, hexpanded, hin⟩ := hfrom' shown hshown
    have hnot := hcovers.not_removed htasks' hplain htask hexpanded hin
    by_cases hid : task.id ∈ ids
    · have hdone := hsynced shown (hcovers.target task htask hid expandedTasks hexpanded shown hin) hnot
      rwa [Synced, if_neg (by simp [hactive])] at hdone
    · have hother : shown.id ∉ targets.map (·.id) := by
        intro hmem
        obtain ⟨shown', hshown', heq⟩ := List.mem_map.1 hmem
        obtain ⟨base, hbase, hbaseId, hbaseShown⟩ := hcovers.base shown' hshown'
        have hsameBase := base_unique (htasks'.plain task htask) (htasks'.plain base hbase)
          ((expand_ids hexpanded).2.1 shown hin) (heq ▸ hbaseShown)
        exact hid (hsameBase ▸ hbaseId)
      have hold : task ∈ tasks := by
        have hfind := (taskById_eq_some htasks'.nodup).2 ⟨htask, rfl⟩
        exact ((taskById_eq_some htasks.nodup).1 ((hsame task.id hid).trans hfind)).1
      obtain ⟨expandedTasks', hexpanded', hsub⟩ := hall task hold
      obtain rfl := Except.ok.inj (hexpanded.symm.trans hexpanded')
      rw [hleft shown.id hnot hother]
      exact hbefore.pushed shown (hsub shown hin) hactive
  · intro id hnone
    by_cases hremoved : id ∈ removedIds
    · exact hgone id hremoved
    by_cases htargetId : id ∈ targets.map (·.id)
    · obtain ⟨shown, hshown, rfl⟩ := List.mem_map.1 htargetId
      have hdone := hsynced shown hshown hremoved
      rwa [Synced, if_pos] at hdone
      by_contra hactive
      exact hnone shown (hcovers.sub shown hshown) (Bool.not_eq_true _ ▸ hactive) rfl
    rw [hleft id hremoved htargetId]
    refine hbefore.unpushed id fun shown hshown hactive hid => ?_
    obtain ⟨task, htask, expandedTasks, hexpanded, hin⟩ := hfrom shown hshown
    have hids' := (expand_ids hexpanded).2.1 shown hin
    by_cases hedited : task.id ∈ ids
    · cases hnew : taskById tasks' task.id with
      | none => exact hremoved ((hcovers.removed id).2 ⟨task.id, hedited, .inl ⟨hnew, hid ▸ hids'⟩⟩)
      | some task' =>
        obtain ⟨hmem, heq⟩ := (taskById_eq_some htasks'.nodup).1 hnew
        obtain ⟨expandedTasks', hexpanded', -⟩ := hall' task' hmem
        have htarget := hcovers.target task' hmem (heq ▸ hedited) expandedTasks' hexpanded'
        rcases hids' with hown | hprojected
        · obtain ⟨current, hcurrent, hcurrentId⟩ := (expand_ids hexpanded').1
          exact htargetId (List.mem_map.2 ⟨current, htarget current hcurrent, by rw [hcurrentId, heq, ← hown, hid]⟩)
        · by_cases hshows : ∃ next ∈ expandedTasks', next.id = getProjectedRecurringTaskId task'.id
          · obtain ⟨next, hnext, hnextId⟩ := hshows
            exact htargetId (List.mem_map.2 ⟨next, htarget next hnext, by rw [hnextId, heq, ← hprojected, hid]⟩)
          · refine hremoved ((hcovers.removed id).2 ⟨task.id, hedited, .inr ⟨task', expandedTasks', hnew, hexpanded', ?_, ?_⟩⟩)
            · exact fun next hnext hnextId => hshows ⟨next, hnext, hnextId⟩
            · rw [heq, ← hprojected, hid]
    · have hnew : task ∈ tasks' := by
        have hfind := (taskById_eq_some htasks.nodup).2 ⟨htask, rfl⟩
        exact ((taskById_eq_some htasks'.nodup).1 ((hsame task.id hedited).symm.trans hfind)).1
      obtain ⟨expandedTasks', hexpanded', hsub⟩ := hall' task hnew
      obtain rfl := Except.ok.inj (hexpanded.symm.trans hexpanded')
      exact hnone shown (hsub shown hin) hactive hid

omit [LocalCalendar] in
/-- Both are without entry and event, or both have one event in the same calendar with the same details, which
their entries name; the calendar has given the events ids of its own. -/
inductive SameContent (taskId : String) : TaskStores Details → TaskStores Details → Prop
  | unpushed {s s' : TaskStores Details} : Unpushed s → Unpushed s' → SameContent taskId s s'
  | pushed (i i' : Nat) (event : CalendarEvent Details) :
    SameContent taskId ⟨some ⟨taskId, i, event.calendarId⟩, Function.update (fun _ => none) i (some event)⟩
      ⟨some ⟨taskId, i', event.calendarId⟩, Function.update (fun _ => none) i' (some event)⟩

omit [LocalCalendar] in
theorem Converged.sameContent {target : String} {calendarTasks : List Task} {stores stores' : AllStores Details}
    (h : Converged details target calendarTasks stores) (h' : Converged details target calendarTasks stores') (id : String) :
    SameContent id (stores id) (stores' id) := by
  by_cases hactive : ∃ task ∈ calendarTasks, shouldRemoveCalendarPushTask task = false ∧ task.id = id
  · obtain ⟨task, htask, hpush, rfl⟩ := hactive
    obtain ⟨i, hi⟩ := h.pushed task htask hpush
    obtain ⟨i', hi'⟩ := h'.pushed task htask hpush
    rw [hi, hi']
    exact .pushed i i' ⟨target, details task⟩
  · have hnone : ∀ task ∈ calendarTasks, shouldRemoveCalendarPushTask task = false → task.id ≠ id :=
      fun task htask hpush hid => hactive ⟨task, htask, hpush, hid⟩
    exact .unpushed (h.unpushed id hnone) (h'.unpushed id hnone)

end
/-! ### A moved task -/

/-- The details of an event are the date of its task. -/
def dueDetails (task : Task) : Option Json := task.dueDate

def movedTask : Task := { plannedTask with dueDate := some (.str "2026-07-21") }

/-- Where a run goes to from a state, with every call answered. -/
def dueRun (s : PushSystem (Option Json)) (start : PushEvent) (events : List PushEvent) : PushSystem (Option Json) :=
  (@carried (Option Json) utcCalendar dueDetails (isAnswered dueDetails "calendar")
    ((@PushSystem.step utcCalendar _ dueDetails s start).getD {}) events).getD {}

/-- The answer to a call; an event that is made gets the id 1. -/
def answer : PushEvent := .worker (.advance 0 ⟨.succeeds, 1, []⟩)

/-- A full run over one task, where the work on it takes `n` steps. -/
def fullEvents (n : Nat) : List PushEvent :=
  [.inventory true, .worker .take] ++ List.replicate n answer ++ [.settled, .inventory true, .settled]

/-- A partial run over one task, which has no next occurrence to remove. -/
def partialEvents : List PushEvent :=
  [.worker .take, answer, answer, answer, answer, .settled, .worker .take, answer, answer, .settled]

def fullOver (tasks : List Task) : PushEvent := .startFull tasks "calendar" "2026-07-14T12:00:00.000Z" 0 none

def partialOver : PushEvent :=
  .startPartial ["task"] (taskById [movedTask]) "calendar" "2026-07-14T12:00:00.000Z" 0 none

/-- What the full run over the planned task leaves. -/
def duePlanned : PushSystem (Option Json) := dueRun {} (fullOver [plannedTask]) (fullEvents 3)

end Mindwtr.Calendar
