import Mindwtr.Calendar.PushStages

/-!
# A full run after any history

The stages of any history in which no entry of a new event is lost (`historyStages`), and those of a full run
that nothing disturbs (`fullStages`). After both, the calendars and the entries are exactly what the tasks of
the run call for (`fullRun_converges`).
-/

namespace Mindwtr.Calendar

open Mindwtr.Js Mindwtr.Sync Mindwtr.Store Mindwtr.Lib Attempt

section
variable {Details : Type}

/-- Accounted for, and known where there is an entry. -/
structure Kept (known : List String) (id : String) (s : TaskStores Details) : Prop where
  accounted : Accounted id s
  known : ∀ entry, s.entry = some entry → id ∈ known

structure AllKept (known : List String) (stores : AllStores Details) : Prop where
  nodup : known.Nodup
  kept : ∀ id, Kept known id (stores id)

theorem Kept.deleteEvents {known : List String} {id : String} {s : TaskStores Details} (h : Kept known id s)
    (deleted : List Nat) : Kept known id (s.deleteEvents deleted) := ⟨h.accounted.deleteEvents deleted, h.known⟩

variable {known : List String} {stores : AllStores Details}

theorem AllKept.update (h : AllKept known stores) {id : String} {s : TaskStores Details} (hs : Kept known id s) :
    AllKept known (Function.update stores id s) := by
  refine ⟨h.nodup, fun other => ?_⟩
  by_cases hid : other = id
  · subst hid
    rwa [Function.update_self]
  · rw [Function.update_of_ne hid]
    exact h.kept other

theorem AllKept.grow (h : AllKept known stores) {more : List String} (hmore : ∀ id ∈ known, id ∈ more) :
    AllKept more.dedup stores := by
  refine ⟨List.nodup_dedup more, fun id => ⟨(h.kept id).accounted, fun entry hentry => ?_⟩⟩
  exact List.mem_dedup.2 (hmore id ((h.kept id).known entry hentry))

theorem mem_allSyncEntries (h : AllKept known stores) {entry : CalendarSyncEntry} :
    entry ∈ allSyncEntries known stores ↔ (stores entry.taskId).entry = some entry := by
  rw [allSyncEntries, List.mem_filterMap]
  constructor
  · rintro ⟨id, -, hentry⟩
    rwa [(h.kept id).accounted.own entry hentry]
  · intro hentry
    exact ⟨entry.taskId, (h.kept _).known entry hentry, hentry⟩

theorem entryOf_allSyncEntries (h : AllKept known stores) (id : String) :
    entryOf (allSyncEntries known stores) id = (stores id).entry := by
  cases hfind : entryOf (allSyncEntries known stores) id with
  | some entry =>
    have hmem := (mem_allSyncEntries h).1 (List.mem_of_find?_eq_some hfind)
    have hid : entry.taskId = id := by simpa using List.find?_some hfind
    rw [← hid, hmem]
  | none =>
    cases hentry : (stores id).entry with
    | none => rfl
    | some entry =>
      have hid := (h.kept id).accounted.own entry hentry
      have hmem := (mem_allSyncEntries h).2 (hid.symm ▸ hentry)
      exact absurd (by simpa using hid) (List.find?_eq_none.1 hfind entry hmem)

theorem map_allSyncEntries (hown : ∀ id entry, (stores id).entry = some entry → entry.taskId = id) (known : List String) :
    (allSyncEntries known stores).map (·.taskId) = known.filter fun id => (stores id).entry.isSome := by
  induction known with
  | nil => rfl
  | cons id known ih =>
    unfold allSyncEntries at ih ⊢
    cases hentry : (stores id).entry with
    | none => simpa [List.filterMap_cons, List.filter_cons, hentry] using ih
    | some entry => simpa [List.filterMap_cons, List.filter_cons, hentry, hown id entry hentry] using ih

theorem nodup_allSyncEntries (h : AllKept known stores) : ((allSyncEntries known stores).map (·.taskId)).Nodup := by
  rw [map_allSyncEntries fun id entry hentry => (h.kept id).accounted.own entry hentry]
  exact h.nodup.filter _

/-! ### Jobs -/

theorem EndsWith.mono {A : Type} {target id : String} {details : Task → Details}
    {ok : (op : PushCall) → PushChoice → TaskStores Details → Prop} {aim aim' : TaskStores Details → Prop} {x : Push A}
    {s : TaskStores Details} (h : EndsWith target details ok id aim x s) (haim : ∀ s, aim s → aim' s) :
    EndsWith target details ok id aim' x s := by
  refine Calls.Ends.mono h ?_
  rintro (e | a) t ht
  · exact ht
  · exact ⟨ht.1, fun hfaultless => haim t (ht.2 hfaultless)⟩

namespace Stages

variable {S : Stages Details} {target : String}

/-- Jobs of different tasks, each of which leaves its task as its aim says. -/
theorem pending_jobs (hquiet : S.quiet → Faultless target S.details (S.callOk target)) (h : AllKept known stores)
    (aim : String → TaskStores Details → Prop) {jobs : List (String × Push Unit)} (hnodup : (jobs.map Prod.fst).Nodup) (hknown : ∀ job ∈ jobs, job.1 ∈ known)
    (hjobs : ∀ job ∈ jobs, ∀ s, Kept known job.1 s → s.entry = (stores job.1).entry →
      EndsWith target S.details (S.callOk target) job.1 (aim job.1) job.2 s)
    {post : AllStores Details → Prop}
    (hpost : ∀ after, AllKept known after →
      (S.quiet → (∀ id ∈ jobs.map Prod.fst, aim id (after id)) ∧ ∀ id ∉ jobs.map Prod.fst, after id = stores id) →
        post after) :
    S.Pending target (runLimitedSettled jobs) post stores := by
  have hkeys : (jobs.map fun runner => (runner.1, runner.2.run)).map Prod.fst = jobs.map Prod.fst := by
    rw [List.map_map]
    rfl
  refine ⟨fun id s => Kept known id s ∧ s.entry = (stores id).entry,
    fun id s => Kept known id s ∧ (S.quiet → (id ∈ jobs.map Prod.fst → aim id s) ∧ (id ∉ jobs.map Prod.fst → s = stores id)),
    ?_, ?_, WorkerPool.Inv.start ?_ ?_ ?_ ?_, ?_⟩
  · intro hloud id s deleted hs
    exact ⟨hs.1.deleteEvents deleted, hs.2⟩
  · intro hloud id s deleted hs
    exact ⟨hs.1.deleteEvents deleted, fun hq => absurd hq hloud⟩
  · rwa [hkeys]
  · intro job hjob
    exact ⟨h.kept job.1, rfl⟩
  · rintro job hjob s ⟨hkept, hentry⟩
    obtain ⟨runner, hrunner, rfl⟩ := List.mem_map.1 hjob
    have hid : runner.1 ∈ jobs.map Prod.fst := List.mem_map_of_mem hrunner
    refine Calls.Ends.mono (hjobs runner hrunner s hkept hentry) ?_
    rintro (e | a) t ht
    · exact ⟨⟨ht.1, fun _ _ => hknown runner hrunner⟩, fun hq => absurd (hquiet hq) ht.2⟩
    · exact ⟨⟨ht.1, fun _ _ => hknown runner hrunner⟩, fun hq => ⟨fun _ => ht.2 (hquiet hq), fun hnot => absurd hid hnot⟩⟩
  · intro id hid
    rw [hkeys] at hid
    exact ⟨h.kept id, fun hq => ⟨fun hmem => absurd hmem hid, fun _ => rfl⟩⟩
  · intro after hafter
    refine hpost after ⟨h.nodup, fun id => (hafter id).1⟩ fun hq => ⟨fun id => ?_, fun id => ?_⟩
    · exact ((hafter id).2 hq).1
    · exact ((hafter id).2 hq).2

/-- The tasks with different ids that a run is about are synced, and nothing else is done. -/
theorem pending_sync (hkeeps : ∀ op choice s, S.callOk target op choice s → KeepsNew op choice s)
    (hquiet : S.quiet → Faultless target S.details (S.callOk target)) (h : AllKept known stores) {tasks : List Task}
    (hnodup : (tasks.map (·.id)).Nodup) (hknown : ∀ task ∈ tasks, task.id ∈ known)
    {getSyncEntry : String → Push (Option CalendarSyncEntry)}
    (hlooks : ∀ id s, Kept known id s → s.entry = (stores id).entry →
      LooksUp target S.details (S.callOk target) getSyncEntry id s)
    {post : AllStores Details → Prop}
    (hpost : ∀ after, AllKept known after →
      (S.quiet → (∀ task ∈ tasks, Synced target S.details task (after task.id)) ∧
        ∀ id ∉ tasks.map (·.id), after id = stores id) → post after) :
    S.Pending target (syncPool target getSyncEntry tasks) post stores := by
  have hkeys : (tasks.map fun task => (task.id, syncCalendarPushTask target getSyncEntry task)).map Prod.fst =
      tasks.map (·.id) := by
    rw [List.map_map]
    rfl
  refine pending_jobs hquiet h (fun id s => ∀ task ∈ tasks, task.id = id → Synced target S.details task s)
    (hkeys ▸ hnodup) ?_ ?_ ?_
  · intro job hjob
    obtain ⟨task, htask, rfl⟩ := List.mem_map.1 hjob
    exact hknown task htask
  · intro job hjob s hkept hentry
    obtain ⟨task, htask, rfl⟩ := List.mem_map.1 hjob
    refine (syncCalendarPushTask_endsWith hkeeps (hlooks task.id s hkept hentry)).mono fun t ht other hother hid => ?_
    obtain rfl := List.inj_on_of_nodup_map hnodup hother htask hid
    exact ht
  · intro after hkept hafter
    rw [hkeys] at hafter
    refine hpost after hkept fun hq => ⟨fun task htask => ?_, (hafter hq).2⟩
    exact (hafter hq).1 task.id (List.mem_map_of_mem htask) task htask rfl

theorem pending_removeTasks (hquiet : S.quiet → Faultless target S.details (S.callOk target)) (h : AllKept known stores)
    {removedIds : List String} (hnodup : removedIds.Nodup) (hknown : ∀ id ∈ removedIds, id ∈ known)
    {post : AllStores Details → Prop}
    (hpost : ∀ after, AllKept known after →
      (S.quiet → (∀ id ∈ removedIds, Unpushed (after id)) ∧ ∀ id ∉ removedIds, after id = stores id) → post after) :
    S.Pending target (removeTaskPool removedIds) post stores := by
  have hkeys : (removedIds.map fun taskId =>
      (taskId, removeCalendarTask (fun id => await (.getSyncEntry id)) taskId)).map Prod.fst = removedIds := by
    rw [List.map_map]
    exact List.map_id _
  refine pending_jobs hquiet h (fun _ => Unpushed) (hkeys.symm ▸ hnodup) ?_ ?_ ?_
  · intro job hjob
    obtain ⟨id, hid, rfl⟩ := List.mem_map.1 hjob
    exact hknown id hid
  · intro job hjob s hkept hentry
    obtain ⟨id, hid, rfl⟩ := List.mem_map.1 hjob
    exact removeCalendarTask_endsWith (looksUp_store hkept.accounted)
  · intro after hkept hafter
    rw [hkeys] at hafter
    exact hpost after hkept hafter

theorem pending_removeEntries (hquiet : S.quiet → Faultless target S.details (S.callOk target)) (h : AllKept known stores)
    {staleEntries : List CalendarSyncEntry} (hsub : staleEntries.Sublist (allSyncEntries known stores))
    {post : AllStores Details → Prop}
    (hpost : ∀ after, AllKept known after →
      (S.quiet → (∀ entry ∈ staleEntries, Unpushed (after entry.taskId)) ∧
        ∀ id ∉ staleEntries.map (·.taskId), after id = stores id) → post after) :
    S.Pending target (removeEntryPool staleEntries) post stores := by
  have hkeys : (staleEntries.map fun entry => (entry.taskId, removeCalendarEntry entry)).map Prod.fst =
      staleEntries.map (·.taskId) := by
    rw [List.map_map]
    rfl
  have hstored : ∀ entry ∈ staleEntries, (stores entry.taskId).entry = some entry := fun entry hentry =>
    (mem_allSyncEntries h).1 (hsub.subset hentry)
  refine pending_jobs hquiet h (fun _ => Unpushed) (hkeys ▸ (hsub.map _).nodup (nodup_allSyncEntries h)) ?_ ?_ ?_
  · intro job hjob
    obtain ⟨entry, hentry, rfl⟩ := List.mem_map.1 hjob
    exact (h.kept _).known entry (hstored entry hentry)
  · intro job hjob s hkept hentry
    obtain ⟨entry, hmem, rfl⟩ := List.mem_map.1 hjob
    exact removeCalendarEntry_endsWith_unpushed hkept.accounted (hentry.trans (hstored entry hmem))
  · intro after hkept hafter
    rw [hkeys] at hafter
    refine hpost after hkept fun hq => ⟨fun entry hentry => ?_, (hafter hq).2⟩
    exact (hafter hq).1 entry.taskId (List.mem_map_of_mem hentry)

end Stages

/-! ### Any history -/

theorem nodup_addId {ids : List String} (h : ids.Nodup) (id : String) : (addId ids id).Nodup := by
  unfold addId
  split_ifs with hmem
  · exact h
  · exact List.nodup_append.2 ⟨h, List.nodup_singleton id, by
      rintro a ha b hb rfl
      exact hmem (List.mem_singleton.1 hb ▸ ha)⟩

variable [LocalCalendar]

/-- What each id adds to the targets keeps what holds of them. -/
theorem partialTargets_invariant {P : List Task × List String → Prop} {taskIds : List String}
    {tasksById : String → Option Task} {nowIso : String} {clock : Int} {start found : List Task × List String}
    (hstart : P start)
    (hadd : ∀ taskId ∈ taskIds, ∀ found found', P found →
      addPartialTarget tasksById nowIso clock found taskId = .ok found' → P found')
    (h : taskIds.foldlM (addPartialTarget tasksById nowIso clock) start = .ok found) : P found := by
  induction taskIds generalizing start with
  | nil =>
    obtain rfl := Except.ok.inj h
    exact hstart
  | cons taskId taskIds ih =>
    rw [List.foldlM_cons] at h
    obtain ⟨next, hnext, h⟩ := bind_eq_ok h
    refine ih (hadd taskId List.mem_cons_self _ _ hstart hnext) (fun other hother => ?_) h
    exact hadd other (List.mem_cons_of_mem _ hother)

theorem addPartialTarget_cases {tasksById : String → Option Task} {nowIso : String} {clock : Int}
    {found found' : List Task × List String} {taskId : String}
    (h : addPartialTarget tasksById nowIso clock found taskId = .ok found') :
    (isProjectedRecurringTaskId taskId = true ∧ found' = (found.1, addId found.2 taskId)) ∨
    (isProjectedRecurringTaskId taskId = false ∧ tasksById taskId = none ∧
      found' = (found.1, addId (addId found.2 taskId) (getProjectedRecurringTaskId taskId))) ∨
    ∃ task expandedTasks, isProjectedRecurringTaskId taskId = false ∧ tasksById taskId = some task ∧
      expandCalendarRecurringTasks task nowIso clock = .ok expandedTasks ∧
      found' = (found.1 ++ expandedTasks,
        if expandedTasks.any (·.id = getProjectedRecurringTaskId task.id) then found.2
        else addId found.2 (getProjectedRecurringTaskId task.id)) := by
  obtain ⟨targets, removedTaskIds⟩ := found
  unfold addPartialTarget at h
  dsimp only at h
  split_ifs at h with hprojected
  · exact .inl ⟨hprojected, (Except.ok.inj h).symm⟩
  · rw [Bool.not_eq_true] at hprojected
    cases htask : tasksById taskId with
    | none =>
      rw [htask] at h
      exact .inr (.inl ⟨hprojected, rfl, (Except.ok.inj h).symm⟩)
    | some task =>
      rw [htask] at h
      obtain ⟨expandedTasks, hexpand, h⟩ := bind_eq_ok h
      refine .inr (.inr ⟨task, expandedTasks, hprojected, rfl, hexpand, ?_⟩)
      split_ifs at h ⊢ <;> exact (Except.ok.inj h).symm

theorem addPartialTarget_nodup {tasksById : String → Option Task} {nowIso : String} {clock : Int}
    {found found' : List Task × List String} {taskId : String} (hnodup : found.2.Nodup)
    (h : addPartialTarget tasksById nowIso clock found taskId = .ok found') : found'.2.Nodup := by
  rcases addPartialTarget_cases h with ⟨-, rfl⟩ | ⟨-, -, rfl⟩ | ⟨task, expandedTasks, -, -, -, rfl⟩
  · exact nodup_addId hnodup _
  · exact nodup_addId (nodup_addId hnodup _) _
  · dsimp only
    split_ifs
    · exact hnodup
    · exact nodup_addId hnodup _

variable (details : Task → Details)

def historyStages : Stages Details where
  details
  callOk _ := KeepsNew
  quiet := False
  idle := AllKept
  reading _ calendarTasks known stores :=
    ((calendarTasks.map (·.id)).Nodup ∧ ∀ task ∈ calendarTasks, task.id ∈ known) ∧ AllKept known stores
  synced _ next known stores :=
    (∀ removedIds, next = .remove removedIds → removedIds.Nodup ∧ ∀ id ∈ removedIds, id ∈ known) ∧ AllKept known stores

theorem historyStages_sound : (historyStages details).Sound := by
  have hquiet : ∀ target, (historyStages details).quiet → Faultless target (historyStages details).details
    ((historyStages details).callOk target) := fun _ h => h.elim
  have hkeeps : ∀ target op choice s, (historyStages details).callOk target op choice s → KeepsNew op choice s :=
    fun _ _ _ _ h => h
  constructor
  · intro hloud known stores id deleted h
    exact h.update ((h.kept id).deleteEvents deleted)
  · intro hloud target calendarTasks known stores id deleted h
    exact ⟨h.1, h.2.update ((h.2.kept id).deleteEvents deleted)⟩
  · intro hloud target next known stores id deleted h
    exact ⟨h.1, h.2.update ((h.2.kept id).deleteEvents deleted)⟩
  · intro hloud target calendarTasks known stores h
    exact h.2
  · intro hloud target next known stores h
    exact h.2
  · intro hloud target calendarTasks known stores hnodup h
    refine ⟨⟨hnodup, fun task htask => ?_⟩, h.grow fun id hid => List.mem_append_left _ hid⟩
    exact List.mem_dedup.2 (List.mem_append_right _ (List.mem_map_of_mem htask))
  · intro hloud taskIds tasksById nowIso clock target targets removedIds known stores htargets hnodup h
    have hgrown : AllKept (known ++ targets.map (·.id) ++ removedIds).dedup stores :=
      h.grow fun id hid => List.mem_append_left _ (List.mem_append_left _ hid)
    have hremoved : removedIds.Nodup := partialTargets_invariant (P := fun found => found.2.Nodup) List.nodup_nil
      (fun taskId _ found found' hfound hadd => addPartialTarget_nodup hfound hadd) htargets
    refine Stages.pending_sync (hkeeps target) (hquiet target) hgrown hnodup (fun task htask => ?_)
      (fun id s hkept _ => looksUp_store hkept.accounted) fun after hafter _ => ⟨?_, hafter⟩
    · exact List.mem_dedup.2 (List.mem_append_left _ (List.mem_append_right _ (List.mem_map_of_mem htask)))
    · rintro _ ⟨⟩
      exact ⟨hremoved, fun id hid => List.mem_dedup.2 (List.mem_append_right _ hid)⟩
  · intro target calendarTasks known stores h
    refine Stages.pending_sync (hkeeps target) (hquiet target) h.2 h.1.1 h.1.2 (fun id s hkept hentry => ?_)
      fun after hafter _ => ⟨?_, hafter⟩
    · exact looksUp_inventory hkept.accounted (hentry.trans (entryOf_allSyncEntries h.2 id).symm)
    · rintro _ ⟨⟩
  · intro target active known stores h
    exact Stages.pending_removeEntries (hquiet target) h.2 List.filter_sublist fun after hafter _ => hafter
  · intro target removedIds known stores h
    obtain ⟨hnodup, hknown⟩ := h.1 removedIds rfl
    exact Stages.pending_removeTasks (hquiet target) h.2 hnodup hknown fun after hafter _ => hafter

/-! ### A full run -/

/-- The call is answered, and the user deletes nothing. -/
def Answered (target : String) (op : PushCall) (choice : PushChoice) (s : TaskStores Details) : Prop :=
  choice.deleted = [] ∧ (pushPort target details op choice s).1.isOk = true

omit [LocalCalendar] in
theorem Answered.keepsNew {target : String} {op : PushCall} {choice : PushChoice} {s : TaskStores Details}
    (h : Answered details target op choice s) : KeepsNew op choice s := by
  rintro entry rfl houtcome
  have hok := h.2
  simp only [pushPort, houtcome, writeEntry] at hok
  cases hok

/-- An event of its details in the target calendar for every task that is to be pushed, which its entry names;
no event and no entry for any other id. -/
structure Converged (target : String) (calendarTasks : List Task) (stores : AllStores Details) : Prop where
  pushed : ∀ task ∈ calendarTasks, shouldRemoveCalendarPushTask task = false →
    Pushed target details task (stores task.id)
  unpushed : ∀ id, (∀ task ∈ calendarTasks, shouldRemoveCalendarPushTask task = false → task.id ≠ id) →
    Unpushed (stores id)

/-- Where a run without faults pushes `calendarTasks` to the calendar `target`. -/
def fullStages (target : String) (calendarTasks : List Task) : Stages Details where
  details
  callOk := Answered details
  quiet := True
  idle known stores := AllKept known stores ∧ Converged details target calendarTasks stores
  reading target' calendarTasks' known stores :=
    (target' = target ∧ calendarTasks' = calendarTasks ∧ (calendarTasks.map (·.id)).Nodup ∧
      ∀ task ∈ calendarTasks, task.id ∈ known) ∧ AllKept known stores
  synced target' next known stores :=
    (target' = target ∧ next = .findStale (activeTaskIds calendarTasks)) ∧ AllKept known stores ∧
      ∀ task ∈ calendarTasks, Synced target details task (stores task.id)

omit [LocalCalendar] in
theorem mem_activeTaskIds {calendarTasks : List Task} {id : String} :
    id ∈ activeTaskIds calendarTasks ↔
      ∃ task ∈ calendarTasks, shouldRemoveCalendarPushTask task = false ∧ task.id = id := by
  simp only [activeTaskIds, List.mem_map, List.mem_filter, Bool.not_eq_true', and_assoc]

omit [LocalCalendar] in
/-- Synced tasks and no stale entries are what a run is for. -/
theorem converged_of_reviewed {target : String} {calendarTasks : List Task} {after : AllStores Details}
    (h : AllKept known stores)
    (hsynced : ∀ task ∈ calendarTasks, Synced target details task (stores task.id))
    (hstale : ∀ entry ∈ findStale (activeTaskIds calendarTasks) (allSyncEntries known stores), Unpushed (after entry.taskId))
    (hrest : ∀ id ∉ (findStale (activeTaskIds calendarTasks) (allSyncEntries known stores)).map (·.taskId),
      after id = stores id) :
    Converged details target calendarTasks after := by
  constructor
  · intro task htask hactive
    have hmem : task.id ∈ activeTaskIds calendarTasks := mem_activeTaskIds.2 ⟨task, htask, hactive, rfl⟩
    rw [hrest task.id fun hstaleId => ?_]
    · have := hsynced task htask
      rwa [Synced, if_neg (by simp [hactive])] at this
    · obtain ⟨entry, hentry, hid⟩ := List.mem_map.1 hstaleId
      have hnot := (List.mem_filter.1 hentry).2
      simp [hid, hmem] at hnot
  · intro id hnone
    have hinactive : id ∉ activeTaskIds calendarTasks := fun hmem => by
      obtain ⟨task, htask, hactive, hid⟩ := mem_activeTaskIds.1 hmem
      exact hnone task htask hactive hid
    cases hentry : (stores id).entry with
    | some entry =>
      have hid := (h.kept id).accounted.own entry hentry
      have hmem := (mem_allSyncEntries h).2 (hid.symm ▸ hentry)
      have hunpushed := hstale entry (List.mem_filter.2 ⟨hmem, by simpa [hid] using hinactive⟩)
      rwa [hid] at hunpushed
    | none =>
      rw [hrest id fun hmem => ?_]
      · exact (h.kept id).accounted.unpushed hentry
      · obtain ⟨entry, hstaleEntry, rfl⟩ := List.mem_map.1 hmem
        have := (mem_allSyncEntries h).1 (List.mem_filter.1 hstaleEntry).1
        rw [hentry] at this
        cases this

theorem fullStages_sound (target : String) (calendarTasks : List Task) :
    (fullStages details target calendarTasks).Sound := by
  have hquiet : ∀ target', (fullStages details target calendarTasks).quiet →
      Faultless target' (fullStages details target calendarTasks).details
        ((fullStages details target calendarTasks).callOk target') := fun _ _ _ _ _ h => h
  have hkeeps : ∀ target' op choice s, (fullStages details target calendarTasks).callOk target' op choice s →
      KeepsNew op choice s := fun _ _ _ _ h => Answered.keepsNew details h
  constructor
  iterate 7 exact fun hloud => absurd trivial hloud
  · rintro _ _ known stores ⟨⟨rfl, rfl, hnodup, hknown⟩, hkept⟩
    refine Stages.pending_sync (hkeeps _) (hquiet _) hkept hnodup hknown (fun id s hs hentry => ?_)
      fun after hafter hdone => ⟨⟨rfl, rfl⟩, hafter, (hdone trivial).1⟩
    exact looksUp_inventory hs.accounted (hentry.trans (entryOf_allSyncEntries hkept id).symm)
  · rintro _ _ known stores ⟨⟨rfl, hactive⟩, hkept, hsynced⟩
    obtain rfl := AfterSync.findStale.inj hactive
    refine Stages.pending_removeEntries (hquiet _) hkept List.filter_sublist fun after hafter hdone => ⟨hafter, ?_⟩
    exact converged_of_reviewed details hkept hsynced (hdone trivial).1 (hdone trivial).2
  · rintro _ removedIds known stores ⟨⟨-, hnext⟩, -⟩
    cases hnext

/-- No entry of a new event is lost: a write of an entry that fails without effect is for an event that the
entry of the task names already. -/
abbrev KeepsNewEvents : PushSystem Details → PushEvent → Prop := Admits (fun _ => KeepsNew) False

/-- A step of a run in which every call is answered and nothing interferes. -/
abbrev RunsWithoutFaults : PushSystem Details → PushEvent → Prop := Admits (Answered details) True

theorem allKept_of_history {s : PushSystem Details} (h : Reaches (PushSystem.step details) KeepsNewEvents {} s)
    (hidle : s.run = none) : AllKept s.known s.stores := by
  have hstart : (historyStages details).Holds {} := by
    refine ⟨List.nodup_nil, fun id => ⟨Unpushed.accounted rfl, fun entry hentry => ?_⟩⟩
    cases hentry
  have hholds := (historyStages_sound details).holds_of_reaches hstart h
  rwa [Stages.Holds, hidle] at hholds

theorem fullRun_leaves {s started t : PushSystem Details} (hkept : AllKept s.known s.stores) (hidle : s.run = none)
    {tasks calendarTasks : List Task} {target nowIso : String} {clock : Int} {concurrency : Option Rat}
    (hexpand : expandCalendarTasks tasks nowIso clock = .ok calendarTasks) (hdistinct : (calendarTasks.map (·.id)).Nodup)
    (hstart : s.step details (.startFull tasks target nowIso clock concurrency) = some started)
    (hrun : Reaches (PushSystem.step details) (RunsWithoutFaults details) started t) (hover : t.run = none) :
    AllKept t.known t.stores ∧ Converged details target calendarTasks t.stores := by
  have hholds : (fullStages details target calendarTasks).Holds started := by
    simp only [PushSystem.step, hidle, hexpand] at hstart
    obtain rfl := Option.some.inj hstart
    refine ⟨⟨rfl, rfl, hdistinct, fun task htask => ?_⟩, hkept.grow fun id hid => List.mem_append_left _ hid⟩
    exact List.mem_dedup.2 (List.mem_append_right _ (List.mem_map_of_mem htask))
  have hend := (fullStages_sound details target calendarTasks).holds_of_reaches hholds hrun
  rwa [Stages.Holds, hover] at hend

/-- After any history in which no entry of a new event is lost, a full run without faults leaves the calendars
and the entries exactly as its tasks call for. -/
theorem fullRun_converges {s started t : PushSystem Details}
    (hhistory : Reaches (PushSystem.step details) KeepsNewEvents {} s) (hidle : s.run = none)
    {tasks calendarTasks : List Task} {target nowIso : String} {clock : Int} {concurrency : Option Rat}
    (hexpand : expandCalendarTasks tasks nowIso clock = .ok calendarTasks) (hdistinct : (calendarTasks.map (·.id)).Nodup)
    (hstart : s.step details (.startFull tasks target nowIso clock concurrency) = some started)
    (hrun : Reaches (PushSystem.step details) (RunsWithoutFaults details) started t) (hover : t.run = none) :
    Converged details target calendarTasks t.stores :=
  (fullRun_leaves details (allKept_of_history details hhistory hidle) hidle hexpand hdistinct hstart hrun hover).2

/-! ### Replays -/

/-- An event that carries on with a run, where the call it settles meets a check. -/
def carriesOn (check : PushCall → PushChoice → TaskStores Details → Bool) (s : PushSystem Details) : PushEvent → Bool
  | .inventory answers => answers
  | .settled | .worker .take => true
  | .worker (.advance n choice) =>
    match (s.run.bind (·.phase.pool?)).bind (·.running[n]?) with
    | some (id, .call op _) => check op choice (s.stores id)
    | _ => true
  | _ => false

theorem admits_of_carriesOn {callOk : String → (op : PushCall) → PushChoice → TaskStores Details → Prop} {quiet : Prop}
    {check : PushCall → PushChoice → TaskStores Details → Bool}
    (hcheck : ∀ target op choice s, check op choice s = true → callOk target op choice s) {s : PushSystem Details}
    {e : PushEvent} (h : carriesOn check s e = true) : Admits callOk quiet s e := by
  constructor
  · rintro run pool w hrun hpool rfl n choice k op next rfl hn
    apply hcheck
    simpa [carriesOn, hrun, hpool, hn] using h
  · refine fun hquiet => ⟨?_, fun id deleted => ?_, fun id deleted => ?_⟩ <;> rintro rfl <;> cases h
  · refine fun hquiet => ⟨fun tasks target nowIso clock concurrency => ?_, fun a b target nowIso clock concurrency => ?_⟩ <;>
      rintro rfl <;> cases h
  · rintro tasks target nowIso clock concurrency calendarTasks rfl
    cases h
  · rintro taskIds tasksById target nowIso clock concurrency targets removedIds rfl
    cases h

/-- Where events that carry on with a run lead from a state. -/
def carried (check : PushCall → PushChoice → TaskStores Details → Bool) (s : PushSystem Details) (events : List PushEvent) :
    Option (PushSystem Details) :=
  runEvents (fun a e => if carriesOn check a e then a.step details e else none) s events

theorem reaches_carried {callOk : String → (op : PushCall) → PushChoice → TaskStores Details → Prop} {quiet : Prop}
    {check : PushCall → PushChoice → TaskStores Details → Bool}
    (hcheck : ∀ target op choice s, check op choice s = true → callOk target op choice s) {s : PushSystem Details}
    {events : List PushEvent} (h : (carried details check s events).isSome = true) :
    Reaches (PushSystem.step details) (Admits callOk quiet) s ((carried details check s events).getD {}) := by
  obtain ⟨t, ht⟩ := Option.isSome_iff_exists.1 h
  rw [ht, Option.getD_some]
  exact reaches_of_guarded (fun a e => admits_of_carriesOn hcheck) ht

/-- Whether a call is answered, which does not depend on the calendar. -/
def isAnswered (target : String) (op : PushCall) (choice : PushChoice) (s : TaskStores Details) : Bool :=
  choice.deleted = [] ∧ (pushPort target details op choice s).1.isOk = true

omit [LocalCalendar] in
theorem answered_of_isAnswered (target target' : String) (op : PushCall) (choice : PushChoice) (s : TaskStores Details)
    (h : isAnswered details target op choice s = true) : Answered details target' op choice s := by
  simp only [isAnswered, decide_eq_true_eq] at h
  refine ⟨h.1, ?_⟩
  cases op with
  | createEvent task =>
    simp only [pushPort] at h ⊢
    split_ifs at h ⊢ <;> simp_all [Except.isOk, Except.toBool]
  | _ => exact h.2

end

/-! ### A lost entry -/

/-- A task with a date, whose event has no details. -/
def plannedTask : Task := { id := "task", dueDate := some (.str "2026-07-20"), status := some (.str "next") }

def noDetails (_ : Task) : Unit := ()

def startPlanned : PushEvent := .startFull [plannedTask] "calendar" "2026-07-14T12:00:00.000Z" 0 none

/-- The state in which a run of the task has begun. -/
def plannedStart (s : PushSystem Unit) : PushSystem Unit :=
  (@PushSystem.step utcCalendar Unit noDetails s startPlanned).getD {}

/-- The only worker makes an event with an id, and the write of its entry ends as said. -/
def plannedRun (eventId : Nat) (write : PushOutcome) : List PushEvent :=
  [.inventory true, .worker .take, .worker (.advance 0 ⟨.succeeds, eventId, []⟩), .worker (.advance 0 ⟨write, 0, []⟩),
    .worker (.advance 0 ⟨write, 0, []⟩), .settled, .inventory true, .settled]

def anyCall (_ : PushCall) (_ : PushChoice) (_ : TaskStores Unit) : Bool := true

/-- The run of the task from a state, in which every call is answered. -/
def plannedEnd (s : PushSystem Unit) (eventId : Nat) : PushSystem Unit :=
  (@carried Unit utcCalendar noDetails (isAnswered noDetails "calendar") (plannedStart s) (plannedRun eventId .succeeds)).getD {}

/-- The state after a run of the task in which the write of its entry fails. -/
def lostEntry : PushSystem Unit :=
  (@carried Unit utcCalendar noDetails anyCall (plannedStart {}) (plannedRun 1 .fails)).getD {}

/-- The run that writes its entry. -/
theorem fullRun_converges_planned : Converged noDetails "calendar" [plannedTask] (plannedEnd {} 1).stores :=
  @fullRun_converges Unit utcCalendar noDetails {} (plannedStart {}) (plannedEnd {} 1) .refl rfl [plannedTask]
    [plannedTask] "calendar" "2026-07-14T12:00:00.000Z" 0 none rfl (by decide) rfl
    (@reaches_carried Unit utcCalendar noDetails _ _ _ (answered_of_isAnswered noDetails "calendar") (plannedStart {}) (plannedRun 1 .succeeds)
      (by decide +kernel)) (by decide +kernel)

/-- Where the write of a new event's entry fails, the next run makes a second event. -/
theorem fullRun_duplicates : ¬∀ s started t : PushSystem Unit,
    Reaches (@PushSystem.step utcCalendar Unit noDetails) (@Admits utcCalendar Unit (fun _ _ _ _ => True) False) {} s →
      s.run = none → @PushSystem.step utcCalendar Unit noDetails s startPlanned = some started →
        Reaches (@PushSystem.step utcCalendar Unit noDetails) (@RunsWithoutFaults Unit utcCalendar noDetails) started t →
          t.run = none → Converged noDetails "calendar" [plannedTask] t.stores := by
  intro h
  have hstart : Reaches (@PushSystem.step utcCalendar Unit noDetails)
      (@Admits utcCalendar Unit (fun _ _ _ _ => True) False) {} (plannedStart {}) := by
    have hadmits : @Admits utcCalendar Unit (fun _ _ _ _ => True) False {} startPlanned := by
      refine @Admits.mk utcCalendar _ _ _ _ _ ?_ False.elim False.elim ?_ ?_
      · rintro run pool w ⟨⟩
      · rintro _ _ _ _ _ calendarTasks ⟨⟩ ⟨⟩
        decide
      · rintro _ _ _ _ _ _ _ _ ⟨⟩
    exact .step .refl hadmits rfl
  have hrun : Reaches (@PushSystem.step utcCalendar Unit noDetails)
      (@Admits utcCalendar Unit (fun _ _ _ _ => True) False) (plannedStart {}) lostEntry :=
    @reaches_carried Unit utcCalendar noDetails _ _ anyCall (fun _ _ _ _ _ => trivial) (plannedStart {}) (plannedRun 1 .fails)
      (by decide +kernel)
  have hagain := @reaches_carried Unit utcCalendar noDetails _ True _ (answered_of_isAnswered noDetails "calendar") (plannedStart lostEntry)
    (plannedRun 2 .succeeds) (by decide +kernel)
  have hconverged := h lostEntry (plannedStart lostEntry) (plannedEnd lostEntry 2) (hstart.trans hrun) rfl rfl hagain
    (by decide +kernel)
  obtain ⟨i, hi⟩ := hconverged.pushed plannedTask List.mem_cons_self (by decide)
  have hfirst : (((plannedEnd lostEntry 2).stores "task").events 1).isSome = true := by decide +kernel
  have hsecond : (((plannedEnd lostEntry 2).stores "task").events 2).isSome = true := by decide +kernel
  have hstores : (plannedEnd lostEntry 2).stores "task" = _ := hi
  rw [hstores] at hfirst hsecond
  simp only [Function.update_apply] at hfirst hsecond
  split_ifs at hfirst with h1
  · rw [← h1] at hsecond
    simp at hsecond
  · cases hfirst

end Mindwtr.Calendar
