import Mindwtr.Import.CsvApply

/-!
# Imports that change nothing

An import adds a row exactly where nothing in the document stands for it, so it leaves the document as it is exactly
when everything it brings is settled there (`applyMindwtrCsvImport_unchanged_iff`).
-/

namespace Mindwtr.Import

open Mindwtr.Js Mindwtr.Sync

/-! ### Loops that append -/

section
variable {σ β γ : Type} {f : σ → β → σ} {view : σ → List γ} {Settled : σ → β → Prop}

/-- A step that finds its item settled leaves the list and what is settled as they are; another one appends. -/
structure Appends (f : σ → β → σ) (view : σ → List γ) (Settled : σ → β → Prop) : Prop where
  keep : ∀ s b, Settled s b → view (f s b) = view s ∧ ∀ c, Settled (f s b) c ↔ Settled s c
  append : ∀ s b, ¬Settled s b → ∃ x, view (f s b) = view s ++ [x]

theorem Appends.prefix_of (h : Appends f view Settled) (l : List β) (s : σ) : view s <+: view (l.foldl f s) := by
  induction l generalizing s with
  | nil => exact List.prefix_refl _
  | cons b l ih =>
    refine List.IsPrefix.trans ?_ (ih (f s b))
    by_cases hb : Settled s b
    · rw [(h.keep s b hb).1]
    · obtain ⟨x, hx⟩ := h.append s b hb
      exact ⟨[x], hx.symm⟩

/-- The list is the same after the loop exactly when every item was settled before it. -/
theorem Appends.unchanged_iff (h : Appends f view Settled) (l : List β) (s : σ) :
    view (l.foldl f s) = view s ↔ ∀ b ∈ l, Settled s b := by
  induction l generalizing s with
  | nil => simp
  | cons b l ih =>
    rw [List.foldl_cons, List.forall_mem_cons]
    by_cases hb : Settled s b
    · obtain ⟨hview, hsettled⟩ := h.keep s b hb
      rw [← hview, ih]
      simp only [hsettled, hb, true_and]
    · constructor
      · intro hsame
        obtain ⟨x, hx⟩ := h.append s b hb
        have hle := (h.prefix_of l (f s b)).length_le
        rw [hsame, hx, List.length_append, List.length_singleton] at hle
        omega
      · intro hall
        exact absurd hall.1 hb

/-- What no step of a loop changes. -/
theorem foldl_view {τ : Type} (view : σ → τ) (h : ∀ s b, view (f s b) = view s) (l : List β) (s : σ) :
    view (l.foldl f s) = view s := by
  induction l generalizing s with
  | nil => rfl
  | cons b l ih => rw [List.foldl_cons, ih, h]

end

section
variable [LocalCalendar] (data : AppData) (opts : ImportApplyOptions) (deviceId : String) (tasks : List ImportTaskSource)

/-! ### What is settled -/

/-- The area is there under the id of its key, deleted or not, or the rows agree on an area of the user. -/
def AreaSettled (sourceKey : String) : Prop :=
  (existingArea data (opts.idFor .area sourceKey)).isSome ∨ (liveAreaIdBySourceKey data opts tasks sourceKey).isSome

def ProjectSettled (sourceKey : String) : Prop :=
  (existingProject data (opts.idFor .project sourceKey)).isSome ∨
    (liveProjectIdBySourceKey data opts tasks sourceKey).isSome

/-- The project that the sections and tasks of a key go to; none where it has been deleted. -/
def settledProjectId (sourceKey : String) : Option String :=
  match existingProject data (opts.idFor .project sourceKey) with
  | some existing => if truthy existing.deletedAt then none else some existing.id
  | none => liveProjectIdBySourceKey data opts tasks sourceKey

def SectionSettled (sourceKey projectId : String) : Prop :=
  (existingSection data (opts.idFor .sec sourceKey)).isSome ∨ (carriedSectionId data opts tasks sourceKey projectId).isSome

/-! ### One step -/

theorem importArea_appends : Appends (fun s (area : ImportAreaSource × Nat) =>
      importArea data opts deviceId tasks s area.1 area.2) (fun s => s.areas)
    fun _ area => AreaSettled data opts tasks area.1.sourceKey where
  keep s area harea := by
    refine ⟨?_, fun _ => Iff.rfl⟩
    simp only [importArea]
    cases hexisting : existingArea data (opts.idFor .area area.1.sourceKey) with
    | some existing => simp only; split <;> rfl
    | none =>
      cases hcarried : liveAreaIdBySourceKey data opts tasks area.1.sourceKey with
      | some carriedId => rfl
      | none => simp [AreaSettled, hexisting, hcarried] at harea
  append s area harea := by
    simp only [AreaSettled, not_or, Option.not_isSome_iff_eq_none] at harea
    simp only [importArea, harea.1, harea.2]
    exact ⟨_, rfl⟩

theorem importProject_appends : Appends (importProject data opts deviceId tasks) (fun s => s.projects)
    fun _ project => ProjectSettled data opts tasks project.sourceKey where
  keep s project hproject := by
    refine ⟨?_, fun _ => Iff.rfl⟩
    simp only [importProject]
    cases hexisting : existingProject data (opts.idFor .project project.sourceKey) with
    | some existing => simp only; split <;> rfl
    | none =>
      cases hcarried : liveProjectIdBySourceKey data opts tasks project.sourceKey with
      | some carriedId => rfl
      | none => simp [ProjectSettled, hexisting, hcarried] at hproject
  append s project hproject := by
    simp only [ProjectSettled, not_or, Option.not_isSome_iff_eq_none] at hproject
    simp only [importProject, hproject.1, hproject.2]
    exact ⟨_, rfl⟩

/-- A section of no project is dropped, so it counts as settled. -/
def SectionSettledIn (s : ImportState) (sec : ImportSectionSource) : Prop :=
  ∀ projectId, s.projectIdBySourceKey.get? sec.projectSourceKey = some projectId →
    SectionSettled data opts tasks sec.sourceKey projectId

theorem importSection_frame (s : ImportState) (sec : ImportSectionSource) :
    (importSection data opts deviceId tasks s sec).projectIdBySourceKey = s.projectIdBySourceKey := by
  unfold importSection
  split
  · rfl
  · split
    · split <;> rfl
    · split <;> rfl

theorem importSection_appends : Appends (importSection data opts deviceId tasks) (fun s => s.sections)
    (SectionSettledIn data opts tasks) where
  keep s sec hsec := by
    refine ⟨?_, fun c => by simp only [SectionSettledIn, importSection_frame]⟩
    simp only [importSection]
    cases hproject : s.projectIdBySourceKey.get? sec.projectSourceKey with
    | none => rfl
    | some projectId =>
      have hsettled := hsec projectId hproject
      simp only
      cases hexisting : existingSection data (opts.idFor .sec sec.sourceKey) with
      | some existing => simp only; split <;> rfl
      | none =>
        cases hcarried : carriedSectionId data opts tasks sec.sourceKey projectId with
        | some carriedId => rfl
        | none => simp [SectionSettled, hexisting, hcarried] at hsettled
  append s sec hsec := by
    simp only [SectionSettledIn, not_forall] at hsec
    obtain ⟨projectId, hproject, hsettled⟩ := hsec
    simp only [SectionSettled, not_or, Option.not_isSome_iff_eq_none] at hsettled
    simp only [importSection, hproject, hsettled.1, hsettled.2]
    exact ⟨_, rfl⟩

theorem importTask_appends : Appends (importTask opts deviceId) (fun s => s.tasks)
    fun s task => opts.idFor .task task.sourceKey ∈ s.existingTaskIds where
  keep s task htask := by
    rw [importTask, if_pos (by simpa using htask)]
    exact ⟨rfl, fun _ => Iff.rfl⟩
  append s task htask := by
    rw [importTask, if_neg (by simpa using htask)]
    exact ⟨_, rfl⟩

/-! ### What a step leaves alone -/

/-- The three tables besides the areas, with the tasks that exist. -/
theorem importArea_frame (s : ImportState) (area : ImportAreaSource) (index : Nat) :
    let t := importArea data opts deviceId tasks s area index
    (t.projects, t.sections, t.tasks, t.existingTaskIds, t.projectIdBySourceKey) =
      (s.projects, s.sections, s.tasks, s.existingTaskIds, s.projectIdBySourceKey) := by
  unfold importArea
  split
  · split <;> rfl
  · split <;> rfl

theorem importProject_frame (s : ImportState) (project : ImportProjectSource) :
    let t := importProject data opts deviceId tasks s project
    (t.areas, t.sections, t.tasks, t.existingTaskIds) = (s.areas, s.sections, s.tasks, s.existingTaskIds) := by
  unfold importProject
  split
  · split <;> rfl
  · split <;> rfl

theorem importSection_tables (s : ImportState) (sec : ImportSectionSource) :
    let t := importSection data opts deviceId tasks s sec
    (t.areas, t.projects, t.tasks, t.existingTaskIds) = (s.areas, s.projects, s.tasks, s.existingTaskIds) := by
  unfold importSection
  split
  · rfl
  · split
    · split <;> rfl
    · split <;> rfl

theorem importTask_frame (s : ImportState) (task : ImportTaskSource) :
    let t := importTask opts deviceId s task
    (t.areas, t.projects, t.sections) = (s.areas, s.projects, s.sections) := by
  unfold importTask
  split <;> rfl

/-! ### The projects of the keys -/

theorem importProject_settled (s : ImportState) (project : ImportProjectSource)
    (h : ProjectSettled data opts tasks project.sourceKey) :
    (importProject data opts deviceId tasks s project).projectIdBySourceKey =
      match settledProjectId data opts tasks project.sourceKey with
      | some id => s.projectIdBySourceKey.set project.sourceKey id
      | none => s.projectIdBySourceKey := by
  simp only [importProject, settledProjectId]
  cases hexisting : existingProject data (opts.idFor .project project.sourceKey) with
  | some existing => simp only; split <;> rfl
  | none =>
    cases hcarried : liveProjectIdBySourceKey data opts tasks project.sourceKey with
    | some carriedId => rfl
    | none => simp [ProjectSettled, hexisting, hcarried] at h

/-- Where every project is settled, a key leads to its settled project. -/
theorem get?_importProjects (projects : List ImportProjectSource)
    (h : ∀ project ∈ projects, ProjectSettled data opts tasks project.sourceKey) (s : ImportState) (key : String) :
    (projects.foldl (importProject data opts deviceId tasks) s).projectIdBySourceKey.get? key =
      if key ∈ projects.map (·.sourceKey) then
        (settledProjectId data opts tasks key).or (s.projectIdBySourceKey.get? key)
      else s.projectIdBySourceKey.get? key := by
  induction projects generalizing s with
  | nil => simp
  | cons project projects ih =>
    obtain ⟨hproject, hprojects⟩ := List.forall_mem_cons.1 h
    have hstep := importProject_settled data opts deviceId tasks s project hproject
    have hget : (importProject data opts deviceId tasks s project).projectIdBySourceKey.get? key =
        if key = project.sourceKey then
          (settledProjectId data opts tasks key).or (s.projectIdBySourceKey.get? key)
        else s.projectIdBySourceKey.get? key := by
      rw [hstep]
      by_cases hkey : key = project.sourceKey
      · subst hkey
        cases hsettled : settledProjectId data opts tasks project.sourceKey <;> simp
      · cases hsettled : settledProjectId data opts tasks project.sourceKey <;> simp [hkey]
    rw [List.foldl_cons, ih hprojects, hget]
    simp only [List.map_cons, List.mem_cons]
    by_cases hkey : key = project.sourceKey
    · simp only [hkey, if_true, true_or]
      split
      · cases settledProjectId data opts tasks project.sourceKey <;> rfl
      · rfl
    · simp only [hkey, if_false, false_or]

end

/-! ### The import of the rows -/

section
variable [LocalCalendar] (data : AppData) (source : ImportSource) (opts : ImportApplyOptions)

/-- Nothing of the import is new to the document. -/
structure ImportSettled : Prop where
  areas : ∀ area ∈ source.areas, AreaSettled data opts source.tasks area.sourceKey
  projects : ∀ project ∈ source.projects, ProjectSettled data opts source.tasks project.sourceKey
  sections : ∀ sec ∈ source.sections, sec.projectSourceKey ∈ source.projects.map (·.sourceKey) →
    ∀ projectId, settledProjectId data opts source.tasks sec.projectSourceKey = some projectId →
      SectionSettled data opts source.tasks sec.sourceKey projectId
  tasks : ∀ task ∈ source.tasks, opts.idFor .task task.sourceKey ∈ data.tasks.map (·.id)

theorem importAreas_frame :
    let s := importAreas data source opts
    (s.projects, s.sections, s.tasks, s.existingTaskIds, s.projectIdBySourceKey) =
      (data.projects, data.sections, data.tasks, data.tasks.map (·.id), JsMap.empty) :=
  foldl_view (fun s : ImportState => (s.projects, s.sections, s.tasks, s.existingTaskIds, s.projectIdBySourceKey))
    (fun s area => importArea_frame data opts _ source.tasks s area.1 area.2) source.areas.zipIdx (startImport data)

theorem importProjects_frame :
    let s := importProjects data source opts
    let t := importAreas data source opts
    (s.areas, s.sections, s.tasks, s.existingTaskIds) = (t.areas, t.sections, t.tasks, t.existingTaskIds) :=
  foldl_view (fun s : ImportState => (s.areas, s.sections, s.tasks, s.existingTaskIds))
    (importProject_frame data opts _ source.tasks) source.projects _

theorem importSections_frame :
    let s := importSections data source opts
    let t := importProjects data source opts
    (s.areas, s.projects, s.tasks, s.existingTaskIds) = (t.areas, t.projects, t.tasks, t.existingTaskIds) :=
  foldl_view (fun s : ImportState => (s.areas, s.projects, s.tasks, s.existingTaskIds))
    (importSection_tables data opts _ source.tasks) source.sections _

theorem importTasks_frame :
    let s := importTasks data source opts
    let t := importSections data source opts
    (s.areas, s.projects, s.sections) = (t.areas, t.projects, t.sections) :=
  foldl_view (fun s : ImportState => (s.areas, s.projects, s.sections)) (importTask_frame opts _) source.tasks _

/-- The tables and the tasks that exist, table by table, as the loops made them. -/
theorem importTasks_tables :
    (importTasks data source opts).areas = (importAreas data source opts).areas ∧
      (importTasks data source opts).projects = (importProjects data source opts).projects ∧
      (importTasks data source opts).sections = (importSections data source opts).sections ∧
      (importSections data source opts).tasks = data.tasks ∧
      (importSections data source opts).existingTaskIds = data.tasks.map (·.id) ∧
      (importProjects data source opts).sections = data.sections ∧
      (importAreas data source opts).projects = data.projects := by
  have hareas := importAreas_frame data source opts
  have hprojects := importProjects_frame data source opts
  have hsections := importSections_frame data source opts
  have htasks := importTasks_frame data source opts
  simp only [Prod.mk.injEq] at hareas hprojects hsections htasks
  obtain ⟨ha1, ha2, ha3, ha4, -⟩ := hareas
  obtain ⟨hp1, hp2, hp3, hp4⟩ := hprojects
  obtain ⟨hs1, hs2, hs3, hs4⟩ := hsections
  obtain ⟨ht1, ht2, ht3⟩ := htasks
  exact ⟨ht1.trans (hs1.trans hp1), ht2.trans hs2, ht3, hs3.trans (hp3.trans ha3), hs4.trans (hp4.trans ha4),
    hp2.trans ha2, ha1⟩

/-- The four tables that hold what the user entered. -/
def SameTables (a b : AppData) : Prop :=
  a.tasks = b.tasks ∧ a.projects = b.projects ∧ a.sections = b.sections ∧ a.areas = b.areas

/-- Tasks are only added. -/
theorem importedTasks_eq_of_length (h : (applyImport data source opts).tasks.length = data.tasks.length) :
    (applyImport data source opts).tasks = data.tasks := by
  have hprefix := (importTask_appends opts (ensureDeviceId data.settings opts.newDeviceId).2).prefix_of source.tasks
    (importSections data source opts)
  rw [(importTasks_tables data source opts).2.2.2.1] at hprefix
  exact (List.IsPrefix.eq_of_length hprefix h.symm).symm

theorem applyImport_unchanged_iff : SameTables (applyImport data source opts) data ↔ ImportSettled data source opts := by
  obtain ⟨hareaTable, hprojectTable, hsectionTable, htasks0, hids0, hsections0, hprojects0⟩ :=
    importTasks_tables data source opts
  have hareas : (importTasks data source opts).areas = data.areas ↔
      ∀ area ∈ source.areas, AreaSettled data opts source.tasks area.sourceKey := by
    rw [hareaTable]
    refine ((importArea_appends data opts _ source.tasks).unchanged_iff source.areas.zipIdx (startImport data)).trans ?_
    constructor
    · intro h area harea
      obtain ⟨i, hi⟩ := List.mem_iff_getElem?.1 harea
      exact h (area, i) (List.mk_mem_zipIdx_iff_getElem?.2 hi)
    · intro h area harea
      exact h _ (List.fst_mem_of_mem_zipIdx harea)
  have hprojects : (importTasks data source opts).projects = data.projects ↔
      ∀ project ∈ source.projects, ProjectSettled data opts source.tasks project.sourceKey := by
    rw [hprojectTable, ← hprojects0]
    exact (importProject_appends data opts _ source.tasks).unchanged_iff source.projects _
  have hsections : (importTasks data source opts).sections = data.sections ↔
      ∀ sec ∈ source.sections, SectionSettledIn data opts source.tasks (importProjects data source opts) sec := by
    rw [hsectionTable, ← hsections0]
    exact (importSection_appends data opts _ source.tasks).unchanged_iff source.sections _
  have htasks : (importTasks data source opts).tasks = data.tasks ↔
      ∀ task ∈ source.tasks, opts.idFor .task task.sourceKey ∈ data.tasks.map (·.id) := by
    rw [← hids0, ← htasks0]
    exact (importTask_appends opts _).unchanged_iff source.tasks _
  have hkeys (hsettled : ∀ project ∈ source.projects, ProjectSettled data opts source.tasks project.sourceKey)
      (key : String) : (importProjects data source opts).projectIdBySourceKey.get? key =
        if key ∈ source.projects.map (·.sourceKey) then settledProjectId data opts source.tasks key else none := by
    have hempty : (importAreas data source opts).projectIdBySourceKey = JsMap.empty :=
      (Prod.mk.inj (Prod.mk.inj (Prod.mk.inj (Prod.mk.inj (importAreas_frame data source opts)).2).2).2).2
    rw [importProjects, get?_importProjects data opts _ source.tasks source.projects hsettled, hempty]
    simp
  constructor
  · rintro ⟨htask, hproject, hsection, harea⟩
    have hsettled := hprojects.1 hproject
    refine ⟨hareas.1 harea, hsettled, ?_, htasks.1 htask⟩
    intro sec hsec hkey projectId hid
    exact hsections.1 hsection sec hsec projectId (by rw [hkeys hsettled, if_pos hkey, hid])
  · intro h
    refine ⟨htasks.2 h.tasks, hprojects.2 h.projects, hsections.2 ?_, hareas.2 h.areas⟩
    intro sec hsec projectId hget
    rw [hkeys h.projects] at hget
    split at hget
    · next hkey => exact h.sections sec hsec hkey projectId hget
    · cases hget

end

/-! ### The moves -/

theorem buildTaskContainerMovePatch_error {task : Task} {updates : TaskContainerAssignment} {projects : List Project}
    {sections : List Section} {areas : List Area} (reserved : JsMap Rat) {e : String}
    (h : resolveTaskContainerAssignment
      { updates with projectId := normalizeOptionalContainerId updates.projectId } projects sections areas = .error e) :
    buildTaskContainerMovePatch task updates projects sections areas reserved = .error e := by
  rw [buildTaskContainerMovePatch, h]
  rfl

theorem buildTaskContainerMovePatch_ok (task : Task) {updates : TaskContainerAssignment} {projects : List Project}
    {sections : List Section} {areas : List Area} (reserved : JsMap Rat) {assignment : TaskContainerAssignment}
    (h : resolveTaskContainerAssignment
      { updates with projectId := normalizeOptionalContainerId updates.projectId } projects sections areas =
        .ok assignment) :
    ∃ move, buildTaskContainerMovePatch task updates projects sections areas reserved = .ok move := by
  rw [buildTaskContainerMovePatch, h]
  simp only [bind, Except.bind]
  split
  · exact ⟨_, rfl⟩
  · split <;> exact ⟨_, rfl⟩

section
variable [LocalCalendar] (data : AppData) (parsed : ParsedMindwtrCsvImportData) (env : ImportEnv)

/-- The import moves the task: it is one that an earlier import left behind, and its container is there. -/
def Moves (task : Task) : Prop :=
  ∃ migration assignment, (pendingTaskMigrations data parsed).get? task.id = some migration ∧
    resolveTaskContainerAssignment
      { migration with projectId := normalizeOptionalContainerId migration.projectId }
      data.projects data.sections data.areas = .ok assignment

variable {applied : AppData} {task : Task}

theorem migrateTask_length (acc : List Task × JsMap Rat) :
    (migrateTask data parsed env applied acc task).1.length = acc.1.length + 1 := by
  unfold migrateTask
  split
  · simp
  · split <;> simp

/-- The tables that the moves look into. -/
structure SameContainers (a b : AppData) : Prop where
  projects : a.projects = b.projects
  sections : a.sections = b.sections
  areas : a.areas = b.areas

theorem migrateTask_keep (hsame : SameContainers applied data) (h : ¬Moves data parsed task)
    (acc : List Task × JsMap Rat) :
    migrateTask data parsed env applied acc task = (acc.1 ++ [task], acc.2) := by
  unfold migrateTask
  cases hpending : (pendingTaskMigrations data parsed).get? task.id with
  | none => rfl
  | some migration =>
    simp only [hsame.projects, hsame.sections, hsame.areas]
    cases hresolve : resolveTaskContainerAssignment
        { migration with projectId := normalizeOptionalContainerId migration.projectId } data.projects data.sections
        data.areas with
    | error e => rw [buildTaskContainerMovePatch_error acc.2 hresolve]
    | ok assignment => exact absurd ⟨migration, assignment, hpending, hresolve⟩ h

theorem migrateTask_move (hsame : SameContainers applied data) (h : Moves data parsed task)
    (acc : List Task × JsMap Rat) :
    ∃ moved, (migrateTask data parsed env applied acc task).1 = acc.1 ++ [moved] ∧
      moved.rev = some (.num (nextRevision task.rev)) := by
  obtain ⟨migration, assignment, hpending, hresolve⟩ := h
  obtain ⟨move, hmove⟩ := buildTaskContainerMovePatch_ok task acc.2 hresolve
  unfold migrateTask
  simp only [hpending, hsame.projects, hsame.sections, hsame.areas, hmove]
  exact ⟨_, rfl, rfl⟩

theorem migrateTasks_length (l : List Task) (acc : List Task × JsMap Rat) :
    (l.foldl (migrateTask data parsed env applied) acc).1.length = acc.1.length + l.length := by
  induction l generalizing acc with
  | nil => rfl
  | cons task l ih =>
    rw [List.foldl_cons, ih, migrateTask_length, List.length_cons]
    omega

/-- What has been written stays. -/
theorem migrateTasks_prefix (applied : AppData) (l : List Task) (acc : List Task × JsMap Rat) :
    acc.1 <+: (l.foldl (migrateTask data parsed env applied) acc).1 := by
  induction l generalizing acc with
  | nil => exact List.prefix_refl _
  | cons task l ih =>
    refine List.IsPrefix.trans ?_ (ih _)
    unfold migrateTask
    split
    · exact List.prefix_append _ _
    · split
      · exact List.prefix_append _ _
      · exact List.prefix_append _ _

theorem migrateTasks_unchanged_iff (hsame : SameContainers applied data) (l : List Task)
    (hrev : ∀ task ∈ l, Moves data parsed task → task.rev ≠ some (.num (nextRevision task.rev)))
    (acc : List Task × JsMap Rat) :
    (l.foldl (migrateTask data parsed env applied) acc).1 = acc.1 ++ l ↔ ∀ task ∈ l, ¬Moves data parsed task := by
  induction l generalizing acc with
  | nil => simp
  | cons task l ih =>
    rw [List.foldl_cons, List.forall_mem_cons]
    by_cases hmoves : Moves data parsed task
    · constructor
      · intro hresult
        obtain ⟨moved, hmoved, hmovedRev⟩ := migrateTask_move data parsed env hsame hmoves acc
        have hprefix := migrateTasks_prefix data parsed env applied l (migrateTask data parsed env applied acc task)
        rw [hmoved, hresult, List.append_cons acc.1 task l] at hprefix
        have heq : acc.1 ++ [moved] = acc.1 ++ [task] :=
          List.IsPrefix.eq_of_length (List.prefix_of_prefix_length_le hprefix (List.prefix_append _ _) (by simp)) (by simp)
        have htask : moved = task := by simpa using heq
        exact absurd (htask ▸ hmovedRev) (hrev task List.mem_cons_self hmoves)
      · intro h
        exact absurd hmoves h.1
    · rw [migrateTask_keep data parsed env hsame hmoves, List.append_cons acc.1 task l,
        ih (fun t ht => hrev t (List.mem_cons_of_mem _ ht))]
      simp only [hmoves, not_false_eq_true, true_and]

/-! ### Who is moved -/

omit [LocalCalendar] in
theorem currentTask_eq_some {id : String} {task : Task} (h : currentTask data id = some task) :
    task ∈ data.tasks ∧ task.id = id :=
  JsMap.mem_of_get?_ofItems h

omit [LocalCalendar] in
theorem mem_historicalTaskCandidatesFor {sourceKeys : List String} {task : Task}
    (h : task ∈ historicalTaskCandidatesFor data sourceKeys) : task ∈ data.tasks := by
  obtain ⟨id, -, hid⟩ := List.mem_filterMap.1 h
  exact (currentTask_eq_some data hid).1

theorem mem_historicalTaskCandidates (row : ParsedMindwtrCsvTask) {task : Task}
    (h : task ∈ historicalTaskCandidates data parsed row) : task ∈ data.tasks := by
  unfold historicalTaskCandidates at h
  dsimp only at h
  generalize List.filter _ _ = keys at h
  split at h
  · exact mem_historicalTaskCandidatesFor data h
  · exact mem_historicalTaskCandidatesFor data h

/-- A migration takes a task of the document that is as an importer left it. -/
theorem resolveHistoricalTask_migrated {row : ParsedMindwtrCsvTask} {container : TaskContainerAssignment}
    (h : (resolveHistoricalTask data parsed row).verdict = .migrated container) :
    ∃ task ∈ data.tasks, task.id = (resolveHistoricalTask data parsed row).id ∧
      hasUntouchedImporterProvenance task = true := by
  revert h
  simp only [resolveHistoricalTask]
  split
  · intro h; cases h
  · intro h; cases h
  · next candidate others _ hcandidates =>
    split
    · intro h; cases h
    · split
      · intro h; cases h
      · split
        · intro h; cases h
        · next huntouched =>
          intro _
          refine ⟨candidate, mem_historicalTaskCandidates data parsed row ?_, rfl, by simpa using huntouched⟩
          rw [hcandidates]
          exact List.mem_cons_self

theorem resolveTask_migrated {row : ParsedMindwtrCsvTask} {container : TaskContainerAssignment}
    (h : (resolveTask data parsed row).verdict = .migrated container) :
    ∃ task ∈ data.tasks, task.id = (resolveTask data parsed row).id ∧ hasUntouchedImporterProvenance task = true := by
  revert h
  simp only [resolveTask]
  split
  · intro h; cases h
  · split
    · intro h; cases h
    · split
      · intro h; cases h
      · split
        · intro h; cases h
        · exact resolveHistoricalTask_migrated data parsed

theorem pendingTaskMigrations_untouched {id : String} {migration : TaskContainerAssignment}
    (h : (pendingTaskMigrations data parsed).get? id = some migration) :
    ∃ task ∈ data.tasks, task.id = id ∧ hasUntouchedImporterProvenance task = true := by
  rcases JsMap.mem_foldl_set _ _ (JsMap.mem_of_find h) with hmem | hmem
  · cases hmem
  · obtain ⟨row, -, hrow⟩ := List.mem_filterMap.1 hmem
    cases hverdict : (resolveTask data parsed row).verdict with
    | migrated container =>
      simp only [hverdict, Option.some.injEq, Prod.mk.injEq] at hrow
      rw [← hrow.1]
      exact resolveTask_migrated data parsed hverdict
    | imported => simp [hverdict] at hrow
    | edited => simp [hverdict] at hrow
    | ambiguous => simp [hverdict] at hrow

theorem rev_of_moves (hids : (data.tasks.map (·.id)).Nodup) (hmem : task ∈ data.tasks) (h : Moves data parsed task) :
    task.rev ≠ some (.num (nextRevision task.rev)) := by
  obtain ⟨migration, -, hpending, -⟩ := h
  obtain ⟨owner, howner, hid, huntouched⟩ := pendingTaskMigrations_untouched data parsed hpending
  have hsame : owner = task := List.inj_on_of_nodup_map hids howner hmem hid
  subst hsame
  simp only [hasUntouchedImporterProvenance, Bool.and_eq_true, beq_iff_eq] at huntouched
  rw [huntouched.1.1]
  decide +kernel

/-! ### The whole import -/

/-- Everything the file brings is in the document, and nothing is moved. -/
structure Settled : Prop where
  imported : ImportSettled data (importSource data parsed) (importOptions data parsed env)
  unmoved : ∀ task ∈ data.tasks, ¬Moves data parsed task

theorem applyMindwtrCsvImport_unchanged_iff (hids : (data.tasks.map (·.id)).Nodup) :
    SameTables (applyMindwtrCsvImport data parsed env) data ↔ Settled data parsed env := by
  have hiff := applyImport_unchanged_iff data (importSource data parsed) (importOptions data parsed env)
  have hmoves := fun hsame : SameContainers (applyImport data (importSource data parsed) (importOptions data parsed env))
      data => migrateTasks_unchanged_iff data parsed env hsame data.tasks
    (fun task htask => rev_of_moves data parsed hids htask) ([], getProjectOrderIndex data.tasks)
  constructor
  · rintro ⟨htasks, hprojects, hsections, hareas⟩
    have hlength := congrArg List.length htasks
    simp only [applyMindwtrCsvImport, migrateTasks_length, List.length_nil, Nat.zero_add] at hlength
    have happlied : SameTables (applyImport data (importSource data parsed) (importOptions data parsed env)) data :=
      ⟨importedTasks_eq_of_length data _ _ hlength, hprojects, hsections, hareas⟩
    refine ⟨hiff.1 happlied, (hmoves ⟨hprojects, hsections, hareas⟩).1 ?_⟩
    simp only [applyMindwtrCsvImport, happlied.1] at htasks
    rw [htasks, List.nil_append]
  · intro h
    have happlied := hiff.2 h.imported
    refine ⟨?_, happlied.2.1, happlied.2.2.1, happlied.2.2.2⟩
    simp only [applyMindwtrCsvImport, happlied.1]
    rw [(hmoves ⟨happlied.2.1, happlied.2.2.1, happlied.2.2.2⟩).2 h.unmoved, List.nil_append]

end

end Mindwtr.Import
