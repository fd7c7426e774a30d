import Mindwtr.Import.ApplySettled
import Mindwtr.Import.ExportedRows

/-!
# Importing an export again

The containers of an export have no ids in the file, so a second import has to find them by their titles. It leaves the
document as it is exactly where the tasks of every title agree on one container (`reimport_unchanged_iff`): two projects
of one title, which the application allows, make it add a third.
-/

namespace Mindwtr.Import

open Mindwtr.Js Mindwtr.Sync

/-! ### Rows of tasks that are in the document -/

/-- A file whose rows are those of live tasks of the document, each under its id. -/
structure ReimportOf [LocalCalendar] (data : AppData) (exported : List Task) (parsed : ParsedMindwtrCsvImportData) :
    Prop where
  row_of : ∀ task ∈ exported, ∃ row ∈ parsed.tasks, ∃ source, IsRowOf data source task row
  task_of : ∀ row ∈ parsed.tasks, ∃ task ∈ exported, ∃ source, IsRowOf data source task row
  containers : ContainersOf (exported.map (exportedNames data)) parsed
  keys : (parsed.tasks.map (·.sourceKey)).Nodup
  read : ∀ task ∈ exported, IdRead task
  live : ∀ task ∈ exported, task ∈ data.tasks ∧ isLiveTask task = true
  ids : (data.tasks.map (·.id)).Nodup

section
variable [LocalCalendar] {data : AppData} {exported : List Task} {parsed : ParsedMindwtrCsvImportData}

theorem parsedProject_eq_some (h : ReimportOf data exported parsed) {key : String} {project : ParsedMindwtrCsvProject} :
    parsedProject parsed (some key) = some project ↔ project ∈ parsed.projects ∧ project.sourceKey = key :=
  JsMap.get?_ofItems h.containers.projectKeys

theorem explicitTaskSourceKeyFor_ne_empty (id : String) : explicitTaskSourceKeyFor id ≠ "" := by
  intro h
  have hlist := congrArg String.toList h
  simp [explicitTaskSourceKeyFor, encodeSourceKeyTuple] at hlist

theorem taskSourceKeyFor_row (h : ReimportOf data exported parsed) {row : ParsedMindwtrCsvTask}
    (hrow : row ∈ parsed.tasks) : taskSourceKeyFor parsed row = row.sourceKey := by
  obtain ⟨task, htask, source, hof⟩ := h.task_of row hrow
  have hkey : row.sourceKey ≠ "" := by
    rw [(hof.identity (h.read task htask)).2.2]
    exact explicitTaskSourceKeyFor_ne_empty task.id
  unfold taskSourceKeyFor
  cases hproject : parsedProject parsed row.projectSourceKey with
  | none => exact if_neg hkey
  | some project =>
    have hcanonical : project.sourceKey = projectSourceKeyFor project.areaSourceKey project.name := by
      cases hname : row.projectSourceKey with
      | none => rw [hname] at hproject; cases hproject
      | some key =>
        rw [hname] at hproject
        obtain ⟨hmem, -⟩ := (parsedProject_eq_some h).1 hproject
        obtain ⟨names, -, hnames, harea, hprojectName⟩ := h.containers.projects project hmem
        rw [harea, hprojectName]
        unfold RowNames.projectSourceKey nonEmpty at hnames
        split at hnames
        · cases hnames
        · exact (Option.some.inj hnames).symm
    simp only [if_pos hcanonical, if_neg hkey]

theorem tasksForImport_eq (h : ReimportOf data exported parsed) : tasksForImport parsed = parsed.tasks := by
  refine (List.map_congr_left fun row hrow => ?_).trans (List.map_id _)
  rw [taskSourceKeyFor_row h hrow]
  rfl

theorem currentTask_of_mem (h : ReimportOf data exported parsed) {task : Task} (htask : task ∈ data.tasks) :
    currentTask data task.id = some task := (JsMap.get?_ofItems h.ids).2 ⟨htask, rfl⟩

/-- The ID column decides. -/
theorem resolveTask_row (h : ReimportOf data exported parsed) {task : Task} (htask : task ∈ exported)
    {row : ParsedMindwtrCsvTask} {source : MindwtrCsvRowSource} (hof : IsRowOf data source task row) :
    resolveTask data parsed row = ⟨task.id, .imported⟩ := by
  obtain ⟨hkind, hid, -⟩ := hof.identity (h.read task htask)
  have hcurrent := currentTask_of_mem h (h.live task htask).1
  simp only [resolveTask, hkind, hid, hcurrent, Option.isSome_some, and_self, if_true]

theorem resolveTask_imported (h : ReimportOf data exported parsed) {row : ParsedMindwtrCsvTask}
    (hrow : row ∈ tasksForImport parsed) : (resolveTask data parsed row).verdict = .imported := by
  rw [tasksForImport_eq h] at hrow
  obtain ⟨task, htask, source, hof⟩ := h.task_of row hrow
  rw [resolveTask_row h htask hof]

theorem importedRows_eq (h : ReimportOf data exported parsed) : importedRows data parsed = parsed.tasks := by
  have hmigrated : migrationSourceKeys data parsed = [] := by
    refine List.filterMap_eq_nil_iff.2 fun row hrow => ?_
    simp only [resolveTask_imported h hrow]
  have hedited : editedHistoricalSourceKeys data parsed = [] := by
    refine List.filterMap_eq_nil_iff.2 fun row hrow => ?_
    simp only [resolveTask_imported h hrow]
  have hambiguous : ambiguousMigrationSourceIds data parsed = [] := by
    refine List.filterMap_eq_nil_iff.2 fun row hrow => ?_
    simp only [resolveTask_imported h hrow]
  simp only [importedRows, hmigrated, hedited, hambiguous, tasksForImport_eq h, List.contains_nil, Bool.not_false,
    Bool.and_self, List.filter_true]

theorem not_moves (h : ReimportOf data exported parsed) (task : Task) : ¬Moves data parsed task := by
  rintro ⟨migration, -, hpending, -⟩
  have hnone : pendingTaskMigrations data parsed = .ofList [] := by
    refine congrArg JsMap.ofList (List.filterMap_eq_nil_iff.2 fun row hrow => ?_)
    simp only [resolveTask_imported h hrow]
  rw [hnone] at hpending
  cases hpending

theorem compatibleIdFor_row (h : ReimportOf data exported parsed) {task : Task} (htask : task ∈ exported)
    {row : ParsedMindwtrCsvTask} (hrow : row ∈ parsed.tasks) {source : MindwtrCsvRowSource}
    (hof : IsRowOf data source task row) : compatibleIdFor data parsed .task row.sourceKey = task.id := by
  have hget : (resolvedTaskIds data parsed).get? row.sourceKey = some task.id := by
    have hkeys : (((tasksForImport parsed).map fun task =>
        (task.sourceKey, (resolveTask data parsed task).id)).map Prod.fst).Nodup := by
      rw [tasksForImport_eq h, List.map_map]
      exact h.keys
    rw [resolvedTaskIds, JsMap.get?, JsMap.entries_ofList _ hkeys, JsMap.find_eq_some_iff hkeys, tasksForImport_eq h]
    exact List.mem_map.2 ⟨row, hrow, by rw [resolveTask_row h htask hof]⟩
  simp only [compatibleIdFor, hget, Option.getD_some]

end

/-! ### What the tasks of a title say -/

section
variable [LocalCalendar] (data : AppData) (exported : List Task)

/-- The tasks of the rows with this key are in one and the same container, as far as they are in a live one. -/
def Agreed (keyOf : RowNames → Option String) (containerOf : Task → Option String) (key id : String) : Prop :=
  id ≠ "" ∧ (∃ task ∈ exported, keyOf (exportedNames data task) = some key ∧ containerOf task = some id) ∧
    ∀ task ∈ exported, keyOf (exportedNames data task) = some key →
      ∀ other, containerOf task = some other → other = id

/-- The containers of a task that are there and have not been deleted. -/
def areaIdOf (task : Task) : Option String := (liveAreaOf data task).map (·.id)
def projectIdOf (task : Task) : Option String := (liveProjectOf data task).map (·.id)
def sectionIdOf (task : Task) : Option String := (liveSectionOf data task).map (·.id)

omit [LocalCalendar] in
theorem settle_eq_some_iff (records : List (String × String)) (key id : String) :
    settle records key = some id ↔ id ≠ "" ∧ (key, id) ∈ records ∧ ∀ other, (key, other) ∈ records → other = id := by
  have hmem (other : String) : other ∈ ((records.filter fun record => record.1 == key).map Prod.snd).dedup ↔
      (key, other) ∈ records := by
    simp only [List.mem_dedup, List.mem_map, List.mem_filter, beq_iff_eq]
    constructor
    · rintro ⟨record, ⟨hrecord, rfl⟩, rfl⟩
      exact hrecord
    · intro h
      exact ⟨(key, other), ⟨h, rfl⟩, rfl⟩
  have hnodup := List.nodup_dedup ((records.filter fun record => record.1 == key).map Prod.snd)
  unfold settle
  simp only [← hmem]
  cases hids : ((records.filter fun record => record.1 == key).map Prod.snd).dedup with
  | nil => simp
  | cons first rest =>
    cases rest with
    | nil =>
      simp only [nonEmpty, List.mem_singleton]
      split
      · next hempty => simp [hempty]
      · next hne =>
        simp only [Option.some.injEq]
        constructor
        · rintro rfl; exact ⟨hne, rfl, fun other h => h⟩
        · rintro ⟨-, rfl, -⟩; rfl
    | cons second rest =>
      rw [hids] at hnodup
      simp only [reduceCtorEq, false_iff, not_and]
      intro _ _ hall
      have hfirst := hall first (by simp)
      have hsecond := hall second (by simp)
      exact (List.nodup_cons.1 hnodup).1 (by rw [hfirst, ← hsecond]; simp)

end

section
variable [LocalCalendar] {data : AppData} {exported : List Task} {parsed : ParsedMindwtrCsvImportData}

theorem liveTaskOf_row (h : ReimportOf data exported parsed) (env : ImportEnv) {task : Task} (htask : task ∈ exported)
    {row : ParsedMindwtrCsvTask} (hrow : row ∈ parsed.tasks) {source : MindwtrCsvRowSource}
    (hof : IsRowOf data source task row) :
    liveTaskOf data (importOptions data parsed env) { row with } = some task := by
  have hid : (importOptions data parsed env).idFor .task row.sourceKey = task.id := compatibleIdFor_row h htask hrow hof
  obtain ⟨hmem, hlive⟩ := h.live task htask
  rw [liveTaskOf, hid, (JsMap.get?_ofItems h.ids).2 ⟨hmem, rfl⟩, Option.filter_some, if_pos hlive]

theorem importSource_tasks (h : ReimportOf data exported parsed) :
    (importSource data parsed).tasks = parsed.tasks.map fun row => { row with } := by
  simp only [importSource, importedRows_eq h]

/-- The records of the import are what the exported tasks say. -/
theorem mem_carriedIds (h : ReimportOf data exported parsed) (env : ImportEnv)
    (sourceKey : ImportTaskSource → Option String) (keyOf : RowNames → Option String)
    (hkey : ∀ task row source, IsRowOf data source task row →
      sourceKey { row with } = keyOf (exportedNames data task))
    (containerOf : Task → Option String) (key id : String) :
    (key, id) ∈ carriedIds data (importOptions data parsed env) (importSource data parsed).tasks sourceKey containerOf ↔
      ∃ task ∈ exported, keyOf (exportedNames data task) = some key ∧ containerOf task = some id := by
  rw [carriedIds, importSource_tasks h, List.filterMap_map, List.mem_filterMap]
  constructor
  · rintro ⟨row, hrow, hrecord⟩
    obtain ⟨task, htask, source, hof⟩ := h.task_of row hrow
    have hlive := liveTaskOf_row h env htask hrow hof
    simp only [Function.comp_apply, hlive, hkey task row source hof] at hrecord
    refine ⟨task, htask, ?_⟩
    cases hname : keyOf (exportedNames data task) with
    | none => simp [hname] at hrecord
    | some name =>
      cases hcontainer : containerOf task with
      | none => simp [hname, hcontainer] at hrecord
      | some container =>
        simp [hname, hcontainer] at hrecord
        exact ⟨congrArg some hrecord.1, congrArg some hrecord.2⟩
  · rintro ⟨task, htask, hname, hcontainer⟩
    obtain ⟨row, hrow, source, hof⟩ := h.row_of task htask
    refine ⟨row, hrow, ?_⟩
    simp [Function.comp_apply, liveTaskOf_row h env htask hrow hof, hkey task row source hof, hname, hcontainer]

theorem settle_carriedIds (h : ReimportOf data exported parsed) (env : ImportEnv)
    (sourceKey : ImportTaskSource → Option String) (keyOf : RowNames → Option String)
    (hkey : ∀ task row source, IsRowOf data source task row →
      sourceKey { row with } = keyOf (exportedNames data task))
    (containerOf : Task → Option String) (key id : String) :
    settle (carriedIds data (importOptions data parsed env) (importSource data parsed).tasks sourceKey containerOf) key =
        some id ↔ Agreed data exported keyOf containerOf key id := by
  simp only [settle_eq_some_iff, mem_carriedIds h env sourceKey keyOf hkey, Agreed]
  constructor
  · rintro ⟨hne, hex, hall⟩
    exact ⟨hne, hex, fun task htask hname other hother => hall other ⟨task, htask, hname, hother⟩⟩
  · rintro ⟨hne, hex, hall⟩
    refine ⟨hne, hex, ?_⟩
    rintro other ⟨task, htask, hname, hother⟩
    exact hall task htask hname other hother

end

/-! ### The ids of the containers -/

section
variable [LocalCalendar] (data : AppData)

/-- The containers that a row makes if it stands alone in a file. -/
def soleRow (names : RowNames) : ParsedMindwtrCsvImportData := addContainers names {}

/-- The id under which an import looks for the project of a row: its own or one of an earlier importer. -/
def projectImportId (names : RowNames) : String :=
  ((soleRow names).projects.head?.map (resolveProjectId data (soleRow names))).getD ""

def sectionImportId (names : RowNames) : String :=
  ((soleRow names).sections.head?.map (resolveSectionId data (soleRow names))).getD ""

theorem containersOf_soleRow (names : RowNames) : ContainersOf [names] (soleRow names) :=
  containersOf_addContainers (containersOf_nil []) names

variable {data} {names names' : List RowNames} {parsed parsed' : ParsedMindwtrCsvImportData}

theorem legacyProjectSourceKey_of_mem (h : ContainersOf names parsed) {project : ParsedMindwtrCsvProject}
    (hmem : project ∈ parsed.projects) : legacyProjectSourceKey parsed project.sourceKey =
      if project.areaSourceKey.isSome then some (normalizeSourceKey project.name) else none := by
  have hnodup : ((parsed.projects.filter (·.areaSourceKey.isSome)).map (·.sourceKey)).Nodup :=
    h.projectKeys.sublist (List.filter_sublist.map _)
  have hget {q : ParsedMindwtrCsvProject} : (JsMap.ofItems (fun p : ParsedMindwtrCsvProject => p.sourceKey)
      (parsed.projects.filter (·.areaSourceKey.isSome))).get? project.sourceKey = some q ↔
        q ∈ parsed.projects.filter (·.areaSourceKey.isSome) ∧ q.sourceKey = project.sourceKey :=
    JsMap.get?_ofItems hnodup
  unfold legacyProjectSourceKey
  split
  · next harea => rw [hget.2 ⟨List.mem_filter.2 ⟨hmem, harea⟩, rfl⟩, Option.map_some]
  · next harea =>
    rw [Option.map_eq_none_iff]
    by_contra hsome
    obtain ⟨q, hq⟩ := Option.ne_none_iff_exists'.1 hsome
    obtain ⟨hqmem, hqkey⟩ := hget.1 hq
    obtain ⟨hqmem, hqarea⟩ := List.mem_filter.1 hqmem
    have hsame : q = project := List.inj_on_of_nodup_map h.projectKeys hqmem hmem hqkey
    exact harea (hsame ▸ hqarea)

variable [TextLaws]

/-- Projects of one key are of one area and have, up to case, one name. -/
theorem project_of_key (h : ContainersOf names parsed) (h' : ContainersOf names' parsed')
    {project project' : ParsedMindwtrCsvProject} (hmem : project ∈ parsed.projects) (hmem' : project' ∈ parsed'.projects)
    (hkey : project.sourceKey = project'.sourceKey) : project.areaSourceKey = project'.areaSourceKey ∧
      normalizeSourceKey project.name = normalizeSourceKey project'.name := by
  have hcanonical {names : List RowNames} {parsed : ParsedMindwtrCsvImportData} (h : ContainersOf names parsed)
      {project : ParsedMindwtrCsvProject} (hmem : project ∈ parsed.projects) :
      project.sourceKey = projectSourceKeyFor project.areaSourceKey project.name := by
    obtain ⟨n, -, hn, harea, hname⟩ := h.projects project hmem
    rw [harea, hname]
    unfold RowNames.projectSourceKey nonEmpty at hn
    split at hn
    · cases hn
    · exact (Option.some.inj hn).symm
  rw [hcanonical h hmem, hcanonical h' hmem'] at hkey
  exact projectSourceKeyFor_injective hkey

theorem resolveProjectId_eq (h : ContainersOf names parsed) (h' : ContainersOf names' parsed')
    {project project' : ParsedMindwtrCsvProject} (hmem : project ∈ parsed.projects) (hmem' : project' ∈ parsed'.projects)
    (hkey : project.sourceKey = project'.sourceKey) :
    resolveProjectId data parsed project = resolveProjectId data parsed' project' := by
  obtain ⟨harea, hname⟩ := project_of_key h h' hmem hmem' hkey
  have hlegacy : legacyProjectSourceKey parsed project'.sourceKey = legacyProjectSourceKey parsed' project'.sourceKey := by
    rw [legacyProjectSourceKey_of_mem h' hmem', ← hkey, legacyProjectSourceKey_of_mem h hmem, harea, hname]
  simp only [resolveProjectId, colonProjectSourceKeyFor, hkey, harea, hname, hlegacy]
  rfl

omit [TextLaws] in
theorem resolvedProjectIds_of_mem (h : ContainersOf names parsed) {project : ParsedMindwtrCsvProject}
    (hmem : project ∈ parsed.projects) :
    (resolvedProjectIds data parsed).get? project.sourceKey = some (resolveProjectId data parsed project) := by
  have hkeys : ((parsed.projects.map fun project =>
      (project.sourceKey, resolveProjectId data parsed project)).map Prod.fst).Nodup := by
    rw [List.map_map]
    exact h.projectKeys
  rw [resolvedProjectIds, JsMap.get?, JsMap.entries_ofList _ hkeys, JsMap.find_eq_some_iff hkeys]
  exact List.mem_map.2 ⟨project, hmem, rfl⟩

omit [TextLaws] in
theorem resolvedSectionIds_of_mem (h : ContainersOf names parsed) {sec : ParsedMindwtrCsvSection}
    (hmem : sec ∈ parsed.sections) :
    (resolvedSectionIds data parsed).get? sec.sourceKey = some (resolveSectionId data parsed sec) := by
  have hkeys : ((parsed.sections.map fun sec =>
      (sec.sourceKey, resolveSectionId data parsed sec)).map Prod.fst).Nodup := by
    rw [List.map_map]
    exact h.sectionKeys
  rw [resolvedSectionIds, JsMap.get?, JsMap.entries_ofList _ hkeys, JsMap.find_eq_some_iff hkeys]
  exact List.mem_map.2 ⟨sec, hmem, rfl⟩

/-- The import looks for the project of a row where the row alone would make it look. -/
theorem projectImportId_eq (h : ContainersOf names parsed) {n : RowNames} (hn : n ∈ names) {key : String}
    (hkey : n.projectSourceKey = some key) : compatibleIdFor data parsed .project key = projectImportId data n := by
  obtain ⟨project, hmem, rfl⟩ := List.mem_map.1 (h.project_of n hn key hkey)
  obtain ⟨sole, hsole, hsoleKey⟩ : ∃ sole, (soleRow n).projects = [sole] ∧ sole.sourceKey = project.sourceKey := by
    simp [soleRow, addContainers, addOnce, hkey]
  have hsame : resolveProjectId data parsed project = resolveProjectId data (soleRow n) sole :=
    resolveProjectId_eq h (containersOf_soleRow n) hmem (by rw [hsole]; exact List.mem_singleton_self _) hsoleKey.symm
  simp only [compatibleIdFor, resolvedProjectIds_of_mem h hmem, projectImportId, hsole, hsame, List.head?_cons,
    Option.map_some, Option.getD_some]

/-- Sections of one key are of projects of one key and have, up to case, one name. -/
theorem section_of_key (h : ContainersOf names parsed) (h' : ContainersOf names' parsed')
    {sec sec' : ParsedMindwtrCsvSection} (hmem : sec ∈ parsed.sections) (hmem' : sec' ∈ parsed'.sections)
    (hkey : sec.sourceKey = sec'.sourceKey) : sec.projectSourceKey = sec'.projectSourceKey ∧
      normalizeSourceKey sec.name = normalizeSourceKey sec'.name := by
  have hcanonical {names : List RowNames} {parsed : ParsedMindwtrCsvImportData} (h : ContainersOf names parsed)
      {sec : ParsedMindwtrCsvSection} (hmem : sec ∈ parsed.sections) : ∃ area name,
      sec.sourceKey = sectionSourceKeyFor area name sec.name ∧ sec.projectSourceKey = projectSourceKeyFor area name := by
    obtain ⟨n, -, hn, hproject, hname⟩ := h.sections sec hmem
    refine ⟨n.areaSourceKey, n.projectName, ?_, ?_⟩
    · rw [hname]
      unfold RowNames.sectionSourceKey nonEmpty at hn
      split at hn
      · cases hn
      · split at hn
        · cases hn
        · exact (Option.some.inj hn).symm
    · unfold RowNames.projectSourceKey nonEmpty at hproject
      split at hproject
      · cases hproject
      · exact (Option.some.inj hproject).symm
  obtain ⟨area, name, hsec, hproject⟩ := hcanonical h hmem
  obtain ⟨area', name', hsec', hproject'⟩ := hcanonical h' hmem'
  rw [hsec, hsec'] at hkey
  obtain ⟨rfl, hname, hsecName⟩ := sectionSourceKeyFor_injective hkey
  exact ⟨by rw [hproject, hproject', projectSourceKeyFor, projectSourceKeyFor, hname], hsecName⟩

/-- The rows of one section are rows of its project. -/
theorem projectSourceKey_eq_of_section {n n' : RowNames} {key projectKey projectKey' : String}
    (hkey : n.sectionSourceKey = some key) (hprojectKey : n.projectSourceKey = some projectKey)
    (hkey' : n'.sectionSourceKey = some key) (hprojectKey' : n'.projectSourceKey = some projectKey') :
    projectKey = projectKey' := by
  have hcanonical {n : RowNames} {key projectKey : String} (hkey : n.sectionSourceKey = some key)
      (hprojectKey : n.projectSourceKey = some projectKey) :
      key = sectionSourceKeyFor n.areaSourceKey n.projectName n.sectionName ∧
        projectKey = projectSourceKeyFor n.areaSourceKey n.projectName := by
    unfold RowNames.sectionSourceKey nonEmpty at hkey
    unfold RowNames.projectSourceKey nonEmpty at hprojectKey
    split at hkey
    · cases hkey
    · next hne =>
      rw [if_neg hne] at hprojectKey
      split at hkey
      · cases hkey
      · exact ⟨(Option.some.inj hkey).symm, (Option.some.inj hprojectKey).symm⟩
  obtain ⟨hsec, rfl⟩ := hcanonical hkey hprojectKey
  obtain ⟨hsec', rfl⟩ := hcanonical hkey' hprojectKey'
  obtain ⟨harea, hname, -⟩ := sectionSourceKeyFor_injective (hsec.symm.trans hsec')
  rw [projectSourceKeyFor, projectSourceKeyFor, harea, hname]

omit [TextLaws] in
theorem project_of_section (h : ContainersOf names parsed) {sec : ParsedMindwtrCsvSection} (hmem : sec ∈ parsed.sections) :
    ∃ project ∈ parsed.projects, project.sourceKey = sec.projectSourceKey := by
  obtain ⟨n, hn, -, hproject, -⟩ := h.sections sec hmem
  obtain ⟨project, hproject, hkey⟩ := List.mem_map.1 (h.project_of n hn _ hproject)
  exact ⟨project, hproject, hkey⟩

theorem resolveSectionId_eq (h : ContainersOf names parsed) (h' : ContainersOf names' parsed')
    {sec sec' : ParsedMindwtrCsvSection} (hmem : sec ∈ parsed.sections) (hmem' : sec' ∈ parsed'.sections)
    (hkey : sec.sourceKey = sec'.sourceKey) :
    resolveSectionId data parsed sec = resolveSectionId data parsed' sec' := by
  obtain ⟨hprojectKey, hname⟩ := section_of_key h h' hmem hmem' hkey
  obtain ⟨project, hproject, howner⟩ := project_of_section h hmem
  obtain ⟨project', hproject', howner'⟩ := project_of_section h' hmem'
  have hsameKey : project.sourceKey = project'.sourceKey := by rw [howner, howner', hprojectKey]
  obtain ⟨harea, hprojectName⟩ := project_of_key h h' hproject hproject' hsameKey
  have hparsed : parsedProject parsed (some sec'.projectSourceKey) = some project :=
    (JsMap.get?_ofItems h.projectKeys).2 ⟨hproject, by rw [howner, hprojectKey]⟩
  have hparsed' : parsedProject parsed' (some sec'.projectSourceKey) = some project' :=
    (JsMap.get?_ofItems h'.projectKeys).2 ⟨hproject', howner'⟩
  have hexpected : (resolvedProjectIds data parsed).get? sec'.projectSourceKey =
      (resolvedProjectIds data parsed').get? sec'.projectSourceKey := by
    rw [← howner', resolvedProjectIds_of_mem h' hproject', ← hsameKey, resolvedProjectIds_of_mem h hproject,
      resolveProjectId_eq h h' hproject hproject' hsameKey]
  have hlegacy : legacyProjectSourceKey parsed sec'.projectSourceKey =
      legacyProjectSourceKey parsed' sec'.projectSourceKey := by
    rw [← howner', legacyProjectSourceKey_of_mem h' hproject', ← hsameKey, legacyProjectSourceKey_of_mem h hproject, harea,
      hprojectName]
  simp only [resolveSectionId, legacySectionSourceKey, colonProjectSourceKeyFor, hkey, hprojectKey, hname, hparsed,
    hparsed', hexpected, hlegacy, harea, hprojectName]

theorem sectionImportId_eq (h : ContainersOf names parsed) {n : RowNames} (hn : n ∈ names) {key : String}
    (hkey : n.sectionSourceKey = some key) : compatibleIdFor data parsed .sec key = sectionImportId data n := by
  obtain ⟨sec, hmem, rfl⟩ := List.mem_map.1 (h.section_of n hn key hkey)
  obtain ⟨projectKey, hprojectKey⟩ := projectSourceKey_of_section hkey
  obtain ⟨sole, hsole, hsoleKey⟩ : ∃ sole, (soleRow n).sections = [sole] ∧ sole.sourceKey = sec.sourceKey := by
    simp [soleRow, addContainers, addOnce, hkey, hprojectKey]
  have hsame : resolveSectionId data parsed sec = resolveSectionId data (soleRow n) sole :=
    resolveSectionId_eq h (containersOf_soleRow n) hmem (by rw [hsole]; exact List.mem_singleton_self _) hsoleKey.symm
  simp only [compatibleIdFor, resolvedSectionIds_of_mem h hmem, sectionImportId, hsole, hsame, List.head?_cons,
    Option.map_some, Option.getD_some]

end

/-! ### When nothing changes -/

section
variable [LocalCalendar] (data : AppData) (exported : List Task)

/-- The sections and tasks of a row go to this project: the one found under its id, or else the one of its tasks. -/
def LeadsTo (names : RowNames) (projectId : String) : Prop :=
  match existingProject data (projectImportId data names) with
  | some existing => truthy existing.deletedAt = false ∧ existing.id = projectId
  | none => ∃ key, names.projectSourceKey = some key ∧
      Agreed data exported (·.projectSourceKey) (projectIdOf data) key projectId

/-- Every container that the tasks name is there under the id an import gives it, or is one that its tasks agree on. -/
structure ContainersAgree : Prop where
  areas : ∀ task ∈ exported, ∀ key, (exportedNames data task).areaSourceKey = some key →
    (existingArea data (createMindwtrCsvImportId .area key)).isSome ∨
      ∃ id, Agreed data exported (·.areaSourceKey) (areaIdOf data) key id
  projects : ∀ task ∈ exported, ∀ key, (exportedNames data task).projectSourceKey = some key →
    (existingProject data (projectImportId data (exportedNames data task))).isSome ∨
      ∃ id, Agreed data exported (·.projectSourceKey) (projectIdOf data) key id
  sections : ∀ task ∈ exported, ∀ key, (exportedNames data task).sectionSourceKey = some key →
    ∀ projectId, LeadsTo data exported (exportedNames data task) projectId →
      (existingSection data (sectionImportId data (exportedNames data task))).isSome ∨
        ∃ id sec, Agreed data exported (·.sectionSourceKey) (sectionIdOf data) key id ∧
          existingSection data id = some sec ∧ sec.projectId = some (.str projectId)

end

section
variable [LocalCalendar] [TextLaws] {data : AppData} {exported : List Task} {parsed : ParsedMindwtrCsvImportData}

omit [TextLaws] in
theorem isSome_settle_carriedIds (h : ReimportOf data exported parsed) (env : ImportEnv)
    (sourceKey : ImportTaskSource → Option String) (keyOf : RowNames → Option String)
    (hkey : ∀ task row source, IsRowOf data source task row →
      sourceKey { row with } = keyOf (exportedNames data task))
    (containerOf : Task → Option String) (key : String) :
    (settle (carriedIds data (importOptions data parsed env) (importSource data parsed).tasks sourceKey containerOf)
      key).isSome ↔ ∃ id, Agreed data exported keyOf containerOf key id := by
  rw [Option.isSome_iff_exists]
  exact exists_congr (settle_carriedIds h env sourceKey keyOf hkey containerOf key)

omit [TextLaws] in
theorem areaSettled_iff (h : ReimportOf data exported parsed) (env : ImportEnv) (key : String) :
    AreaSettled data (importOptions data parsed env) (importSource data parsed).tasks key ↔
      (existingArea data (createMindwtrCsvImportId .area key)).isSome ∨
        ∃ id, Agreed data exported (·.areaSourceKey) (areaIdOf data) key id :=
  or_congr Iff.rfl (isSome_settle_carriedIds h env _ _ (fun _ _ _ hof => hof.areaSourceKey) _ key)

theorem projectSettled_iff (h : ReimportOf data exported parsed) (env : ImportEnv) {task : Task}
    (htask : task ∈ exported) {key : String} (hkey : (exportedNames data task).projectSourceKey = some key) :
    ProjectSettled data (importOptions data parsed env) (importSource data parsed).tasks key ↔
      (existingProject data (projectImportId data (exportedNames data task))).isSome ∨
        ∃ id, Agreed data exported (·.projectSourceKey) (projectIdOf data) key id := by
  have hid : (importOptions data parsed env).idFor .project key = projectImportId data (exportedNames data task) :=
    projectImportId_eq h.containers (List.mem_map_of_mem htask) hkey
  rw [ProjectSettled, hid]
  exact or_congr Iff.rfl (isSome_settle_carriedIds h env _ _ (fun _ _ _ hof => hof.projectSourceKey) _ key)

theorem settledProjectId_iff (h : ReimportOf data exported parsed) (env : ImportEnv) {task : Task}
    (htask : task ∈ exported) {key : String} (hkey : (exportedNames data task).projectSourceKey = some key)
    (projectId : String) :
    settledProjectId data (importOptions data parsed env) (importSource data parsed).tasks key = some projectId ↔
      LeadsTo data exported (exportedNames data task) projectId := by
  have hid : (importOptions data parsed env).idFor .project key = projectImportId data (exportedNames data task) :=
    projectImportId_eq h.containers (List.mem_map_of_mem htask) hkey
  rw [settledProjectId, LeadsTo, hid]
  cases hexisting : existingProject data (projectImportId data (exportedNames data task)) with
  | some existing =>
    cases hdeleted : truthy existing.deletedAt <;> simp [hdeleted]
  | none =>
    simp only [hkey, Option.some.injEq, exists_eq_left']
    exact settle_carriedIds h env _ _ (fun _ _ _ hof => hof.projectSourceKey) _ key projectId

theorem sectionSettled_iff (h : ReimportOf data exported parsed) (env : ImportEnv) {task : Task}
    (htask : task ∈ exported) {key : String} (hkey : (exportedNames data task).sectionSourceKey = some key)
    (projectId : String) :
    SectionSettled data (importOptions data parsed env) (importSource data parsed).tasks key projectId ↔
      (existingSection data (sectionImportId data (exportedNames data task))).isSome ∨
        ∃ id sec, Agreed data exported (·.sectionSourceKey) (sectionIdOf data) key id ∧
          existingSection data id = some sec ∧ sec.projectId = some (.str projectId) := by
  have hid : (importOptions data parsed env).idFor .sec key = sectionImportId data (exportedNames data task) :=
    sectionImportId_eq h.containers (List.mem_map_of_mem htask) hkey
  rw [SectionSettled, hid]
  refine or_congr Iff.rfl ?_
  have hagreed (id : String) : liveSectionIdBySourceKey data (importOptions data parsed env)
      (importSource data parsed).tasks key = some id ↔
        Agreed data exported (·.sectionSourceKey) (sectionIdOf data) key id :=
    settle_carriedIds h env _ _ (fun _ _ _ hof => hof.sectionSourceKey) _ key id
  simp only [carriedSectionId, Option.isSome_iff_exists, Option.filter_eq_some_iff, beq_iff_eq,
    Option.bind_eq_some_iff, hagreed]
  constructor
  · rintro ⟨id, hid, sec, hsec, howner⟩
    exact ⟨id, sec, hid, hsec, howner⟩
  · rintro ⟨id, sec, hid, hsec, howner⟩
    exact ⟨id, hid, sec, hsec, howner⟩

omit [TextLaws] in
theorem importSource_areas (data : AppData) (parsed : ParsedMindwtrCsvImportData) :
    (importSource data parsed).areas = parsed.areas.map fun area => { area with } := rfl

omit [TextLaws] in
theorem importSource_projects (data : AppData) (parsed : ParsedMindwtrCsvImportData) :
    (importSource data parsed).projects = parsed.projects.map fun project => { project with } := rfl

omit [TextLaws] in
theorem importSource_sections (data : AppData) (parsed : ParsedMindwtrCsvImportData) :
    (importSource data parsed).sections = parsed.sections.map fun sec => { sec with } := rfl

/-- Importing the rows again settles exactly where the tasks agree on the containers of their titles. -/
theorem settled_iff_containersAgree (h : ReimportOf data exported parsed) (env : ImportEnv) :
    Settled data parsed env ↔ ContainersAgree data exported := by
  have hrow : ∀ n ∈ exported.map (exportedNames data), ∃ task ∈ exported, exportedNames data task = n :=
    fun n hn => List.mem_map.1 hn
  constructor
  · rintro ⟨⟨hareas, hprojects, hsections, -⟩, -⟩
    rw [importSource_areas, List.forall_mem_map] at hareas
    rw [importSource_projects, List.forall_mem_map] at hprojects
    rw [importSource_sections, List.forall_mem_map] at hsections
    constructor
    · intro task htask key hkey
      obtain ⟨area, harea, rfl⟩ := List.mem_map.1 (h.containers.area_of _ (List.mem_map_of_mem htask) key hkey)
      exact (areaSettled_iff h env area.sourceKey).1 (hareas area harea)
    · intro task htask key hkey
      obtain ⟨project, hproject, rfl⟩ :=
        List.mem_map.1 (h.containers.project_of _ (List.mem_map_of_mem htask) key hkey)
      exact (projectSettled_iff h env htask hkey).1 (hprojects project hproject)
    · intro task htask key hkey projectId hleads
      obtain ⟨sec, hsec, rfl⟩ := List.mem_map.1 (h.containers.section_of _ (List.mem_map_of_mem htask) key hkey)
      obtain ⟨owner, howner, hownerKey⟩ := project_of_section h.containers hsec
      obtain ⟨projectKey, hprojectKey⟩ := projectSourceKey_of_section hkey
      have hsame : projectKey = sec.projectSourceKey := by
        obtain ⟨n, hn, hnkey, hnproject, -⟩ := h.containers.sections sec hsec
        exact projectSourceKey_eq_of_section hkey hprojectKey hnkey hnproject
      have hlisted : sec.projectSourceKey ∈ (importSource data parsed).projects.map (·.sourceKey) := by
        rw [importSource_projects, List.map_map]
        exact List.mem_map.2 ⟨owner, howner, hownerKey⟩
      have hsettled := (settledProjectId_iff h env htask hprojectKey projectId).2 hleads
      rw [hsame] at hsettled
      exact (sectionSettled_iff h env htask hkey projectId).1 (hsections sec hsec hlisted projectId hsettled)
  · intro hagree
    refine ⟨⟨?_, ?_, ?_, ?_⟩, fun task _ => not_moves h task⟩
    · rw [importSource_areas, List.forall_mem_map]
      intro area harea
      obtain ⟨n, hn, hkey⟩ := h.containers.areas area harea
      obtain ⟨task, htask, rfl⟩ := hrow n hn
      exact (areaSettled_iff h env area.sourceKey).2 (hagree.areas task htask _ hkey)
    · rw [importSource_projects, List.forall_mem_map]
      intro project hproject
      obtain ⟨n, hn, hkey, -⟩ := h.containers.projects project hproject
      obtain ⟨task, htask, rfl⟩ := hrow n hn
      exact (projectSettled_iff h env htask hkey).2 (hagree.projects task htask _ hkey)
    · rw [importSource_sections, List.forall_mem_map]
      intro sec hsec _ projectId hsettled
      obtain ⟨n, hn, hkey, hprojectKey, -⟩ := h.containers.sections sec hsec
      obtain ⟨task, htask, rfl⟩ := hrow n hn
      have hleads := (settledProjectId_iff h env htask hprojectKey projectId).1 hsettled
      exact (sectionSettled_iff h env htask hkey projectId).2 (hagree.sections task htask _ hkey projectId hleads)
    · intro imported himported
      rw [importSource_tasks h] at himported
      obtain ⟨row, hmem, rfl⟩ := List.mem_map.1 himported
      obtain ⟨task, htask, source, hof⟩ := h.task_of row hmem
      have hid : (importOptions data parsed env).idFor .task row.sourceKey = task.id :=
        compatibleIdFor_row h htask hmem hof
      exact hid ▸ List.mem_map_of_mem (h.live task htask).1

end

/-! ### The file of a document -/

section
variable [LocalCalendar] [TextLaws] (data : AppData) {tasks : List Task} {separator : Separator} {fileName : String}
  {parsed : ParsedMindwtrCsvImportData}

omit [LocalCalendar] [TextLaws] in
theorem mem_exportedTasks {task : Task} :
    task ∈ exportedTasks tasks ↔ task ∈ tasks ∧ isLiveTask task = true ∧ titleKept task = true := by
  simp only [exportedTasks, List.mem_filter, and_assoc]

theorem reimportOf_parse (hids : (data.tasks.map (·.id)).Nodup) (hnodup : tasks.Nodup) (hsub : tasks ⊆ data.tasks)
    (hread : ∀ task ∈ exportedTasks tasks, IdRead task)
    (h : parseMindwtrCsvImportSource fileName (serializeMindwtrCsv data tasks separator) = .ok parsed) :
    ReimportOf data (exportedTasks tasks) parsed := by
  have hlive : ∀ task ∈ exportedTasks tasks, task ∈ data.tasks ∧ isLiveTask task = true := by
    intro task htask
    obtain ⟨hmem, hlive, -⟩ := mem_exportedTasks.1 htask
    exact ⟨hsub hmem, hlive⟩
  have hexported : ((exportedTasks tasks).map (·.id)).Nodup := by
    refine List.Nodup.map_on ?_ ((hnodup.filter _).filter _)
    intro task htask other hother hid
    exact List.inj_on_of_nodup_map hids (hlive task htask).1 (hlive other hother).1 hid
  obtain ⟨source, raw, hrows, hkeys, rfl⟩ := rowsOf_parse data tasks hread hexported h
  have hperm := List.perm_insertionSort (fun left right => rowOrder left right) raw.tasks
  constructor
  · intro task htask
    obtain ⟨row, hrow, hof, -⟩ := hrows.row_of htask
    exact ⟨row, hperm.mem_iff.2 hrow, source, hof⟩
  · intro row hrow
    obtain ⟨task, htask, hof, -⟩ := hrows.task_of (hperm.mem_iff.1 hrow)
    exact ⟨task, htask, source, hof⟩
  · exact hrows.containers.withTasks _
  · exact (hperm.map _).nodup_iff.2 hkeys
  · exact hread
  · exact hlive
  · exact hids

/-- Importing an export into its own document leaves the tables as they are exactly where every row is recognised and
every container settled; where the ids can be read back, that is where the tasks of each title agree. -/
theorem reimport_unchanged_iff (env : ImportEnv) (hids : (data.tasks.map (·.id)).Nodup) (hnodup : tasks.Nodup)
    (hsub : tasks ⊆ data.tasks)
    (h : parseMindwtrCsvImportSource fileName (serializeMindwtrCsv data tasks separator) = .ok parsed) :
    (SameTables (applyMindwtrCsvImport data parsed env) data ↔ Settled data parsed env) ∧
      ((∀ task ∈ exportedTasks tasks, IdRead task) →
        (SameTables (applyMindwtrCsvImport data parsed env) data ↔ ContainersAgree data (exportedTasks tasks))) := by
  have hsettled := applyMindwtrCsvImport_unchanged_iff data parsed env hids
  refine ⟨hsettled, fun hread => ?_⟩
  rw [hsettled]
  exact settled_iff_containersAgree (reimportOf_parse data hids hnodup hsub hread h) env

end

section
variable [LocalCalendar] [TextLaws] (data : AppData) (tasks : List Task) (separator : Separator)

/-- What becomes of the rows of a file. -/
def acceptedRows (parsed : ParsedMindwtrCsvImportData) : Except JsError ParsedMindwtrCsvImportData :=
  if maxEntities < parsed.areas.length + parsed.projects.length + parsed.sections.length + parsed.tasks.length then
    .error tooManyEntities
  else
    let kept := dropDuplicateTasksAndUnusedContainers parsed
    if kept.tasks.isEmpty then .error noImportableTasks
    else .ok { kept with tasks := kept.tasks.insertionSort fun left right => rowOrder left right }

theorem parseMindwtrCsvRows_rows (hwithin : WithinLimits data tasks) (source : MindwtrCsvRowSource) :
    parseMindwtrCsvRows (serializeMindwtrCsv data tasks separator) source =
      (addRows columnIndex source ({}, 0) 1 (exportedRows data tasks)).map Prod.fst := by
  have hrows := (parseCsvRows_export data tasks separator).2 ⟨hwithin, rfl⟩
  have htitle : ¬(columnIndex.lookup "TITLE").isNone = true := by decide +kernel
  rw [parseMindwtrCsvRows, sanitizeCsvText_export, detectMindwtrCsvDelimiter_export, hrows]
  simp only [bind, Except.bind, buildHeaderIndex_columns, if_neg htitle]

/-- A file within the limits is read as its rows. -/
theorem parseMindwtrCsvImportSource_export (fileName : String)
    (hsize : (serializeMindwtrCsv data tasks separator).utf8ByteSize ≤ maxTextBytes) (hwithin : WithinLimits data tasks) :
    parseMindwtrCsvImportSource fileName (serializeMindwtrCsv data tasks separator) =
      ((addRows columnIndex ⟨generateDeterministicUUID (serializeMindwtrCsv data tasks separator), basename fileName⟩
        ({}, 0) 1 (exportedRows data tasks)).map Prod.fst >>= acceptedRows) := by
  rw [← parseMindwtrCsvRows_rows data tasks separator hwithin, parseMindwtrCsvImportSource, readImportSource,
    if_neg (Nat.not_lt.2 hsize)]
  simp only [bind, Except.bind, sanitizeCsvText_export]
  cases parseMindwtrCsvRows (serializeMindwtrCsv data tasks separator)
    ⟨generateDeterministicUUID (serializeMindwtrCsv data tasks separator), basename fileName⟩ with
  | error e => rfl
  | ok parsed => rfl

end

/-! ### Two projects of one title -/

/-- Ids are unique, and the containers of live tasks are there and have not been deleted. -/
structure WellLinked (data : AppData) : Prop where
  taskIds : (data.tasks.map (·.id)).Nodup
  projectIds : (data.projects.map (·.id)).Nodup
  sectionIds : (data.sections.map (·.id)).Nodup
  areaIds : (data.areas.map (·.id)).Nodup
  projects : ∀ task ∈ data.tasks, isLiveTask task = true →
    (idOf task.projectId).all (fun id => (existingProject data id).any isLiveProject) = true
  sections : ∀ task ∈ data.tasks, isLiveTask task = true →
    (idOf task.sectionId).all (fun id => (existingSection data id).any isLiveSection) = true
  areas : ∀ task ∈ data.tasks, isLiveTask task = true →
    (idOf task.areaId).all (fun id => (existingArea data id).any isLiveArea) = true

attribute [local instance] escapingCalendar textLaws_escaping

def morningImport : ImportEnv := { nowIso := "2026-03-02T09:00:00.000Z", newDeviceId := "laptop", newItemId := toString }

def work (id : String) : Project where
  id := id
  title := some (.str "Work")
  status := some (.str "active")

def call (id projectId : String) : Task where
  id := id
  title := some (.str "Call")
  status := some (.str "next")
  projectId := some (.str projectId)

def emptySettings : DocumentSettings :=
  { theme := none, appearance := none, keybindingStyle := none, language := none, weekStart := none, dateFormat := none,
    timeFormat := none, gtd := none, features := none, quickAddAutoClean := none, markdownEditorAssist := none,
    syncPreferences := none, syncPreferencesUpdatedAt := none, externalCalendars := none, savedFilters := none,
    ai := none, others := [] }

/-- One call in each of the projects. -/
def workDocument (projects : List String) : AppData where
  tasks := projects.map fun id => call ("call " ++ id) id
  projects := projects.map work
  sections := []
  areas := []
  people := none
  settings := emptySettings

/-- A text has at most four bytes for each symbol. -/
theorem utf8ByteSize_ofList_le (l : List Char) : (String.ofList l).utf8ByteSize ≤ 4 * l.length := by
  induction l with
  | nil => exact Nat.le_refl _
  | cons c l ih =>
    have hsplit : String.ofList (c :: l) = String.singleton c ++ String.ofList l := by
      rw [← String.toList_inj, String.toList_append, String.toList_singleton, String.toList_ofList, String.toList_ofList]
      rfl
    rw [hsplit, String.utf8ByteSize_append, String.utf8ByteSize_singleton, List.length_cons]
    have := Char.utf8Size_le_four c
    omega

def workFile (data : AppData) : Except JsError ParsedMindwtrCsvImportData :=
  parseMindwtrCsvImportSource "tasks.csv" (serializeMindwtrCsv data data.tasks .comma)

theorem workFile_eq {data : AppData} (hwithin : WithinLimits data data.tasks)
    (hlength : (Lib.Csv.writeRows Separator.comma.dialect (exportedTable data data.tasks)).length ≤ 10000) :
    workFile data =
      ((addRows columnIndex ⟨generateDeterministicUUID (serializeMindwtrCsv data data.tasks .comma), basename "tasks.csv"⟩
        ({}, 0) 1 (exportedRows data data.tasks)).map Prod.fst >>= acceptedRows) := by
  have hbytes := utf8ByteSize_ofList_le (Lib.Csv.writeRows Separator.comma.dialect (exportedTable data data.tasks))
  have hlimit : maxTextBytes = 8388608 := rfl
  exact parseMindwtrCsvImportSource_export data data.tasks .comma "tasks.csv" (le_trans hbytes (by omega)) hwithin

/-- The file of a document of one or two calls is within the limits. -/
theorem workFile_workDocument {projects : List String} (h : projects = ["p1"] ∨ projects = ["p1", "p2"]) :
    WithinLimits (workDocument projects) (workDocument projects).tasks ∧
      (Lib.Csv.writeRows Separator.comma.dialect
        (exportedTable (workDocument projects) (workDocument projects).tasks)).length ≤ 10000 := by
  unfold WithinLimits Lib.Csv.Within Lib.Csv.RowWithin
  rcases h with rfl | rfl
  · decide +kernel
  · decide +kernel

theorem wellLinked_workDocument : WellLinked (workDocument ["p1", "p2"]) := by
  constructor <;> decide +kernel

theorem third_project_of_one_title :
    ¬∀ (data : AppData) (tasks : List Task) (separator : Separator) (fileName : String)
      (parsed : ParsedMindwtrCsvImportData) (env : ImportEnv), WellLinked data → tasks.Nodup → tasks ⊆ data.tasks →
      parseMindwtrCsvImportSource fileName (serializeMindwtrCsv data tasks separator) = .ok parsed →
      SameTables (applyMindwtrCsvImport data parsed env) data := by
  intro hclaim
  have hthree : (workFile (workDocument ["p1", "p2"])).toOption.any (fun parsed =>
      (applyMindwtrCsvImport (workDocument ["p1", "p2"]) parsed morningImport).projects.length == 3) = true := by
    obtain ⟨hwithin, hlength⟩ := workFile_workDocument (.inr rfl)
    rw [workFile_eq hwithin hlength]
    decide +kernel
  cases hparsed : workFile (workDocument ["p1", "p2"]) with
  | error e => rw [hparsed] at hthree; cases hthree
  | ok parsed =>
    rw [hparsed] at hthree
    have hsame := hclaim _ _ _ _ parsed morningImport wellLinked_workDocument (by decide) (List.Subset.refl _) hparsed
    have hlength := beq_iff_eq.mp hthree
    rw [hsame.2.1] at hlength
    cases hlength

theorem one_project_settled : ∃ parsed, workFile (workDocument ["p1"]) = .ok parsed ∧
    SameTables (applyMindwtrCsvImport (workDocument ["p1"]) parsed morningImport) (workDocument ["p1"]) ∧
    ContainersAgree (workDocument ["p1"]) (exportedTasks (workDocument ["p1"]).tasks) := by
  have hsettled : (workFile (workDocument ["p1"])).toOption.any (fun parsed =>
      let after := applyMindwtrCsvImport (workDocument ["p1"]) parsed morningImport
      let before := workDocument ["p1"]
      after.tasks == before.tasks && after.projects == before.projects && after.sections == before.sections &&
        after.areas == before.areas) = true := by
    obtain ⟨hwithin, hlength⟩ := workFile_workDocument (.inl rfl)
    rw [workFile_eq hwithin hlength]
    decide +kernel
  cases hparsed : workFile (workDocument ["p1"]) with
  | error e => rw [hparsed] at hsettled; cases hsettled
  | ok parsed =>
    rw [hparsed] at hsettled
    simp only [Except.toOption, Option.any_some, Bool.and_eq_true, beq_iff_eq, and_assoc] at hsettled
    have hread : ∀ task ∈ exportedTasks (workDocument ["p1"]).tasks, IdRead task := by
      decide +kernel
    have hiff := (reimport_unchanged_iff (workDocument ["p1"]) morningImport (by decide) (by decide)
      (List.Subset.refl _) hparsed).2 hread
    exact ⟨parsed, rfl, hsettled, hiff.mp hsettled⟩

end Mindwtr.Import
