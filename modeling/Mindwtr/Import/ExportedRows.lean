import Mindwtr.Import.CsvFile

/-!
# The rows of an exported file

What the rows of an export are to the tasks they stand for: every task with a readable title has one row, found under
the id of the task where the ID column can hold it (`exported_of_parse`).
-/

namespace Mindwtr.Import

open Mindwtr.Js Mindwtr.Sync

/-! ### Source keys -/

section
variable [LocalCalendar] [TextLaws]

/-- A key tells its components. -/
theorem encodeSourceKeyTuple_injective {as bs : List String} (ha : as ≠ []) (hb : bs ≠ [])
    (h : encodeSourceKeyTuple as = encodeSourceKeyTuple bs) : as = bs := by
  have hsplit {l : List String} (hl : l ≠ []) : (encodeSourceKeyTuple l).toList.splitOn ':' =
      l.map fun component => (Runtime.encodeURIComponent component).toList := by
    rw [encodeSourceKeyTuple, String.toList_intercalate, List.map_map]
    refine List.splitOn_intercalate ':' ?_ (by simpa using hl)
    simp only [List.forall_mem_map]
    intro component _
    exact TextLaws.encodeURIComponent_colon component
  have hcells := congrArg (fun key : String => key.toList.splitOn ':') h
  simp only [hsplit ha, hsplit hb] at hcells
  refine List.map_injective_iff.2 ?_ hcells
  intro s t hst
  exact TextLaws.encodeURIComponent_injective s t (String.toList_inj.1 hst)

theorem projectSourceKeyFor_injective {area area' : Option String} {name name' : String}
    (h : projectSourceKeyFor area name = projectSourceKeyFor area' name') :
    area = area' ∧ normalizeSourceKey name = normalizeSourceKey name' := by
  have hlist := encodeSourceKeyTuple_injective (by simp) (by simp) h
  cases area <;> cases area' <;> simp_all

theorem sectionSourceKeyFor_injective {area area' : Option String} {name name' sec sec' : String}
    (h : sectionSourceKeyFor area name sec = sectionSourceKeyFor area' name' sec') :
    area = area' ∧ normalizeSourceKey name = normalizeSourceKey name' ∧
      normalizeSourceKey sec = normalizeSourceKey sec' := by
  have hlist := encodeSourceKeyTuple_injective (by simp) (by simp) h
  cases area <;> cases area' <;> simp_all

theorem explicitTaskSourceKeyFor_injective {id id' : String}
    (h : explicitTaskSourceKeyFor id = explicitTaskSourceKeyFor id') : id = id' := by
  have hlist := encodeSourceKeyTuple_injective (by simp) (by simp) h
  simpa using hlist

end

/-! ### Containers of the rows -/

section
variable {α : Type} {keyOf : α → String} {item a : α} {items : List α}

theorem mem_addOnce (h : a ∈ addOnce keyOf item items) : a ∈ items ∨ a = item := by
  unfold addOnce at h
  split at h
  · exact .inl h
  · simpa using h

theorem mem_keys_addOnce {key : String} :
    key ∈ (addOnce keyOf item items).map keyOf ↔ key ∈ items.map keyOf ∨ key = keyOf item := by
  unfold addOnce
  split
  · next hany =>
    simp only [List.any_eq_true, beq_iff_eq] at hany
    obtain ⟨other, hother, hkey⟩ := hany
    constructor
    · exact Or.inl
    · rintro (h | rfl)
      · exact h
      · exact hkey ▸ List.mem_map_of_mem hother
  · simp

theorem nodup_keys_addOnce (h : (items.map keyOf).Nodup) : ((addOnce keyOf item items).map keyOf).Nodup := by
  unfold addOnce
  split
  · exact h
  · next hany =>
    rw [List.map_append, List.map_singleton]
    refine List.nodup_append.2 ⟨h, List.nodup_singleton _, ?_⟩
    intro k hk k' hk' heq
    obtain ⟨other, hother, rfl⟩ := List.mem_map.1 hk
    rw [List.mem_singleton.1 hk'] at heq
    exact hany (List.any_eq_true.2 ⟨other, hother, beq_iff_eq.2 heq⟩)

end

/-- What the containers of a file are to the names in its rows. -/
structure ContainersOf [LocalCalendar] (names : List RowNames) (parsed : ParsedMindwtrCsvImportData) : Prop where
  areas : ∀ area ∈ parsed.areas, ∃ n ∈ names, n.areaSourceKey = some area.sourceKey
  area_of : ∀ n ∈ names, ∀ key, n.areaSourceKey = some key → key ∈ parsed.areas.map (·.sourceKey)
  projects : ∀ project ∈ parsed.projects, ∃ n ∈ names, n.projectSourceKey = some project.sourceKey ∧
    project.areaSourceKey = n.areaSourceKey ∧ project.name = n.projectName
  project_of : ∀ n ∈ names, ∀ key, n.projectSourceKey = some key → key ∈ parsed.projects.map (·.sourceKey)
  sections : ∀ sec ∈ parsed.sections, ∃ n ∈ names, n.sectionSourceKey = some sec.sourceKey ∧
    n.projectSourceKey = some sec.projectSourceKey ∧ sec.name = n.sectionName
  section_of : ∀ n ∈ names, ∀ key, n.sectionSourceKey = some key → key ∈ parsed.sections.map (·.sourceKey)
  projectKeys : (parsed.projects.map (·.sourceKey)).Nodup
  sectionKeys : (parsed.sections.map (·.sourceKey)).Nodup

section
variable [LocalCalendar]

theorem projectSourceKey_of_section {names : RowNames} {key : String} (h : names.sectionSourceKey = some key) :
    ∃ projectKey, names.projectSourceKey = some projectKey := by
  unfold RowNames.sectionSourceKey at h
  split at h
  · cases h
  · next hproject => exact ⟨_, by rw [RowNames.projectSourceKey, nonEmpty, if_neg hproject]; rfl⟩

theorem containersOf_nil (tasks : List ParsedMindwtrCsvTask) : ContainersOf [] { tasks } := by
  constructor <;> simp

theorem ContainersOf.withTasks {names : List RowNames} {parsed : ParsedMindwtrCsvImportData}
    (h : ContainersOf names parsed) (tasks : List ParsedMindwtrCsvTask) : ContainersOf names { parsed with tasks } :=
  ⟨h.areas, h.area_of, h.projects, h.project_of, h.sections, h.section_of, h.projectKeys, h.sectionKeys⟩

theorem containersOf_addContainers {names : List RowNames} {parsed : ParsedMindwtrCsvImportData}
    (h : ContainersOf names parsed) (n : RowNames) : ContainersOf (names ++ [n]) (addContainers n parsed) := by
  have hmem {m : RowNames} (hm : m ∈ names ++ [n]) : m ∈ names ∨ m = n := by simpa using hm
  have hold {m : RowNames} (hm : m ∈ names) : m ∈ names ++ [n] := List.mem_append_left _ hm
  have hnew : n ∈ names ++ [n] := List.mem_append_right _ (List.mem_singleton_self n)
  constructor
  · -- areas
    intro area harea
    simp only [addContainers] at harea
    cases hkey : n.areaSourceKey with
    | none =>
      rw [hkey] at harea
      obtain ⟨m, hm, hmkey⟩ := h.areas area harea
      exact ⟨m, hold hm, hmkey⟩
    | some key =>
      rw [hkey] at harea
      rcases mem_addOnce harea with harea | rfl
      · obtain ⟨m, hm, hmkey⟩ := h.areas area harea
        exact ⟨m, hold hm, hmkey⟩
      · exact ⟨n, hnew, hkey⟩
  · intro m hm key hmkey
    simp only [addContainers]
    cases hkey : n.areaSourceKey with
    | none =>
      rcases hmem hm with hm | rfl
      · exact h.area_of m hm key hmkey
      · rw [hkey] at hmkey; cases hmkey
    | some nkey =>
      refine mem_keys_addOnce.2 ?_
      rcases hmem hm with hm | rfl
      · exact .inl (h.area_of m hm key hmkey)
      · exact .inr (Option.some.inj (hmkey.symm.trans hkey))
  · -- projects
    intro project hproject
    simp only [addContainers] at hproject
    cases hkey : n.projectSourceKey with
    | none =>
      rw [hkey] at hproject
      obtain ⟨m, hm, hproject⟩ := h.projects project hproject
      exact ⟨m, hold hm, hproject⟩
    | some key =>
      rw [hkey] at hproject
      rcases mem_addOnce hproject with hproject | rfl
      · obtain ⟨m, hm, hproject⟩ := h.projects project hproject
        exact ⟨m, hold hm, hproject⟩
      · exact ⟨n, hnew, hkey, rfl, rfl⟩
  · intro m hm key hmkey
    simp only [addContainers]
    cases hkey : n.projectSourceKey with
    | none =>
      rcases hmem hm with hm | rfl
      · exact h.project_of m hm key hmkey
      · rw [hkey] at hmkey; cases hmkey
    | some nkey =>
      refine mem_keys_addOnce.2 ?_
      rcases hmem hm with hm | rfl
      · exact .inl (h.project_of m hm key hmkey)
      · exact .inr (Option.some.inj (hmkey.symm.trans hkey))
  · -- sections
    intro sec hsec
    simp only [addContainers] at hsec
    cases hkey : n.sectionSourceKey with
    | none =>
      rw [hkey] at hsec
      obtain ⟨m, hm, hsec⟩ := h.sections sec hsec
      exact ⟨m, hold hm, hsec⟩
    | some key =>
      obtain ⟨projectKey, hproject⟩ := projectSourceKey_of_section hkey
      rw [hkey, hproject] at hsec
      rcases mem_addOnce hsec with hsec | rfl
      · obtain ⟨m, hm, hsec⟩ := h.sections sec hsec
        exact ⟨m, hold hm, hsec⟩
      · exact ⟨n, hnew, hkey, hproject, rfl⟩
  · intro m hm key hmkey
    simp only [addContainers]
    cases hkey : n.sectionSourceKey with
    | none =>
      rcases hmem hm with hm | rfl
      · exact h.section_of m hm key hmkey
      · rw [hkey] at hmkey; cases hmkey
    | some nkey =>
      obtain ⟨projectKey, hproject⟩ := projectSourceKey_of_section hkey
      rw [hproject]
      refine mem_keys_addOnce.2 ?_
      rcases hmem hm with hm | rfl
      · exact .inl (h.section_of m hm key hmkey)
      · exact .inr (Option.some.inj (hmkey.symm.trans hkey))
  · simp only [addContainers]
    split
    · exact nodup_keys_addOnce h.projectKeys
    · exact h.projectKeys
  · simp only [addContainers]
    split
    · exact nodup_keys_addOnce h.sectionKeys
    · exact h.sectionKeys

end

/-! ### One exported row -/

section
variable [LocalCalendar] (data : AppData)

/-- The names that the row of a task shows. -/
def exportedNames (task : Task) : RowNames where
  areaName := readText (exportedCell data task "Area")
  projectName := readText (exportedCell data task "Project")
  sectionName := readText (exportedCell data task "Section")

/-- A row without a title is left out. -/
def titleKept (task : Task) : Bool := readText (text task.title) != ""

/-- The tasks of an export that are imported. -/
def exportedTasks (tasks : List Task) : List Task := (tasks.filter isLiveTask).filter titleKept

/-- The row of a task, wherever it stands in the file. -/
def IsRowOf (source : MindwtrCsvRowSource) (task : Task) (row : ParsedMindwtrCsvTask) : Prop :=
  ∃ rowIndex checklist, row = parseTaskRow (rowFor data task) columnIndex source rowIndex checklist

/-- The checklist of the row is the one its cell holds. -/
def HasChecklist (task : Task) (row : ParsedMindwtrCsvTask) : Prop :=
  ∃ itemCount, parseChecklist (readText (exportedCell data task "Checklist")) = .ok (row.checklist, itemCount)

theorem readCell_export (task : Task) (column key : String) (h : column ∈ mindwtrCsvColumns)
    (hkey : columnKey column = key) :
    readCell (rowFor data task) columnIndex key = readText (exportedCell data task column) := by
  rw [← hkey]
  exact readCell_rowFor data task h

theorem exportedCell_title (task : Task) : exportedCell data task "Title" = text task.title := by
  simp [exportedCell, cellsFor]

theorem exportedCell_id (task : Task) : exportedCell data task "ID" = task.id := by
  simp [exportedCell, cellsFor, List.lookup]

theorem readTitle_export (task : Task) : readCell (rowFor data task) columnIndex "TITLE" = readText (text task.title) := by
  rw [readCell_export data task "Title" "TITLE" (by decide) (by decide +kernel), exportedCell_title]

theorem rowNames_export (task : Task) : rowNames (rowFor data task) columnIndex = exportedNames data task := by
  unfold rowNames exportedNames
  rw [readCell_export data task "Area" "AREA" (by decide) (by decide +kernel),
    readCell_export data task "Project" "PROJECT" (by decide) (by decide +kernel),
    readCell_export data task "Section" "SECTION" (by decide) (by decide +kernel)]
  simp only [trim_readText]

/-! ### All exported rows -/

theorem addContainers_tasks (names : RowNames) (parsed : ParsedMindwtrCsvImportData) :
    (addContainers names parsed).tasks = parsed.tasks := rfl

/-- A row with a title adds its containers and its task. -/
theorem addRow_titled {row : List String} {headerIndex : List (String × Nat)} {source : MindwtrCsvRowSource}
    {acc out : ParsedMindwtrCsvImportData × Nat} {rowIndex : Nat}
    (htitle : trim (readCell row headerIndex "TITLE") ≠ "") (h : addRow row headerIndex source acc rowIndex = .ok out) :
    ∃ checklist itemCount, parseChecklist (readCell row headerIndex "CHECKLIST") = .ok (checklist, itemCount) ∧
      out.1 = { addContainers (rowNames row headerIndex) acc.1 with
        tasks := acc.1.tasks ++ [parseTaskRow row headerIndex source rowIndex checklist] } := by
  rw [addRow, if_neg htitle] at h
  obtain ⟨⟨checklist, itemCount⟩, hchecklist, hrest⟩ := bind_eq_ok h
  refine ⟨checklist, itemCount, hchecklist, ?_⟩
  by_cases hmany : maxChecklistItems < acc.2 + itemCount
  · simp only [if_pos hmany, reduceCtorEq] at hrest
  · simp only [if_neg hmany, Except.ok.injEq] at hrest
    rw [← hrest]
    simp only [addContainers_tasks]

theorem addRow_untitled {row : List String} {headerIndex : List (String × Nat)} {source : MindwtrCsvRowSource}
    {acc : ParsedMindwtrCsvImportData × Nat} {rowIndex : Nat} (htitle : trim (readCell row headerIndex "TITLE") = "") :
    addRow row headerIndex source acc rowIndex = .ok acc := if_pos htitle

/-- The data of a file as its titled rows make it. -/
structure RowsOf (source : MindwtrCsvRowSource) (tasks : List Task) (parsed : ParsedMindwtrCsvImportData) : Prop where
  rows : List.Forall₂ (fun task row => IsRowOf data source task row ∧ HasChecklist data task row) tasks parsed.tasks
  containers : ContainersOf (tasks.map (exportedNames data)) parsed

theorem rowsOf_addRow {source : MindwtrCsvRowSource} {before : List Task}
    {acc out : ParsedMindwtrCsvImportData × Nat} {rowIndex : Nat} (task : Task) (hacc : RowsOf data source before acc.1)
    (h : addRow (rowFor data task) columnIndex source acc rowIndex = .ok out) :
    RowsOf data source (before ++ [task].filter titleKept) out.1 := by
  by_cases htitle : readText (text task.title) = ""
  · rw [addRow_untitled (by rw [readTitle_export, trim_readText]; exact htitle)] at h
    cases h
    rw [List.filter_cons_of_neg (by simp [titleKept, htitle])]
    simpa using hacc
  · obtain ⟨checklist, itemCount, hchecklist, hout⟩ := addRow_titled (by rw [readTitle_export, trim_readText]; exact htitle) h
    rw [List.filter_cons_of_pos (by simp [titleKept, htitle]), List.filter_nil, hout]
    rw [readCell_export data task "Checklist" "CHECKLIST" (by decide) (by decide +kernel)] at hchecklist
    constructor
    · refine List.rel_append hacc.rows (List.Forall₂.cons ⟨⟨rowIndex, checklist, rfl⟩, itemCount, hchecklist⟩ .nil)
    · rw [List.map_append, List.map_singleton, rowNames_export]
      exact (containersOf_addContainers hacc.containers (exportedNames data task)).withTasks _

theorem rowsOf_addRows {source : MindwtrCsvRowSource} (tasks : List Task) {before : List Task}
    {acc out : ParsedMindwtrCsvImportData × Nat} {rowIndex : Nat} (hacc : RowsOf data source before acc.1)
    (h : addRows columnIndex source acc rowIndex (tasks.map (rowFor data)) = .ok out) :
    RowsOf data source (before ++ tasks.filter titleKept) out.1 := by
  induction tasks generalizing before acc rowIndex with
  | nil =>
    cases h
    simpa using hacc
  | cons task tasks ih =>
    rw [List.map_cons, addRows] at h
    obtain ⟨next, hnext, hrest⟩ := bind_eq_ok h
    have hfilter : before ++ (task :: tasks).filter titleKept =
        (before ++ [task].filter titleKept) ++ tasks.filter titleKept := by
      rw [List.append_assoc, ← List.filter_append, List.singleton_append]
    rw [hfilter]
    exact ih (rowsOf_addRow data task hacc hnext) hrest

/-! ### From rows to tasks and back -/

variable {data} {source : MindwtrCsvRowSource} {tasks : List Task} {parsed : ParsedMindwtrCsvImportData}

theorem RowsOf.row_of (h : RowsOf data source tasks parsed) {task : Task} (hmem : task ∈ tasks) :
    ∃ row ∈ parsed.tasks, IsRowOf data source task row ∧ HasChecklist data task row := by
  obtain ⟨i, hi, rfl⟩ := List.mem_iff_getElem.1 hmem
  have hrows := List.forall₂_iff_get.1 h.rows
  exact ⟨parsed.tasks.get ⟨i, hrows.1 ▸ hi⟩, List.getElem_mem _, hrows.2 i hi (hrows.1 ▸ hi)⟩

theorem RowsOf.task_of (h : RowsOf data source tasks parsed) {row : ParsedMindwtrCsvTask} (hmem : row ∈ parsed.tasks) :
    ∃ task ∈ tasks, IsRowOf data source task row ∧ HasChecklist data task row := by
  obtain ⟨i, hi, rfl⟩ := List.mem_iff_getElem.1 hmem
  have hrows := List.forall₂_iff_get.1 h.rows
  exact ⟨tasks.get ⟨i, hrows.1 ▸ hi⟩, List.getElem_mem _, hrows.2 i (hrows.1 ▸ hi) hi⟩

theorem parseTaskRow_containers (row : List String) (headerIndex : List (String × Nat)) (source : MindwtrCsvRowSource)
    (rowIndex : Nat) (checklist : List ChecklistItem) :
    let task := parseTaskRow row headerIndex source rowIndex checklist
    task.areaSourceKey = (rowNames row headerIndex).areaSourceKey ∧
      task.projectSourceKey = (rowNames row headerIndex).projectSourceKey ∧
      task.sectionSourceKey = (rowNames row headerIndex).sectionSourceKey := by
  simp only [parseTaskRow, and_self]

variable {task : Task} {row : ParsedMindwtrCsvTask}

theorem IsRowOf.areaSourceKey (h : IsRowOf data source task row) :
    row.areaSourceKey = (exportedNames data task).areaSourceKey := by
  obtain ⟨rowIndex, checklist, rfl⟩ := h
  rw [(parseTaskRow_containers _ _ _ _ _).1, rowNames_export]

theorem IsRowOf.projectSourceKey (h : IsRowOf data source task row) :
    row.projectSourceKey = (exportedNames data task).projectSourceKey := by
  obtain ⟨rowIndex, checklist, rfl⟩ := h
  rw [(parseTaskRow_containers _ _ _ _ _).2.1, rowNames_export]

theorem IsRowOf.sectionSourceKey (h : IsRowOf data source task row) :
    row.sectionSourceKey = (exportedNames data task).sectionSourceKey := by
  obtain ⟨rowIndex, checklist, rfl⟩ := h
  rw [(parseTaskRow_containers _ _ _ _ _).2.2, rowNames_export]

theorem readId_export (task : Task) : trim (readCell (rowFor data task) columnIndex "ID") = readText task.id := by
  rw [readCell_export data task "ID" "ID" (by decide) (by decide +kernel), exportedCell_id, trim_readText]

/-- The ID column of the row holds the id of the task. -/
def IdRead (task : Task) : Prop := readText task.id = task.id ∧ task.id ≠ ""

instance (task : Task) : Decidable (IdRead task) := inferInstanceAs (Decidable (_ ∧ _))

/-- The row of a task whose id can be read is known by it. -/
theorem IsRowOf.identity (h : IsRowOf data source task row) (hid : IdRead task) :
    row.sourceIdentityKind = .explicitId ∧ row.sourceId = task.id ∧
      row.sourceKey = explicitTaskSourceKeyFor task.id := by
  obtain ⟨rowIndex, checklist, rfl⟩ := h
  simp only [parseTaskRow, readId_export, hid.1, if_neg hid.2, and_self]

end

/-! ### The file -/

section
variable [LocalCalendar] (data : AppData) (tasks : List Task)

theorem dropUnusedContainers_rowsOf {source : MindwtrCsvRowSource} {parsed : ParsedMindwtrCsvImportData}
    (h : RowsOf data source tasks parsed) : dropUnusedContainers parsed = parsed := by
  have harea {n : RowNames} (hn : n ∈ tasks.map (exportedNames data)) {key : String} (hkey : n.areaSourceKey = some key) :
      key ∈ parsed.tasks.filterMap fun task => task.areaSourceKey := by
    obtain ⟨task, htask, rfl⟩ := List.mem_map.1 hn
    obtain ⟨row, hrow, hof, -⟩ := h.row_of htask
    exact List.mem_filterMap.2 ⟨row, hrow, hof.areaSourceKey.trans hkey⟩
  have hproject {n : RowNames} (hn : n ∈ tasks.map (exportedNames data)) {key : String}
      (hkey : n.projectSourceKey = some key) : key ∈ parsed.tasks.filterMap fun task => task.projectSourceKey := by
    obtain ⟨task, htask, rfl⟩ := List.mem_map.1 hn
    obtain ⟨row, hrow, hof, -⟩ := h.row_of htask
    exact List.mem_filterMap.2 ⟨row, hrow, hof.projectSourceKey.trans hkey⟩
  have hsection {n : RowNames} (hn : n ∈ tasks.map (exportedNames data)) {key : String}
      (hkey : n.sectionSourceKey = some key) : key ∈ parsed.tasks.filterMap fun task => task.sectionSourceKey := by
    obtain ⟨task, htask, rfl⟩ := List.mem_map.1 hn
    obtain ⟨row, hrow, hof, -⟩ := h.row_of htask
    exact List.mem_filterMap.2 ⟨row, hrow, hof.sectionSourceKey.trans hkey⟩
  have hareas : ∀ extra : List String, (parsed.areas.filter fun area =>
      ((parsed.tasks.filterMap fun task => task.areaSourceKey) ++ extra).contains area.sourceKey) = parsed.areas := by
    intro extra
    refine List.filter_eq_self.2 fun area hmem => ?_
    obtain ⟨n, hn, hkey⟩ := h.containers.areas area hmem
    exact List.contains_iff_mem.2 (List.mem_append_left _ (harea hn hkey))
  have hprojects : (parsed.projects.filter fun project =>
      (parsed.tasks.filterMap fun task => task.projectSourceKey).contains project.sourceKey) = parsed.projects := by
    refine List.filter_eq_self.2 fun project hmem => ?_
    obtain ⟨n, hn, hkey, -⟩ := h.containers.projects project hmem
    exact List.contains_iff_mem.2 (hproject hn hkey)
  have hsections : (parsed.sections.filter fun sec =>
      (parsed.tasks.filterMap fun task => task.sectionSourceKey).contains sec.sourceKey &&
        (parsed.tasks.filterMap fun task => task.projectSourceKey).contains sec.projectSourceKey) = parsed.sections := by
    refine List.filter_eq_self.2 fun sec hmem => ?_
    obtain ⟨n, hn, hkey, hproject', -⟩ := h.containers.sections sec hmem
    rw [Bool.and_eq_true]
    exact ⟨List.contains_iff_mem.2 (hsection hn hkey), List.contains_iff_mem.2 (hproject hn hproject')⟩
  simp only [dropUnusedContainers, hareas, hprojects, hsections]

omit [LocalCalendar] in
theorem dropDuplicateTasks_of_nodup {rows : List ParsedMindwtrCsvTask} (h : (rows.map (·.sourceKey)).Nodup) :
    dropDuplicateTasks rows = rows := by
  have hfold : ∀ (l kept : List ParsedMindwtrCsvTask), ((kept ++ l).map (·.sourceKey)).Nodup →
      l.foldl (fun kept task => if kept.any (·.sourceKey == task.sourceKey) then kept else kept ++ [task]) kept =
        kept ++ l := by
    intro l
    induction l with
    | nil => intro kept _; simp
    | cons task l ih =>
      intro kept hnodup
      have hnew : ¬(kept.any (·.sourceKey == task.sourceKey) = true) := by
        simp only [List.any_eq_true, beq_iff_eq, not_exists, not_and]
        intro other hother heq
        rw [List.map_append, List.nodup_append] at hnodup
        exact hnodup.2.2 _ (List.mem_map_of_mem hother) _ (List.mem_map_of_mem List.mem_cons_self) heq
      rw [List.foldl_cons, if_neg hnew, ih _ (by simpa using hnodup), List.append_assoc, List.singleton_append]
  exact hfold rows [] h

variable [TextLaws]

theorem parseMindwtrCsvRows_export {separator : Separator} {source : MindwtrCsvRowSource}
    {parsed : ParsedMindwtrCsvImportData}
    (h : parseMindwtrCsvRows (serializeMindwtrCsv data tasks separator) source = .ok parsed) :
    RowsOf data source (exportedTasks tasks) parsed := by
  rw [parseMindwtrCsvRows, sanitizeCsvText_export, detectMindwtrCsvDelimiter_export] at h
  obtain ⟨out, hout, hrest⟩ := bind_eq_ok h
  obtain ⟨-, rfl⟩ := (parseCsvRows_export data tasks separator).1 hout
  simp only [buildHeaderIndex_columns] at hrest
  split at hrest
  · cases hrest
  · obtain ⟨final, hfinal, rfl⟩ := map_eq_ok hrest
    have hstart : RowsOf data source [] ({}, 0).1 := ⟨.nil, containersOf_nil []⟩
    have := rowsOf_addRows data (tasks.filter isLiveTask) hstart hfinal
    rwa [List.nil_append] at this

omit [TextLaws] in
theorem sourceKeys_rowsOf {source : MindwtrCsvRowSource} {parsed : ParsedMindwtrCsvImportData}
    (h : RowsOf data source tasks parsed) (hread : ∀ task ∈ tasks, IdRead task) :
    parsed.tasks.map (·.sourceKey) = tasks.map fun task => explicitTaskSourceKeyFor task.id := by
  have hrows := List.forall₂_iff_get.1 h.rows
  refine List.ext_getElem (by simp [hrows.1]) fun i hi hj => ?_
  simp only [List.length_map] at hi hj
  have hrow := (hrows.2 i hj hi).1.identity (hread _ (List.getElem_mem hj))
  simpa using hrow.2.2

/-- Where every id can be read, an accepted file holds one row for each task, each row under the key of its id. -/
theorem rowsOf_parse {separator : Separator} {fileName : String} {parsed : ParsedMindwtrCsvImportData}
    (hread : ∀ task ∈ exportedTasks tasks, IdRead task) (hids : ((exportedTasks tasks).map (·.id)).Nodup)
    (h : parseMindwtrCsvImportSource fileName (serializeMindwtrCsv data tasks separator) = .ok parsed) :
    ∃ source raw, RowsOf data source (exportedTasks tasks) raw ∧ (raw.tasks.map (·.sourceKey)).Nodup ∧
      parsed = { raw with tasks := raw.tasks.insertionSort fun left right => rowOrder left right } := by
  rw [parseMindwtrCsvImportSource] at h
  obtain ⟨source, hsource, h⟩ := bind_eq_ok h
  have hsame : source = serializeMindwtrCsv data tasks separator := by
    unfold readImportSource at hsource
    split at hsource
    · cases hsource
    · exact (Except.ok.inj hsource).symm
  subst hsame
  obtain ⟨raw, hraw, h⟩ := bind_eq_ok h
  have hrows := parseMindwtrCsvRows_export data tasks hraw
  have hkeys : (raw.tasks.map (·.sourceKey)).Nodup := by
    rw [sourceKeys_rowsOf data _ hrows hread]
    have hinj := hids.map (f := explicitTaskSourceKeyFor) fun a b hab => explicitTaskSourceKeyFor_injective hab
    simpa [List.map_map, Function.comp_def] using hinj
  refine ⟨_, raw, hrows, hkeys, ?_⟩
  have hkept : dropDuplicateTasksAndUnusedContainers raw = raw := by
    rw [dropDuplicateTasksAndUnusedContainers, dropDuplicateTasks_of_nodup hkeys]
    exact dropUnusedContainers_rowsOf data _ hrows
  split at h
  · cases h
  · simp only [hkept] at h
    split at h
    · cases h
    · exact (Except.ok.inj h).symm

end

end Mindwtr.Import
