import Mindwtr.Sync.AreaDedupe

/-!
# Repairing a repaired document

After `repairMergedSyncReferences` no area is merged any more, so the next repair looks everything up where the first
one did (`repairIndex_again`), and what a project or a task refers to is what it was given (`repairProject_again`,
`repairTask_again`).
-/

namespace Mindwtr.Sync

open Mindwtr.Js Mindwtr.Store

/-! ### Reading back what the repair wrote -/

theorem normalizeOptionalString_again (value : Option Json) :
    normalizeOptionalString (normalizeOptionalString value) = normalizeOptionalString value := by
  unfold normalizeOptionalString
  rw [nonBlank_map_str]
  intro s hs
  exact (nonBlank_eq_some hs).2

/-! ### Projects -/

section
variable {areaIdRemap : JsMap String} {liveAreas : JsMap Area}
  (hnamed : ∀ id target, areaIdRemap.get? id = some target → isBlank target = false)

include hnamed in
theorem remapped_not_blank {value : Option Json} {id : String}
    (h : ((nonBlank value).bind areaIdRemap.get?).or (nonBlank value) = some id) : isBlank id = false := by
  rcases Option.or_eq_some_iff.1 h with hremap | ⟨-, hvalue⟩
  · obtain ⟨old, -, hget⟩ := Option.bind_eq_some_iff.1 hremap
    exact hnamed old id hget
  · exact (nonBlank_eq_some hvalue).2

include hnamed in
theorem repairProject_again (nowIso nowIso' : String) (project : Project) :
    repairProject .empty liveAreas nowIso' (repairProject areaIdRemap liveAreas nowIso project) =
      repairProject areaIdRemap liveAreas nowIso project := by
  cases harea : ((nonBlank project.areaId).bind areaIdRemap.get?).or (nonBlank project.areaId) with
  | none =>
    have hfirst : repairProject areaIdRemap liveAreas nowIso project =
        { project with areaId := none, areaTitle := normalizeOptionalString project.areaTitle } := by
      simp [repairProject, harea, isSet]
    rw [hfirst]
    simp [repairProject, isSet, nonBlank, normalizeOptionalString_again]
  | some id =>
    have hblank := remapped_not_blank hnamed harea
    have hset := isSet_of_not_blank hblank
    have hread : nonBlank (some (.str id)) = some id := by simp [nonBlank, hblank]
    have hempty : (JsMap.empty (α := String)).get? id = none := rfl
    cases hlive : liveAreas.get? id with
    | none =>
      have hfirst : (repairProject areaIdRemap liveAreas nowIso project).areaId = none ∧
          (repairProject areaIdRemap liveAreas nowIso project).areaTitle = none := by
        simp [repairProject, harea, hset, hlive]
      generalize repairProject areaIdRemap liveAreas nowIso project = repaired at hfirst
      obtain ⟨hareaId, htitle⟩ := hfirst
      cases repaired
      dsimp only at hareaId htitle
      subst hareaId htitle
      rfl
    | some area =>
      have hfirst : (repairProject areaIdRemap liveAreas nowIso project).areaId = some (.str id) ∧
          (repairProject areaIdRemap liveAreas nowIso project).areaTitle = normalizeOptionalString area.name := by
        simp only [repairProject, harea, hset, Bool.not_true, Bool.false_eq_true, if_false, Option.bind_some, hlive,
          Option.map_some]
        split_ifs with hsame
        · exact ⟨hsame.1.symm, hsame.2⟩
        · exact ⟨rfl, rfl⟩
      generalize repairProject areaIdRemap liveAreas nowIso project = repaired at hfirst
      obtain ⟨hareaId, htitle⟩ := hfirst
      simp only [repairProject, hareaId, htitle, hread, Option.bind_some, hempty, Option.none_or, hset, Bool.not_true,
        Bool.false_eq_true, if_false, hlive, Option.map_some, and_self, if_true]

end

/-! ### Sections -/

theorem repairSection_projectId (live deleted : List String) (purged : JsMap Project) (nowIso : String) (sec : Section) :
    (repairSection live deleted purged nowIso sec).projectId = sec.projectId := by
  unfold repairSection
  dsimp only
  split
  · rfl
  · split
    · split
      · simp only [compactSectionsForPurgedProjects, List.map_cons, List.map_nil, List.headD_cons,
          compactSectionForPurgedProject]
        split
        · rfl
        · split <;> rfl
      · rfl
    · rfl

theorem repairSection_live {live deleted : List String} {purged : JsMap Project} {nowIso : String} {sec : Section}
    (h : (asStr? sec.projectId).any live.contains = true) : repairSection live deleted purged nowIso sec = sec := by
  simp only [repairSection, h, Bool.true_or, if_true]

/-- Of the sections of live projects the repair changes none. -/
theorem filter_map_repairSection {live : List String} (deleted : List String) (purged : JsMap Project) (nowIso : String)
    (p : Section → Bool) (hp : ∀ sec, p sec = true → (asStr? sec.projectId).any live.contains = true)
    (sections : List Section) :
    (sections.map (repairSection live deleted purged nowIso)).filter p = sections.filter p := by
  induction sections with
  | nil => rfl
  | cons sec sections ih =>
    cases hlive : (asStr? sec.projectId).any live.contains with
    | true => rw [List.map_cons, repairSection_live hlive, List.filter_cons, List.filter_cons, ih]
    | false =>
      have hkept : p sec = false := by
        rw [← Bool.not_eq_true]
        intro h
        rw [hp sec h] at hlive
        cases hlive
      have hrepaired : p (repairSection live deleted purged nowIso sec) = false := by
        rw [← Bool.not_eq_true]
        intro h
        have hsame := hp _ h
        rw [repairSection_projectId, hlive] at hsame
        cases hsame
      rw [List.map_cons, List.filter_cons_of_neg (by simp [hrepaired]), List.filter_cons_of_neg (by simp [hkept]), ih]

/-! ### The lookups -/

/-- The lookups for areas, projects and sections that are repaired already. -/
def lookupIndex (areas : List Area) (areaIdRemap : JsMap String) (projects : List Project) (sections : List Section) :
    RepairIndex :=
  let liveProjects := projects.filter fun project => !truthy project.deletedAt
  let archivedProjects := JsMap.ofItems (fun project : Project => project.id) (liveProjects.filter isArchived)
  { areaIdRemap
    liveAreas := JsMap.ofItems (fun area : Area => area.id) (areas.filter fun area => !truthy area.deletedAt)
    deletedAreaIds := (areas.filter fun area => truthy area.deletedAt).map (·.id)
    liveProjectIds := liveProjects.map (·.id)
    deletedProjectIds := (projects.filter fun project => truthy project.deletedAt).map (·.id)
    archivedProjects
    purgedProjects :=
      JsMap.ofItems (fun project : Project => project.id) (projects.filter fun project => truthy project.purgedAt)
    liveSections := JsMap.ofItems (fun sec : Section => sec.id) (sections.filter fun sec =>
      !truthy sec.deletedAt && (asStr? sec.projectId).any (liveProjects.map (·.id)).contains)
    archivedSections := JsMap.ofItems (fun sec : Section => sec.id) (sections.filter fun sec =>
      truthy sec.deletedAt && ((asStr? sec.projectId).bind archivedProjects.get?).isSome) }

theorem lookupIndex_sections (areas : List Area) (areaIdRemap : JsMap String) (projects : List Project)
    (sections : List Section) (nowIso : String) :
    lookupIndex areas areaIdRemap projects (sections.map (repairSection
      (lookupIndex areas areaIdRemap projects sections).liveProjectIds
      (lookupIndex areas areaIdRemap projects sections).deletedProjectIds
      (lookupIndex areas areaIdRemap projects sections).purgedProjects nowIso)) =
      lookupIndex areas areaIdRemap projects sections := by
  have harchived : ∀ sec : Section, (truthy sec.deletedAt && ((asStr? sec.projectId).bind
      (lookupIndex areas areaIdRemap projects sections).archivedProjects.get?).isSome) = true →
      (asStr? sec.projectId).any (lookupIndex areas areaIdRemap projects sections).liveProjectIds.contains = true := by
    intro sec h
    obtain ⟨project, hproject⟩ := Option.isSome_iff_exists.1 (Bool.and_eq_true_iff.1 h).2
    obtain ⟨id, hid, hget⟩ := Option.bind_eq_some_iff.1 hproject
    obtain ⟨hmem, hkey⟩ := JsMap.mem_of_get?_ofItems hget
    rw [hid, Option.any_some, List.contains_iff_mem]
    exact List.mem_map.2 ⟨project, (List.mem_filter.1 hmem).1, hkey⟩
  have hliveSections := filter_map_repairSection (lookupIndex areas areaIdRemap projects sections).deletedProjectIds
    (lookupIndex areas areaIdRemap projects sections).purgedProjects nowIso (fun sec => !truthy sec.deletedAt &&
      (asStr? sec.projectId).any (lookupIndex areas areaIdRemap projects sections).liveProjectIds.contains)
    (fun sec h => (Bool.and_eq_true_iff.1 h).2) sections
  have harchivedSections := filter_map_repairSection (lookupIndex areas areaIdRemap projects sections).deletedProjectIds
    (lookupIndex areas areaIdRemap projects sections).purgedProjects nowIso _ harchived sections
  unfold lookupIndex at hliveSections harchivedSections ⊢
  dsimp only at hliveSections harchivedSections ⊢
  rw [hliveSections, harchivedSections]

section
variable [Runtime] {data : AppData} (hdata : Identified data)
  (hareas : ∀ area ∈ data.areas, isBlank area.id = false) {nowIso : String} (htime : nowIso ≠ "")

include hareas in
theorem areaIdRemap_named {id target : String} (h : (repairIndex data nowIso).areaIdRemap.get? id = some target) :
    isBlank target = false := by
  rcases JsMap.mem_foldl_set _ _ (JsMap.mem_of_find h) with hmem | hmem
  · cases hmem
  · obtain ⟨area, -, he⟩ := List.mem_filterMap.1 hmem
    obtain ⟨canonical, hcanonical, hpair⟩ := Option.map_eq_some_iff.1 he
    obtain ⟨-, rfl⟩ := Prod.mk.inj hpair
    exact hareas canonical (canonicalArea_some hcanonical).1

theorem repairIndex_eq (data : AppData) (nowIso : String) : repairIndex data nowIso =
    lookupIndex (dedupeLiveAreasByName data.areas nowIso (some syncRepairRevBy)).1 (repairIndex data nowIso).areaIdRemap
      (repairMergedSyncReferences data nowIso).projects (repairMergedSyncReferences data nowIso).sections := rfl

include hdata htime in
theorem repaired_areas_again (nowIso' : String) :
    dedupeLiveAreasByName (repairMergedSyncReferences data nowIso).areas nowIso' (some syncRepairRevBy) =
      ((repairMergedSyncReferences data nowIso).areas, .empty) :=
  dedupeLiveAreasByName_again hdata.areas htime nowIso' _

include hdata htime in
theorem repaired_areaIdRemap (nowIso' : String) :
    (repairIndex (repairMergedSyncReferences data nowIso) nowIso').areaIdRemap = .empty :=
  congrArg Prod.snd (repaired_areas_again hdata htime nowIso')

include hdata htime in
theorem repaired_liveAreas (nowIso' : String) :
    (repairIndex (repairMergedSyncReferences data nowIso) nowIso').liveAreas = (repairIndex data nowIso).liveAreas := by
  show JsMap.ofItems (fun area : Area => area.id) ((dedupeLiveAreasByName (repairMergedSyncReferences data nowIso).areas
    nowIso' (some syncRepairRevBy)).1.filter fun area => !truthy area.deletedAt) = _
  rw [repaired_areas_again hdata htime]
  rfl

include hdata hareas htime in
theorem repaired_projects (nowIso' : String) :
    (repairMergedSyncReferences (repairMergedSyncReferences data nowIso) nowIso').projects =
      (repairMergedSyncReferences data nowIso).projects := by
  show (repairMergedSyncReferences data nowIso).projects.map (repairProject
    (repairIndex (repairMergedSyncReferences data nowIso) nowIso').areaIdRemap
    (repairIndex (repairMergedSyncReferences data nowIso) nowIso').liveAreas nowIso') = _
  rw [repaired_areaIdRemap hdata htime, repaired_liveAreas hdata htime]
  show (data.projects.map _).map _ = data.projects.map _
  rw [List.map_map]
  exact List.map_congr_left fun project _ => repairProject_again (fun _ _ => areaIdRemap_named hareas) nowIso nowIso' project

include hdata hareas htime in
/-- The next repair looks everything up where the first one did, and merges no area. -/
theorem repairIndex_again (nowIso' : String) : repairIndex (repairMergedSyncReferences data nowIso) nowIso' =
    { repairIndex data nowIso with areaIdRemap := .empty } := by
  have hsections := lookupIndex_sections (repairMergedSyncReferences data nowIso).areas .empty
    (repairMergedSyncReferences data nowIso).projects (repairMergedSyncReferences data nowIso).sections nowIso'
  have hids : ∀ sections, (repairMergedSyncReferences (repairMergedSyncReferences data nowIso) nowIso').sections =
      (repairMergedSyncReferences data nowIso).sections.map (repairSection
        (lookupIndex (repairMergedSyncReferences data nowIso).areas .empty
          (repairMergedSyncReferences (repairMergedSyncReferences data nowIso) nowIso').projects sections).liveProjectIds
        (lookupIndex (repairMergedSyncReferences data nowIso).areas .empty
          (repairMergedSyncReferences (repairMergedSyncReferences data nowIso) nowIso').projects sections).deletedProjectIds
        (lookupIndex (repairMergedSyncReferences data nowIso).areas .empty
          (repairMergedSyncReferences (repairMergedSyncReferences data nowIso) nowIso').projects sections).purgedProjects
        nowIso') := fun _ => rfl
  rw [repairIndex_eq, repaired_areas_again hdata htime, repaired_areaIdRemap hdata htime,
    hids (repairMergedSyncReferences data nowIso).sections, repaired_projects hdata hareas htime, hsections]
  rfl

end

/-! ### Tasks -/

theorem hierarchy_parts (next : TaskContainerAssignment) (owner : Option String) :
    ((resolveTaskContainerHierarchy next owner).projectId = next.projectId ∨
      isSet owner = true ∧ (resolveTaskContainerHierarchy next owner).projectId = owner) ∧
    ((resolveTaskContainerHierarchy next owner).areaId = none ∨
      (resolveTaskContainerHierarchy next owner).areaId = next.areaId) ∧
    (isSet (resolveTaskContainerHierarchy next owner).areaId = true →
      isSet (resolveTaskContainerHierarchy next owner).projectId = false) ∧
    ((resolveTaskContainerHierarchy next owner).sectionId = none ∨
      (resolveTaskContainerHierarchy next owner).sectionId = next.sectionId ∧
        (isSet next.sectionId = true →
          isSet owner = true ∧ (resolveTaskContainerHierarchy next owner).projectId = owner)) := by
  have hnone : isSet none = false := rfl
  unfold resolveTaskContainerHierarchy
  by_cases hsection : isSet next.sectionId = true
  · by_cases howner : isSet owner = true
    · by_cases hproject : isSet next.projectId = true
      · by_cases hsame : owner = next.projectId
        · subst hsame
          by_cases harea : isSet next.areaId = true
          · simp [hsection, howner, harea, hnone]
          · simp [hsection, howner, harea]
        · by_cases harea : isSet next.areaId = true
          · simp [hsection, howner, hproject, hsame, harea, hnone]
          · simp [hsection, howner, hproject, hsame, harea]
      · simp [hsection, howner, hproject, hnone]
    · by_cases harea : isSet next.areaId = true
      · by_cases hproject : isSet next.projectId = true
        · simp [hsection, howner, harea, hproject, hnone]
        · simp [hsection, howner, harea, hproject]
      · simp [hsection, howner, harea]
  · by_cases harea : isSet next.areaId = true
    · by_cases hproject : isSet next.projectId = true
      · simp [hsection, harea, hproject, hnone]
      · simp [hsection, harea, hproject]
    · simp [hsection, harea]

/-- An area is only lost to a project. -/
theorem hierarchy_area (next : TaskContainerAssignment) (owner : Option String) :
    (resolveTaskContainerHierarchy next owner).areaId = next.areaId ∨
      isSet (resolveTaskContainerHierarchy next owner).projectId = true := by
  unfold resolveTaskContainerHierarchy
  extract_lets resolved
  have hresolved : resolved.areaId = next.areaId ∨ isSet resolved.projectId = true := by
    show (if _ then _ else _ : TaskContainerAssignment).areaId = _ ∨ isSet (if _ then _ else _ : TaskContainerAssignment).projectId = _
    split_ifs with hsection howner
    · exact .inl rfl
    · exact .inl rfl
    · exact .inr (by simpa using howner)
    · exact .inl rfl
    · exact .inl rfl
  split_ifs with hboth
  · exact .inr (Bool.and_eq_true_iff.1 hboth).2
  · exact hresolved

/-- The project of the section that a task keeps. -/
def taskSectionProject (index : RepairIndex) (task : Task) (projectId sectionId : Option String) : Option String :=
  let liveSection := sectionId.bind index.liveSections.get?
  let archivedSection := if liveSection.isSome then none else sectionId.bind index.archivedSections.get?
  (liveSection.bind fun sec => asStr? sec.projectId).or (archivedSection.bind fun sec =>
    if isTaskSectionProjectArchiveReference task sec (projectId.bind index.archivedProjects.get?) then
      asStr? sec.projectId
    else none)

/-- Live projects have names and are not deleted, and live sections and archived projects are those of live projects. -/
structure SettledIndex (index : RepairIndex) : Prop where
  live : ∀ id, index.liveProjectIds.contains id = true →
    isBlank id = false ∧ index.deletedProjectIds.contains id = false
  liveSections : ∀ id sec, index.liveSections.get? id = some sec →
    ∃ owner, asStr? sec.projectId = some owner ∧ index.liveProjectIds.contains owner = true
  archivedProjects : ∀ id project, index.archivedProjects.get? id = some project →
    project.id = id ∧ index.liveProjectIds.contains id = true
  areaIdRemap : ∀ id target, index.areaIdRemap.get? id = some target → isBlank target = false

/-- The repair has nothing to do for a task in these containers. -/
structure SettledContainers (index : RepairIndex) (task : Task) (c : TaskContainerAssignment) : Prop where
  projectId : ∀ id, c.projectId = some id → index.liveProjectIds.contains id = true
  areaId : ∀ id, c.areaId = some id → isBlank id = false ∧ c.projectId = none ∧
    index.deletedAreaIds.contains id = false ∧ (index.liveAreas.get? id).isSome = true
  sectionId : ∀ id, c.sectionId = some id → isBlank id = false ∧ c.projectId.isSome = true ∧
    taskSectionProject index task c.projectId c.sectionId = c.projectId

theorem hierarchy_settled {index : RepairIndex} (hindex : SettledIndex index) {task : Task} {c : TaskContainerAssignment}
    (hc : SettledContainers index task c) :
    resolveTaskContainerHierarchy c (taskSectionProject index task c.projectId c.sectionId) = c := by
  obtain ⟨projectId, sectionId, areaId⟩ := c
  have hloose : (isSet areaId && isSet projectId) = false := by
    cases areaId with
    | none => rfl
    | some id =>
      obtain ⟨-, hproject, -⟩ := hc.areaId id rfl
      have hproject : projectId = none := hproject
      rw [hproject]
      exact Bool.and_false _
  cases sectionId with
  | none =>
    have hnone : isSet none = false := rfl
    simp only [resolveTaskContainerHierarchy, hnone, Bool.not_false, if_true, hloose, Bool.false_eq_true, if_false]
  | some id =>
    obtain ⟨hblank, hsome, howner⟩ := hc.sectionId id rfl
    obtain ⟨owner, hproject⟩ := Option.isSome_iff_exists.1 hsome
    have hproject : projectId = some owner := hproject
    have howner : taskSectionProject index task projectId (some id) = projectId := howner
    have hset := isSet_of_not_blank (hindex.live owner (hc.projectId owner hproject)).1
    rw [← hproject] at hset
    simp only [resolveTaskContainerHierarchy, howner, isSet_of_not_blank hblank, hset, Bool.not_true, Bool.false_eq_true,
      if_false, bne_self_eq_false, Bool.and_true]
    rw [hset, Bool.and_true] at hloose
    rw [hloose]
    rfl

theorem repairTask_settled {index : RepairIndex} (hindex : SettledIndex index) {task : Task} {c : TaskContainerAssignment}
    (hin : StandsIn task c) (hc : SettledContainers index task c) (nowIso : String) :
    repairTask { index with areaIdRemap := .empty } nowIso task = task := by
  have hprojectId : nonBlank task.projectId = c.projectId := by
    rw [hin.projectId]
    exact nonBlank_map_str fun id hid => (hindex.live id (hc.projectId id hid)).1
  have hsectionId : nonBlank task.sectionId = c.sectionId := by
    rw [hin.sectionId]
    exact nonBlank_map_str fun id hid => (hc.sectionId id hid).1
  have hareaId : nonBlank task.areaId = c.areaId := by
    rw [hin.areaId]
    exact nonBlank_map_str fun id hid => (hc.areaId id hid).1
  have hdeleted : c.projectId.any index.deletedProjectIds.contains = false := by
    cases hid : c.projectId with
    | none => rfl
    | some id => exact (hindex.live id (hc.projectId id hid)).2
  have hmissing : (c.projectId.any fun projectId => !index.liveProjectIds.contains projectId) = false := by
    cases hid : c.projectId with
    | none => rfl
    | some id => simpa using hc.projectId id hid
  have hremapped : (c.areaId.map fun areaId => ((JsMap.empty (α := String)).get? areaId).getD areaId) = c.areaId := by
    cases c.areaId <;> rfl
  have hgone : (isSet c.areaId && c.areaId.any fun areaId =>
      index.deletedAreaIds.contains areaId || (index.liveAreas.get? areaId).isNone) = false := by
    cases hid : c.areaId with
    | none => rfl
    | some id =>
      obtain ⟨-, -, hnot, hlive⟩ := hc.areaId id hid
      simp only [Option.any_some, hnot, Bool.false_or, Option.isNone_eq_false_iff.2 hlive, Bool.and_false]
  have hresolved := hierarchy_settled hindex hc
  unfold taskSectionProject at hresolved
  simp only [repairTask, hprojectId, hsectionId, hareaId, hdeleted, hmissing, hremapped, hgone, Bool.or_false,
    Bool.false_eq_true, if_false]
  rw [if_pos ⟨trivial, trivial, trivial, trivial, hresolved⟩]

/-- Where no area of the task is merged, the areas that are do not matter. -/
theorem repairTask_unmerged {index : RepairIndex} {task : Task} (nowIso : String)
    (h : ((nonBlank task.areaId).map fun areaId => (index.areaIdRemap.get? areaId).getD areaId) = nonBlank task.areaId) :
    repairTask { index with areaIdRemap := .empty } nowIso task = repairTask index nowIso task := by
  have hempty : ((nonBlank task.areaId).map fun areaId => ((JsMap.empty (α := String)).get? areaId).getD areaId) =
      nonBlank task.areaId := by
    cases nonBlank task.areaId <;> rfl
  simp only [repairTask, h, hempty]

/-- The project of the section is a live one, and it is found again once the task stands in it. -/
theorem taskSectionProject_some {index : RepairIndex} (hindex : SettledIndex index) {task : Task}
    {projectId sectionId : Option String} {owner : String}
    (h : taskSectionProject index task projectId sectionId = some owner) :
    index.liveProjectIds.contains owner = true ∧
      ∀ repaired : Task, repaired.status = task.status → repaired.projectId = some (.str owner) →
        taskSectionProject index repaired (some owner) sectionId = some owner := by
  simp only [taskSectionProject, Option.or_eq_some_iff, Option.bind_eq_some_iff] at h ⊢
  rcases h with ⟨sec, hsec, howner⟩ | ⟨hnone, sec, hsec, howner⟩
  · obtain ⟨id, -, hget⟩ := id hsec
    obtain ⟨owner', howner', hlive⟩ := hindex.liveSections id sec hget
    obtain rfl := Option.some.inj (howner.symm.trans howner')
    exact ⟨hlive, fun _ _ _ => .inl ⟨sec, hsec, howner⟩⟩
  · split_ifs at hsec howner with hfound harchived
    cases hproject : projectId.bind index.archivedProjects.get? with
    | none =>
      rw [hproject] at harchived
      cases harchived
    | some project =>
      rw [hproject] at harchived
      obtain ⟨id, -, hget⟩ := Option.bind_eq_some_iff.1 hproject
      obtain ⟨rfl, hlive⟩ := hindex.archivedProjects id project hget
      simp only [isTaskSectionProjectArchiveReference, Option.any_some, Bool.and_eq_true, beq_iff_eq] at harchived
      obtain ⟨⟨hreference, hsecProject⟩, hstatus⟩ := harchived
      rw [hsecProject] at howner
      obtain rfl := Option.some.inj howner
      refine ⟨hlive, fun repaired hsame hin => .inr ⟨hnone, sec, ?_, ?_⟩⟩
      · rw [if_neg hfound]
        exact hsec
      · have hagain : isTaskSectionProjectArchiveReference repaired sec
            ((some project.id).bind index.archivedProjects.get?) = true := by
          simp only [isTaskSectionProjectArchiveReference, Option.bind_some, hget, Option.any_some, Bool.and_eq_true,
            beq_iff_eq, hin, hsame, hsecProject, hstatus, and_true, hreference.1]
        rw [if_pos hagain, hsecProject]
        rfl

/-- A task is left alone by every repair, or it stands in containers that no repair changes. -/
theorem repairTask_result {index : RepairIndex} (hindex : SettledIndex index) (nowIso : String) (task : Task) :
    ((((nonBlank task.areaId).map fun areaId => (index.areaIdRemap.get? areaId).getD areaId) = nonBlank task.areaId) ∧
      ∀ nowIso', repairTask index nowIso' task = task) ∨
    ∃ c, StandsIn (repairTask index nowIso task) c ∧ SettledContainers index (repairTask index nowIso task) c ∧
      ∀ areaId, ((nonBlank task.areaId).map fun areaId => (index.areaIdRemap.get? areaId).getD areaId) = some areaId →
        index.deletedAreaIds.contains areaId = false → (index.liveAreas.get? areaId).isSome = true →
          c.areaId = some areaId ∨ c.projectId.isSome = true := by
  generalize hresult : repairTask index nowIso task = repaired
  unfold repairTask at hresult
  extract_lets originalProjectId originalSectionId originalAreaId remappedAreaId projectDeleted projectMissing
    nextProjectId nextSectionId areaGone nextAreaId liveSection archivedSection sectionProjectId next resolved at hresult
  by_cases hkept : remappedAreaId = originalAreaId ∧ projectDeleted = false ∧ projectMissing = false ∧ areaGone = false ∧
      resolved = next
  · exact .inl ⟨hkept.1, fun nowIso' => by unfold repairTask; exact if_pos hkept⟩
  · rw [if_neg hkept] at hresult
    refine .inr ⟨resolved, ?_, ?_, ?_⟩
    · rw [← hresult]
      exact ⟨rfl, rfl, rfl⟩
    · have hstatus : repaired.status = task.status := by rw [← hresult]; rfl
      have hin : repaired.projectId = resolved.projectId.map .str := by rw [← hresult]; rfl
      have hnextProject : ∀ id, next.projectId = some id → index.liveProjectIds.contains id = true := by
        intro id hid
        have hid : nextProjectId = some id := hid
        simp only [nextProjectId] at hid
        split_ifs at hid with hgone
        simp only [Bool.or_eq_true, not_or, Bool.not_eq_true] at hgone
        have hmissing := hgone.2
        simp only [projectMissing, hid, Option.any_some] at hmissing
        simpa using hmissing
      have hnextSection : ∀ id, next.sectionId = some id → isBlank id = false := by
        intro id hid
        have hid : nextSectionId = some id := hid
        simp only [nextSectionId] at hid
        split_ifs at hid
        exact (nonBlank_eq_some hid).2
      have hnextArea : ∀ id, next.areaId = some id → isBlank id = false ∧
          index.deletedAreaIds.contains id = false ∧ (index.liveAreas.get? id).isSome = true := by
        intro id hid
        have hid : nextAreaId = some id := hid
        simp only [nextAreaId] at hid
        split_ifs at hid with hgone
        have hblank : isBlank id = false := by
          obtain ⟨old, hold, hget⟩ := Option.map_eq_some_iff.1 hid
          cases htarget : index.areaIdRemap.get? old with
          | none =>
            rw [htarget] at hget
            obtain rfl : old = id := hget
            exact (nonBlank_eq_some hold).2
          | some target =>
            rw [htarget] at hget
            obtain rfl : target = id := hget
            exact hindex.areaIdRemap old target htarget
        simp only [areaGone, hid, isSet_of_not_blank hblank, Option.any_some, Bool.true_and, Bool.or_eq_true, not_or,
          Bool.not_eq_true, Option.isNone_eq_false_iff] at hgone
        exact ⟨hblank, hgone⟩
      have howner : sectionProjectId = taskSectionProject index task next.projectId next.sectionId := rfl
      obtain ⟨hproject, harea, hloose, hsection⟩ := hierarchy_parts next sectionProjectId
      constructor
      · intro id hid
        rcases hproject with hsame | ⟨-, hsame⟩
        · exact hnextProject id (hsame.symm.trans hid)
        · exact (taskSectionProject_some hindex (howner.symm.trans (hsame.symm.trans hid))).1
      · intro id hid
        rcases harea with hnone | hsame
        · cases hid.symm.trans hnone
        · obtain ⟨hblank, hdeleted, hlive⟩ := hnextArea id (hsame.symm.trans hid)
          have hid' : (resolveTaskContainerHierarchy next sectionProjectId).areaId = some id := hid
          rw [hid'] at hloose
          have hnotSet := hloose (isSet_of_not_blank hblank)
          refine ⟨hblank, ?_, hdeleted, hlive⟩
          cases hprojectId : resolved.projectId with
          | none => rfl
          | some projectId =>
            have hlive : index.liveProjectIds.contains projectId = true := by
              rcases hproject with hsame | ⟨-, hsame⟩
              · exact hnextProject projectId (hsame.symm.trans hprojectId)
              · exact (taskSectionProject_some hindex (howner.symm.trans (hsame.symm.trans hprojectId))).1
            have hprojectId' : (resolveTaskContainerHierarchy next sectionProjectId).projectId = some projectId := hprojectId
            rw [hprojectId', isSet_of_not_blank (hindex.live projectId hlive).1] at hnotSet
            cases hnotSet
      · intro id hid
        rcases hsection with hnone | ⟨hsame, hin'⟩
        · cases hid.symm.trans hnone
        · have hnext := hsame.symm.trans hid
          have hblank := hnextSection id hnext
          obtain ⟨hset, hprojectId⟩ := hin' (hnext ▸ isSet_of_not_blank hblank)
          obtain ⟨owner, hsome⟩ : ∃ owner, sectionProjectId = some owner := by
            cases hcase : sectionProjectId with
            | none => rw [hcase] at hset; cases hset
            | some owner => exact ⟨owner, rfl⟩
          have hprojectId : resolved.projectId = some owner := hprojectId.trans hsome
          obtain ⟨-, hagain⟩ := taskSectionProject_some hindex (howner.symm.trans hsome)
          refine ⟨hblank, by rw [hprojectId]; rfl, ?_⟩
          rw [hprojectId, show resolved.sectionId = next.sectionId from hsame]
          exact hagain repaired hstatus (by rw [hin, hprojectId]; rfl)
    · intro areaId hremapped hdeleted hlive
      have hremapped : remappedAreaId = some areaId := hremapped
      have hnot : areaGone = false := by
        simp only [areaGone, hremapped, Option.any_some, hdeleted, Bool.false_or, Option.isNone_eq_false_iff.2 hlive,
          Bool.and_false]
      have hnext : next.areaId = some areaId := by
        show (if areaGone = true then none else remappedAreaId) = _
        rw [hnot, if_neg Bool.false_ne_true, hremapped]
      rcases hierarchy_area next sectionProjectId with hsame | hset
      · exact .inl (hsame.trans hnext)
      · refine .inr ?_
        show (resolveTaskContainerHierarchy next sectionProjectId).projectId.isSome = true
        cases hid : (resolveTaskContainerHierarchy next sectionProjectId).projectId with
        | none =>
          rw [hid] at hset
          cases hset
        | some _ => rfl

theorem repairTask_again {index : RepairIndex} (hindex : SettledIndex index) (nowIso nowIso' : String) (task : Task) :
    repairTask { index with areaIdRemap := .empty } nowIso' (repairTask index nowIso task) =
      repairTask index nowIso task := by
  rcases repairTask_result hindex nowIso task with ⟨hremap, hkept⟩ | ⟨c, hin, hc, -⟩
  · rw [hkept nowIso, repairTask_unmerged nowIso' hremap, hkept nowIso']
  · exact repairTask_settled hindex hin hc nowIso'

/-! ### The lookups of a document -/

section
variable [Runtime] {data : AppData} (hdata : Identified data)
  (hareas : ∀ area ∈ data.areas, isBlank area.id = false) {nowIso : String}

include hdata hareas in
theorem repairIndex_settled : SettledIndex (repairIndex data nowIso) := by
  constructor
  · intro id hid
    obtain ⟨repaired, hrepaired, rfl⟩ := List.mem_map.1 (List.contains_iff_mem.1 hid)
    obtain ⟨hmem, hlive⟩ := List.mem_filter.1 hrepaired
    obtain ⟨project, hproject, rfl⟩ := List.mem_map.1 hmem
    simp only [repairProject_id, repairProject_deletedAt, Bool.not_eq_true'] at hlive ⊢
    exact ⟨hdata.named project hproject, (liveProjectIds_contains hdata nowIso hproject hlive).2⟩
  · intro id sec hget
    obtain ⟨hmem, -⟩ := JsMap.mem_of_get?_ofItems hget
    have howner := (Bool.and_eq_true_iff.1 (List.mem_filter.1 hmem).2).2
    cases hid : asStr? sec.projectId with
    | none =>
      rw [hid] at howner
      cases howner
    | some owner =>
      rw [hid] at howner
      exact ⟨owner, rfl, howner⟩
  · intro id project hget
    obtain ⟨hmem, hid⟩ := JsMap.mem_of_get?_ofItems hget
    exact ⟨hid, List.contains_iff_mem.2 (List.mem_map.2 ⟨project, (List.mem_filter.1 hmem).1, hid⟩)⟩
  · exact fun _ _ => areaIdRemap_named hareas

include hdata hareas in
/-- The next repair leaves everything alone but the sections. -/
theorem repairMergedSyncReferences_again (htime : nowIso ≠ "") (nowIso' : String) :
    repairMergedSyncReferences (repairMergedSyncReferences data nowIso) nowIso' =
      { repairMergedSyncReferences data nowIso with
        sections := (repairMergedSyncReferences (repairMergedSyncReferences data nowIso) nowIso').sections } := by
  have hindex := repairIndex_again hdata hareas htime nowIso'
  have htasks : (repairMergedSyncReferences (repairMergedSyncReferences data nowIso) nowIso').tasks =
      (repairMergedSyncReferences data nowIso).tasks := by
    show (repairMergedSyncReferences data nowIso).tasks.map (repairTask
      (repairIndex (repairMergedSyncReferences data nowIso) nowIso') nowIso') = _
    rw [hindex]
    show (data.tasks.map _).map _ = data.tasks.map _
    rw [List.map_map]
    exact List.map_congr_left fun task _ => repairTask_again (repairIndex_settled hdata hareas) nowIso nowIso' task
  have hsettings : (repairMergedSyncReferences (repairMergedSyncReferences data nowIso) nowIso').settings =
      (repairMergedSyncReferences data nowIso).settings := by
    have hunset : ∀ configured : Option String, isSet (configured.bind (JsMap.empty (α := String)).get?) = false := by
      intro configured
      cases configured <;> rfl
    show repairSettings (repairIndex (repairMergedSyncReferences data nowIso) nowIso').areaIdRemap nowIso' _ = _
    rw [repaired_areaIdRemap hdata htime, repairSettings]
    simp only [hunset, Bool.false_eq_true, false_and, if_false]
  have hareas' : (repairMergedSyncReferences (repairMergedSyncReferences data nowIso) nowIso').areas =
      (repairMergedSyncReferences data nowIso).areas :=
    (congrArg Prod.fst (repaired_areas_again hdata htime nowIso') :)
  have hprojects := repaired_projects hdata hareas htime nowIso'
  have hpeople : (repairMergedSyncReferences (repairMergedSyncReferences data nowIso) nowIso').people =
      (repairMergedSyncReferences data nowIso).people := rfl
  generalize repairMergedSyncReferences (repairMergedSyncReferences data nowIso) nowIso' = again at *
  obtain ⟨tasks, projects, sections, areas, people, settings⟩ := again
  dsimp only at htasks hprojects hareas' hpeople hsettings ⊢
  rw [htasks, hprojects, hareas', hpeople, hsettings]

end

end Mindwtr.Sync
