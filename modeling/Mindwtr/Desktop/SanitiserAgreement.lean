import Mindwtr.Desktop.ReferenceSanitiser
import Mindwtr.Sync.ContainerAgreement

/-!
# The native check after the repair

The tasks of a document that `repairMergedSyncReferences` leaves as it is refer to what is there (`SoundReferences`). That
is what `sanitizeDanglingContainerReferences` asks for, except where the two tell live rows apart differently: the native
check takes a row that is purged but not deleted for a deleted one, and wants every live section to name a project
(`NativelySound`).
-/

namespace Mindwtr.Desktop

open Mindwtr.Js Mindwtr.Store Mindwtr.Sync

/-! ### Lookups -/

theorem optionalId_some {value : Option Json} {id : String} (h : optionalId value = some id) :
    value = some (.str id) ∧ strTrim id ≠ "" := by
  obtain ⟨hstr, hne⟩ := Option.filter_eq_some_iff.1 h
  exact ⟨eq_str_of_asStr? hstr, by simpa using hne⟩

theorem optionalId_str {id : String} (h : strTrim id ≠ "") : optionalId (some (.str id)) = some id :=
  Option.filter_eq_some_iff.2 ⟨rfl, by simpa using h⟩

theorem nonBlank_str {id : String} (h : isBlank id = false) : nonBlank (some (.str id)) = some id :=
  Option.filter_eq_some_iff.2 ⟨rfl, by simp [h]⟩

theorem sectionProject?_eq_some {projectIds : List String} {sec : Section} {e : String × String} :
    sectionProject? projectIds sec = some e ↔
      e.1 = sec.id ∧ strTrim sec.id ≠ "" ∧ optionalId sec.projectId = some e.2 ∧ e.2 ∈ projectIds := by
  obtain ⟨key, value⟩ := e
  unfold sectionProject?
  simp only [Option.bind_eq_bind, Option.bind_eq_some_iff]
  constructor
  · rintro ⟨id, hid, projectId, hproject, h⟩
    obtain ⟨hstr, hne⟩ := optionalId_some hid
    obtain rfl : sec.id = id := by simpa using hstr
    split_ifs at h with hmem
    obtain ⟨rfl, rfl⟩ := Prod.mk.inj (Option.some.inj h)
    exact ⟨rfl, hne, hproject, List.contains_iff_mem.1 hmem⟩
  · rintro ⟨rfl, hne, hproject, hmem⟩
    exact ⟨sec.id, optionalId_str hne, value, hproject, by rw [if_pos (List.contains_iff_mem.2 hmem)]⟩

theorem sectionProjects_get? {sections : List Section} (hids : (sections.map (·.id)).Nodup) (keep : Section → Bool)
    (projectIds : List String) (id projectId : String) :
    (sectionProjects sections keep projectIds).get? id = some projectId ↔
      ∃ sec ∈ sections, keep sec = true ∧ sec.id = id ∧ strTrim id ≠ "" ∧ optionalId sec.projectId = some projectId ∧
        projectId ∈ projectIds := by
  have hkept : ((sections.filter keep).map (·.id)).Nodup := hids.sublist (List.filter_sublist.map _)
  have hnodup := nodup_filterMap_fst hkept (sectionProject? projectIds) fun sec e he =>
    (sectionProject?_eq_some.1 he).1
  rw [sectionProjects, JsMap.get?, JsMap.entries_ofList _ hnodup, JsMap.find_eq_some_iff hnodup, List.mem_filterMap]
  constructor
  · rintro ⟨sec, hsec, he⟩
    obtain ⟨hmem, hkeep⟩ := List.mem_filter.1 hsec
    obtain ⟨hid, htrim, hproject, hin⟩ := sectionProject?_eq_some.1 he
    exact ⟨sec, hmem, hkeep, hid.symm, by rw [show id = sec.id from hid]; exact htrim, hproject, hin⟩
  · rintro ⟨sec, hmem, hkeep, rfl, htrim, hproject, hin⟩
    exact ⟨sec, List.mem_filter.2 ⟨hmem, hkeep⟩, sectionProject?_eq_some.2 ⟨rfl, htrim, hproject, hin⟩⟩

/-! ### What the repair leaves alone -/

section
variable [Runtime] {data : AppData} {nowIso : String} (hdata : Identified data)
  (hfix : repairMergedSyncReferences data nowIso = data)

include hfix in
theorem fixed_projects : data.projects.map
    (repairProject (repairIndex data nowIso).areaIdRemap (repairIndex data nowIso).liveAreas nowIso) = data.projects :=
  congrArg AppData.projects hfix

include hfix in
theorem fixed_sections : data.sections.map (repairSection (repairIndex data nowIso).liveProjectIds
    (repairIndex data nowIso).deletedProjectIds (repairIndex data nowIso).purgedProjects nowIso) = data.sections :=
  congrArg AppData.sections hfix

include hfix in
theorem fixed_task {task : Task} (htask : task ∈ data.tasks) : repairTask (repairIndex data nowIso) nowIso task = task := by
  have htasks : data.tasks.map (repairTask (repairIndex data nowIso) nowIso) = data.tasks := congrArg AppData.tasks hfix
  exact List.map_inj_left.1 (htasks.trans (List.map_id _).symm) task htask

include hfix in
theorem liveProjectIds_eq : (repairIndex data nowIso).liveProjectIds =
    (data.projects.filter fun project => !truthy project.deletedAt).map (·.id) := by
  have hids : (repairIndex data nowIso).liveProjectIds = ((data.projects.map (repairProject
      (repairIndex data nowIso).areaIdRemap (repairIndex data nowIso).liveAreas nowIso)).filter fun project =>
        !truthy project.deletedAt).map (·.id) := rfl
  rw [hids, fixed_projects hfix]

include hfix in
theorem mem_liveProjectIds {id : String} : id ∈ (repairIndex data nowIso).liveProjectIds ↔
    ∃ project ∈ data.projects, project.id = id ∧ truthy project.deletedAt = false := by
  rw [liveProjectIds_eq hfix, List.mem_map]
  constructor
  · rintro ⟨project, hproject, rfl⟩
    obtain ⟨hmem, hlive⟩ := List.mem_filter.1 hproject
    exact ⟨project, hmem, rfl, by simpa using hlive⟩
  · rintro ⟨project, hmem, rfl, hlive⟩
    exact ⟨project, List.mem_filter.2 ⟨hmem, by simp [hlive]⟩, rfl⟩

include hfix in
theorem mem_deletedProjectIds {id : String} : id ∈ (repairIndex data nowIso).deletedProjectIds ↔
    ∃ project ∈ data.projects, project.id = id ∧ truthy project.deletedAt = true := by
  have hids : (repairIndex data nowIso).deletedProjectIds = ((data.projects.map (repairProject
      (repairIndex data nowIso).areaIdRemap (repairIndex data nowIso).liveAreas nowIso)).filter fun project =>
        truthy project.deletedAt).map (·.id) := rfl
  rw [hids, fixed_projects hfix, List.mem_map]
  constructor
  · rintro ⟨project, hproject, rfl⟩
    obtain ⟨hmem, hdeleted⟩ := List.mem_filter.1 hproject
    exact ⟨project, hmem, rfl, hdeleted⟩
  · rintro ⟨project, hmem, rfl, hdeleted⟩
    exact ⟨project, List.mem_filter.2 ⟨hmem, hdeleted⟩, rfl⟩

include hdata hfix in
theorem liveAreas_some {id : String} {area : Area} (h : (repairIndex data nowIso).liveAreas.get? id = some area) :
    area ∈ data.areas ∧ area.id = id ∧ truthy area.deletedAt = false := by
  have hareas : (dedupeLiveAreasByName data.areas nowIso (some syncRepairRevBy)).1 = data.areas :=
    congrArg AppData.areas hfix
  have hlive : (repairIndex data nowIso).liveAreas = JsMap.ofItems (fun area : Area => area.id)
      ((dedupeLiveAreasByName data.areas nowIso (some syncRepairRevBy)).1.filter fun area => !truthy area.deletedAt) := rfl
  rw [hlive, hareas] at h
  obtain ⟨hmem, hid⟩ := (JsMap.get?_ofItems (hdata.areas.sublist (List.filter_sublist.map _))).1 h
  obtain ⟨harea, hkept⟩ := List.mem_filter.1 hmem
  exact ⟨harea, hid, by simpa using hkept⟩

include hdata hfix in
theorem liveSections_some {id : String} {sec : Section}
    (h : (repairIndex data nowIso).liveSections.get? id = some sec) :
    sec ∈ data.sections ∧ sec.id = id ∧ truthy sec.deletedAt = false ∧
      ∃ owner, sec.projectId = some (.str owner) ∧ owner ∈ (repairIndex data nowIso).liveProjectIds := by
  have hlive : (repairIndex data nowIso).liveSections = JsMap.ofItems (fun sec : Section => sec.id)
      ((data.sections.map (repairSection (repairIndex data nowIso).liveProjectIds
        (repairIndex data nowIso).deletedProjectIds (repairIndex data nowIso).purgedProjects nowIso)).filter fun sec =>
          !truthy sec.deletedAt && (asStr? sec.projectId).any (repairIndex data nowIso).liveProjectIds.contains) := rfl
  rw [hlive, fixed_sections hfix] at h
  obtain ⟨hmem, hid⟩ := (JsMap.get?_ofItems (hdata.sections.sublist (List.filter_sublist.map _))).1 h
  obtain ⟨hsec, hkept⟩ := List.mem_filter.1 hmem
  simp only [Bool.and_eq_true, Bool.not_eq_true', Option.any_eq_true] at hkept
  obtain ⟨hnotDeleted, owner, howner, hcontains⟩ := hkept
  exact ⟨hsec, hid, hnotDeleted, owner, eq_str_of_asStr? howner, List.contains_iff_mem.1 hcontains⟩

include hdata hfix in
theorem archivedSections_some {id : String} {sec : Section}
    (h : (repairIndex data nowIso).archivedSections.get? id = some sec) : sec ∈ data.sections ∧ sec.id = id := by
  have hlive : (repairIndex data nowIso).archivedSections = JsMap.ofItems (fun sec : Section => sec.id)
      ((data.sections.map (repairSection (repairIndex data nowIso).liveProjectIds
        (repairIndex data nowIso).deletedProjectIds (repairIndex data nowIso).purgedProjects nowIso)).filter fun sec =>
          truthy sec.deletedAt &&
            ((asStr? sec.projectId).bind (repairIndex data nowIso).archivedProjects.get?).isSome) := rfl
  rw [hlive, fixed_sections hfix] at h
  obtain ⟨hmem, hid⟩ := (JsMap.get?_ofItems (hdata.sections.sublist (List.filter_sublist.map _))).1 h
  exact ⟨(List.mem_filter.1 hmem).1, hid⟩

include hdata hfix in
theorem archivedProjects_some {id : String} {project : Project}
    (h : (repairIndex data nowIso).archivedProjects.get? id = some project) :
    project ∈ data.projects ∧ project.id = id := by
  have harchived : (repairIndex data nowIso).archivedProjects = JsMap.ofItems (fun project : Project => project.id)
      (((data.projects.map (repairProject (repairIndex data nowIso).areaIdRemap (repairIndex data nowIso).liveAreas
        nowIso)).filter fun project => !truthy project.deletedAt).filter isArchived) := rfl
  rw [harchived, fixed_projects hfix] at h
  have hsub := (List.filter_sublist (p := isArchived)).trans
    (List.filter_sublist (p := fun project : Project => !truthy project.deletedAt) (l := data.projects))
  obtain ⟨hmem, hid⟩ := (JsMap.get?_ofItems (hdata.projects.sublist (hsub.map _))).1 h
  exact ⟨hsub.subset hmem, hid⟩

/-! ### Sound references -/

omit [Runtime] in
/-- An assignment loses its section, or has none, or stands in the project of its section. -/
theorem hierarchy_cases (next : TaskContainerAssignment) (sectionProjectId : Option String) :
    ∃ areaId, (areaId = none ∨ areaId = next.areaId) ∧
      (Mindwtr.resolveTaskContainerHierarchy next sectionProjectId = { next with sectionId := none, areaId } ∨
        isSet next.sectionId = false ∧ Mindwtr.resolveTaskContainerHierarchy next sectionProjectId = { next with areaId } ∨
        sectionProjectId.isSome = true ∧
          Mindwtr.resolveTaskContainerHierarchy next sectionProjectId = ⟨sectionProjectId, next.sectionId, areaId⟩) := by
  have hsome (howner : isSet sectionProjectId = true) : sectionProjectId.isSome = true := by
    cases sectionProjectId with
    | none => cases howner
    | some _ => rfl
  have harea (c : TaskContainerAssignment) : ∃ areaId, (areaId = none ∨ areaId = c.areaId) ∧
      (if isSet c.areaId && isSet c.projectId then { c with areaId := none } else c) = { c with areaId } := by
    split_ifs
    · exact ⟨none, .inl rfl, rfl⟩
    · exact ⟨c.areaId, .inr rfl, rfl⟩
  have hresolved : ∀ resolved : TaskContainerAssignment, resolved =
      (if !isSet next.sectionId then next
      else if !isSet sectionProjectId then { next with sectionId := none }
      else if !isSet next.projectId then { next with projectId := sectionProjectId, areaId := none }
      else if sectionProjectId != next.projectId then { next with sectionId := none }
      else next) →
      (resolved.areaId = none ∨ resolved.areaId = next.areaId) ∧
        (resolved = { next with sectionId := none, areaId := resolved.areaId } ∨
          isSet next.sectionId = false ∧ resolved = next ∨
          sectionProjectId.isSome = true ∧ resolved = ⟨sectionProjectId, next.sectionId, resolved.areaId⟩) := by
    rintro resolved rfl
    split_ifs with hsection howner hproject hsame
    · exact ⟨.inr rfl, .inr (.inl ⟨by simpa using hsection, rfl⟩)⟩
    · exact ⟨.inr rfl, .inl rfl⟩
    · exact ⟨.inl rfl, .inr (.inr ⟨hsome (by simpa using howner), rfl⟩)⟩
    · exact ⟨.inr rfl, .inl rfl⟩
    · have hsame : sectionProjectId = next.projectId := by simpa using hsame
      exact ⟨.inr rfl, .inr (.inr ⟨hsome (by simpa using howner), by rw [hsame]⟩)⟩
  unfold Mindwtr.resolveTaskContainerHierarchy
  extract_lets resolved
  obtain ⟨hkept, hcases⟩ := hresolved resolved rfl
  obtain ⟨areaId, harea, heq⟩ := harea resolved
  have hareas : areaId = none ∨ areaId = next.areaId := by
    rcases harea with rfl | rfl
    · exact .inl rfl
    · exact hkept
  refine ⟨areaId, hareas, ?_⟩
  rw [heq]
  rcases hcases with h | ⟨hsection, h⟩ | ⟨howner, h⟩
  · exact .inl (by rw [h])
  · exact .inr (.inl ⟨hsection, by rw [h]⟩)
  · exact .inr (.inr ⟨howner, by rw [h]⟩)

/-- What the task of a repaired document refers to is there. -/
structure SoundReferences (data : AppData) (task : Task) : Prop where
  projectId : ∀ id, nonBlank task.projectId = some id →
    ∃ project ∈ data.projects, project.id = id ∧ truthy project.deletedAt = false
  areaId : ∀ id, nonBlank task.areaId = some id → ∃ area ∈ data.areas, area.id = id ∧ truthy area.deletedAt = false
  sectionId : ∀ id, nonBlank task.sectionId = some id → ∃ sec ∈ data.sections, sec.id = id ∧
    ∃ owner, task.projectId = some (.str owner) ∧ sec.projectId = some (.str owner) ∧ isBlank owner = false ∧
      (truthy sec.deletedAt = false ∨
        ∃ project ∈ data.projects, isTaskSectionProjectArchiveReference task sec (some project) = true)

omit [Runtime] in
/-- The containers that a task keeps are those its hierarchy resolves to. -/
theorem repairTask_parts {index : RepairIndex} {task : Task} (h : repairTask index nowIso task = task) :
    ∃ (next : TaskContainerAssignment) (sectionProjectId : Option String),
      (∀ id, next.projectId = some id → isBlank id = false ∧ index.liveProjectIds.contains id = true) ∧
      (∀ id, next.areaId = some id → id ≠ "" → (index.liveAreas.get? id).isSome = true) ∧
      (∀ owner, sectionProjectId = some owner → ∃ id sec, next.sectionId = some id ∧ asStr? sec.projectId = some owner ∧
        (index.liveSections.get? id = some sec ∨ index.archivedSections.get? id = some sec ∧
          ∃ projectId project, index.archivedProjects.get? projectId = some project ∧
            isTaskSectionProjectArchiveReference task sec (some project) = true)) ∧
      (∀ id, nonBlank task.projectId = some id →
        (Mindwtr.resolveTaskContainerHierarchy next sectionProjectId).projectId = some id) ∧
      (∀ id, nonBlank task.sectionId = some id →
        (Mindwtr.resolveTaskContainerHierarchy next sectionProjectId).sectionId = some id) ∧
      (∀ id, nonBlank task.areaId = some id →
        (Mindwtr.resolveTaskContainerHierarchy next sectionProjectId).areaId = some id) ∧
      ∀ id, (Mindwtr.resolveTaskContainerHierarchy next sectionProjectId).projectId = some id →
        task.projectId = some (.str id) := by
  unfold repairTask at h
  extract_lets originalProjectId originalSectionId originalAreaId remappedAreaId projectDeleted projectMissing
    nextProjectId nextSectionId areaGone nextAreaId liveSection archivedSection sectionProjectId next resolved at h
  refine ⟨next, sectionProjectId, ?_, ?_, ?_, ?_⟩
  · intro id hid
    have hid : nextProjectId = some id := hid
    simp only [nextProjectId] at hid
    split_ifs at hid with hgone
    simp only [Bool.or_eq_true, not_or, Bool.not_eq_true] at hgone
    refine ⟨(nonBlank_eq_some hid).2, ?_⟩
    have hmissing := hgone.2
    simp only [projectMissing, hid, Option.any_some] at hmissing
    simpa using hmissing
  · intro id hid hne
    have hid : nextAreaId = some id := hid
    simp only [nextAreaId] at hid
    split_ifs at hid with hgone
    have hset : isSet (some id) = true := by simp [isSet, hne]
    simp only [areaGone, hid, hset, Option.any_some, Bool.true_and, Bool.or_eq_true, not_or] at hgone
    exact Option.isSome_iff_ne_none.2 (by simpa using hgone.2)
  · intro owner howner
    simp only [sectionProjectId, Option.or_eq_some_iff, Option.bind_eq_some_iff] at howner
    rcases howner with ⟨sec, hsec, howner⟩ | ⟨-, sec, hsec, howner⟩
    · obtain ⟨id, hid, hget⟩ := Option.bind_eq_some_iff.1 hsec
      exact ⟨id, sec, hid, howner, .inl hget⟩
    · simp only [archivedSection] at hsec
      split_ifs at hsec
      obtain ⟨id, hid, hget⟩ := Option.bind_eq_some_iff.1 hsec
      split_ifs at howner with harchived
      cases hproject : nextProjectId.bind index.archivedProjects.get? with
      | none =>
        rw [hproject] at harchived
        cases harchived
      | some project =>
        rw [hproject] at harchived
        obtain ⟨projectId, -, hfound⟩ := Option.bind_eq_some_iff.1 hproject
        exact ⟨id, sec, hid, howner, .inr ⟨hget, projectId, project, hfound, harchived⟩⟩
  · split at h
    · next hkept =>
      obtain ⟨hremapped, hdeleted, hmissing, hgone, hresolved⟩ := hkept
      have hresolved : Mindwtr.resolveTaskContainerHierarchy next sectionProjectId = next := hresolved
      have hproject : next.projectId = originalProjectId := by
        change nextProjectId = _
        simp [nextProjectId, hdeleted, hmissing]
      have hsection : next.sectionId = originalSectionId := by
        change nextSectionId = _
        simp [nextSectionId, hdeleted]
      have harea : next.areaId = originalAreaId := by
        change nextAreaId = _
        simp [nextAreaId, hgone, hremapped]
      rw [hresolved, hproject, hsection, harea]
      exact ⟨fun _ h => h, fun _ h => h, fun _ h => h, fun _ h => (nonBlank_eq_some h).1⟩
    · have hproject : task.projectId = resolved.projectId.map .str := (congrArg Task.projectId h).symm
      have hsection : task.sectionId = resolved.sectionId.map .str := (congrArg Task.sectionId h).symm
      have harea : task.areaId = resolved.areaId.map .str := (congrArg Task.areaId h).symm
      have hread {value : Option Json} {ids : Option String} (heq : value = ids.map .str) (id : String)
          (hid : nonBlank value = some id) : ids = some id := by
        obtain ⟨hvalue, -⟩ := nonBlank_eq_some hid
        rw [heq] at hvalue
        obtain ⟨other, rfl, hother⟩ := Option.map_eq_some_iff.1 hvalue
        rw [Json.str.inj hother]
      refine ⟨hread hproject, hread hsection, hread harea, fun id hid => ?_⟩
      have hid : resolved.projectId = some id := hid
      rw [hproject, hid]
      rfl

include hdata hfix in
theorem soundReferences {task : Task} (htask : task ∈ data.tasks) : SoundReferences data task := by
  obtain ⟨next, sectionProjectId, hnextProject, hnextArea, howner, hproject, hsection, harea, hback⟩ :=
    repairTask_parts (fixed_task hfix htask)
  obtain ⟨areaId, hareaId, hcases⟩ := hierarchy_cases next sectionProjectId
  have hlive {id : String} (hid : (repairIndex data nowIso).liveProjectIds.contains id = true) :=
    (mem_liveProjectIds hfix).1 (List.contains_iff_mem.1 hid)
  have hnonempty {id : String} (hid : isBlank id = false) : id ≠ "" := by
    rintro rfl
    exact absurd hid (by decide)
  have hownerLive {owner : String} (h : sectionProjectId = some owner) :
      ∃ project ∈ data.projects, project.id = owner ∧ truthy project.deletedAt = false := by
    obtain ⟨id, sec, -, hsec, hlive | ⟨hget, projectId, project, hproject, harchived⟩⟩ := howner owner h
    · obtain ⟨-, -, -, owner', howner', hmem⟩ := liveSections_some hdata hfix hlive
      rw [howner'] at hsec
      obtain rfl : owner' = owner := Option.some.inj hsec
      exact (mem_liveProjectIds hfix).1 hmem
    · obtain ⟨hmem, -⟩ := archivedProjects_some hdata hfix hproject
      simp only [isTaskSectionProjectArchiveReference, Option.any_some, Bool.and_eq_true, beq_iff_eq,
        Bool.not_eq_true'] at harchived
      obtain ⟨⟨⟨⟨⟨⟨⟨hdeleted, -⟩, -⟩, -⟩, -⟩, -⟩, hsecProject⟩, -⟩ := harchived
      rw [hsecProject] at hsec
      exact ⟨project, hmem, Option.some.inj hsec, hdeleted⟩
  constructor
  · intro id hid
    have hid' := hproject id hid
    rcases hcases with h | ⟨-, h⟩ | ⟨-, h⟩
    · rw [h] at hid'
      exact hlive (hnextProject id hid').2
    · rw [h] at hid'
      exact hlive (hnextProject id hid').2
    · rw [h] at hid'
      exact hownerLive hid'
  · intro id hid
    have hid' := harea id hid
    have hnext : next.areaId = some id := by
      have hsame : areaId = some id := by
        rcases hcases with h | ⟨-, h⟩ | ⟨-, h⟩ <;> rw [h] at hid' <;> exact hid'
      rcases hareaId with hnone | heq
      · rw [hnone] at hsame
        cases hsame
      · rw [← heq, hsame]
    obtain ⟨area, hget⟩ := Option.isSome_iff_exists.1 (hnextArea id hnext (hnonempty (nonBlank_eq_some hid).2))
    obtain ⟨hmem, hareaId, hareaLive⟩ := liveAreas_some hdata hfix hget
    exact ⟨area, hmem, hareaId, hareaLive⟩
  · intro id hid
    have hid' := hsection id hid
    rcases hcases with h | ⟨hunset, h⟩ | ⟨hsome, h⟩
    · rw [h] at hid'
      cases hid'
    · rw [h] at hid'
      have hid' : next.sectionId = some id := hid'
      rw [hid'] at hunset
      simp [isSet, hnonempty (nonBlank_eq_some hid).2] at hunset
    · obtain ⟨owner, hownerEq⟩ := Option.isSome_iff_exists.1 hsome
      rw [h] at hid'
      have hid' : next.sectionId = some id := hid'
      obtain ⟨id', sec, hid'', hsec, hfound⟩ := howner owner hownerEq
      obtain rfl : id = id' := Option.some.inj (hid'.symm.trans hid'')
      have htaskProject := hback owner (by rw [h]; exact hownerEq)
      obtain ⟨project, hprojectMem, hprojectId, -⟩ := hownerLive hownerEq
      have hblank : isBlank owner = false := hprojectId ▸ hdata.named project hprojectMem
      rcases hfound with hlive | ⟨hget, projectId, archived, harchivedProject, harchived⟩
      · obtain ⟨hmem, hsecId, hnotDeleted, -⟩ := liveSections_some hdata hfix hlive
        exact ⟨sec, hmem, hsecId, owner, htaskProject, eq_str_of_asStr? hsec, hblank, .inl hnotDeleted⟩
      · obtain ⟨hmem, hsecId⟩ := archivedSections_some hdata hfix hget
        obtain ⟨harchivedMem, -⟩ := archivedProjects_some hdata hfix harchivedProject
        exact ⟨sec, hmem, hsecId, owner, htaskProject, eq_str_of_asStr? hsec, hblank,
          .inr ⟨archived, harchivedMem, harchived⟩⟩

include hdata hfix in
theorem project_area {project : Project} (hproject : project ∈ data.projects) {id : String}
    (hid : optionalId project.areaId = some id) :
    ∃ area ∈ data.areas, area.id = id ∧ truthy area.deletedAt = false := by
  have hfixed := List.map_inj_left.1 ((fixed_projects hfix).trans (List.map_id _).symm) project hproject
  obtain ⟨hareaId, -⟩ := optionalId_some hid
  have hkept : (repairProject (repairIndex data nowIso).areaIdRemap (repairIndex data nowIso).liveAreas nowIso
      project).areaId = some (.str id) := by
    rw [hfixed]
    exact hareaId
  unfold repairProject at hkept
  extract_lets originalAreaId areaId at hkept
  split at hkept
  · next hunset =>
    -- an empty id is no name of an area to begin with
    have hmap : areaId = some id := by
      obtain ⟨other, hother, heq⟩ := Option.map_eq_some_iff.1 hkept
      rw [hother, Json.str.inj heq]
    rw [hmap] at hunset
    have hempty : id = "" := by simpa [isSet] using hunset
    exact absurd (optionalId_some hid).2 (by rw [hempty]; decide)
  · split at hkept
    · next area hfound =>
      dsimp only at hkept
      have hmap : areaId = some id := by
        split at hkept
        · next hsame =>
          rw [hareaId] at hsame
          obtain ⟨other, hother, heq⟩ := Option.map_eq_some_iff.1 hsame.1
          rw [hother, Json.str.inj heq]
        · obtain ⟨other, hother, heq⟩ := Option.map_eq_some_iff.1 hkept
          rw [hother, Json.str.inj heq]
      rw [hmap] at hfound
      obtain ⟨hmem, hareaId', hlive⟩ := liveAreas_some hdata hfix hfound
      exact ⟨area, hmem, hareaId', hlive⟩
    · cases hkept

include hdata hfix in
/-- A live section does not stand in a deleted project. -/
theorem section_project (htime : nowIso ≠ "") {sec : Section} (hsec : sec ∈ data.sections)
    (hlive : truthy sec.deletedAt = false) {project : Project} (hproject : project ∈ data.projects)
    (hid : sec.projectId = some (.str project.id)) : truthy project.deletedAt = false := by
  have hfixed := List.map_inj_left.1 ((fixed_sections hfix).trans (List.map_id _).symm) sec hsec
  refine Bool.eq_false_iff.2 fun hdeleted => ?_
  have hnotLive : (repairIndex data nowIso).liveProjectIds.contains project.id = false := by
    refine Bool.eq_false_iff.2 fun hcontains => ?_
    obtain ⟨other, hother, hsame, hotherLive⟩ := (mem_liveProjectIds hfix).1 (List.contains_iff_mem.1 hcontains)
    obtain rfl := List.inj_on_of_nodup_map hdata.projects hother hproject hsame
    rw [hdeleted] at hotherLive
    cases hotherLive
  have hisDeleted : (repairIndex data nowIso).deletedProjectIds.contains project.id = true :=
    List.contains_iff_mem.2 ((mem_deletedProjectIds hfix).2 ⟨project, hproject, rfl, hdeleted⟩)
  have hread : asStr? sec.projectId = some project.id := by
    rw [hid]
    rfl
  have htombstone : (repairSection (repairIndex data nowIso).liveProjectIds (repairIndex data nowIso).deletedProjectIds
      (repairIndex data nowIso).purgedProjects nowIso sec).deletedAt = some (.str nowIso) := by
    simp only [repairSection, hread, Option.any_some, hnotLive, hisDeleted, hlive, Bool.not_true, Bool.or_self,
      Bool.false_eq_true, if_false]
  rw [hfixed] at htombstone
  have hlive : truthy sec.deletedAt = false := hlive
  rw [show sec.deletedAt = some (.str nowIso) from htombstone] at hlive
  simp [truthy, htime] at hlive

end

/-! ### What the native check asks for -/

/-- Purged, and not deleted. -/
def purgedOnly (isDeleted : Bool) (m : SyncMeta) : Bool := isDeleted && !truthy m.deletedAt

/-- The time of a deletion is text where it is there. -/
def IsText (value : Option Json) : Prop := ∀ json, value = some json → ∃ s, json = .str s

structure TextTimes (data : AppData) : Prop where
  areas : ∀ area ∈ data.areas, IsText area.deletedAt
  projects : ∀ project ∈ data.projects, IsText project.deletedAt
  sections : ∀ sec ∈ data.sections, IsText sec.deletedAt ∧ IsText sec.projectArchivedAt

/-- What a task refers to is not purged only, unless the task is deleted. The names it holds are names for both, and it
names a project where it names a section. -/
structure NativelySoundTask (data : AppData) (task : Task) : Prop where
  project : taskIsDeleted task = false → ∀ project ∈ data.projects, optionalId task.projectId = some project.id →
    purgedOnly (projectIsDeleted project) project.toSyncMeta = false
  area : taskIsDeleted task = false → ∀ area ∈ data.areas, optionalId task.areaId = some area.id →
    purgedOnly (areaIsDeleted area) area.toSyncMeta = false
  sec : taskIsDeleted task = false → ∀ sec ∈ data.sections, optionalId task.sectionId = some sec.id →
    purgedOnly (sectionIsDeleted sec) sec.toSyncMeta = false
  names : ∀ reference ∈ [task.projectId, task.sectionId, task.areaId], ∀ id,
    optionalId reference = some id → isBlank id = false
  sectionNamed : (optionalId task.sectionId).isSome = true → (optionalId task.projectId).isSome = true

/-- Every section that is live for the native check names a project, and nothing that is live for it refers to a row
that is purged and not deleted. -/
structure NativelySound (data : AppData) : Prop where
  sectionNamed : ∀ sec ∈ data.sections, sectionIsDeleted sec = false →
    ∃ id, optionalId sec.projectId = some id ∧ isBlank id = false
  sectionProject : ∀ sec ∈ data.sections, sectionIsDeleted sec = false → ∀ project ∈ data.projects,
    optionalId sec.projectId = some project.id → purgedOnly (projectIsDeleted project) project.toSyncMeta = false
  projectArea : ∀ project ∈ data.projects, projectIsDeleted project = false → ∀ area ∈ data.areas,
    optionalId project.areaId = some area.id → purgedOnly (areaIsDeleted area) area.toSyncMeta = false
  tasks : ∀ task ∈ data.tasks, NativelySoundTask data task

theorem holdsTime_of_not_truthy {value : Option Json} (h : truthy value = false) : holdsTime value = false := by
  refine Bool.eq_false_iff.2 fun hholds => ?_
  obtain ⟨s, hs, hne⟩ := (Option.any_eq_true _ _).1 hholds
  rw [eq_str_of_asStr? hs] at h
  simp only [bne_iff_ne, ne_eq] at hne
  simp [truthy, hne] at h

theorem holdsTime_of_text {value : Option Json} (htext : IsText value) (h : truthy value = true) : holdsTime value = true := by
  cases value with
  | none => cases h
  | some json =>
    obtain ⟨s, rfl⟩ := htext json rfl
    have hne : s ≠ "" := by
      rintro rfl
      simp [truthy] at h
    simp [holdsTime, asStr?, Json.asStr?, hne]

theorem mem_filter_ids {α : Type} {key : α → String} {items : List α} (hids : (items.map key).Nodup) (keep : α → Bool)
    {item : α} (hitem : item ∈ items) : key item ∈ (items.filter keep).map key ↔ keep item = true := by
  rw [List.mem_map]
  constructor
  · rintro ⟨other, hother, hsame⟩
    obtain ⟨hmem, hkeep⟩ := List.mem_filter.1 hother
    obtain rfl := List.inj_on_of_nodup_map hids hmem hitem hsame
    exact hkeep
  · exact fun hkeep => ⟨item, List.mem_filter.2 ⟨hitem, hkeep⟩, rfl⟩

section
variable {repairNow repairRevBy : String}

theorem sanitizeProject_quiet {areaIds liveAreaIds : List String} {project : Project} :
    (sanitizeProject repairNow repairRevBy areaIds liveAreaIds project).2 = [] ↔
      ∀ id, optionalId project.areaId = some id →
        id ∈ if projectIsDeleted project then areaIds else liveAreaIds := by
  unfold sanitizeProject
  cases hid : optionalId project.areaId with
  | none => simp
  | some areaId =>
    dsimp only
    by_cases hmem : areaId ∈ if projectIsDeleted project then areaIds else liveAreaIds
    · rw [if_pos (List.contains_iff_mem.2 hmem)]
      simpa using hmem
    · rw [if_neg (by simpa [List.contains_iff_mem] using hmem)]
      simpa using hmem

theorem sanitizeProject_unchanged {areaIds liveAreaIds : List String} {project : Project}
    (h : (sanitizeProject repairNow repairRevBy areaIds liveAreaIds project).2 = []) :
    (sanitizeProject repairNow repairRevBy areaIds liveAreaIds project).1 = project := by
  have hquiet := sanitizeProject_quiet.1 h
  unfold sanitizeProject
  cases hid : optionalId project.areaId with
  | none => rfl
  | some areaId =>
    dsimp only
    rw [if_pos (List.contains_iff_mem.2 (hquiet areaId hid))]

theorem sanitizeSection_quiet {projectIds liveProjectIds : List String} {sec : Section} :
    (sanitizeSection repairNow repairRevBy projectIds liveProjectIds sec).2 = [] ↔
      (sectionIsDeleted sec = false → (optionalId sec.projectId).getD "" ∈ liveProjectIds) := by
  unfold sanitizeSection
  dsimp only
  cases hdeleted : sectionIsDeleted sec with
  | true =>
    simp only [if_true, Bool.true_eq_false, false_implies, iff_true]
    split <;> rfl
  | false =>
    simp only [Bool.false_eq_true, if_false, forall_const]
    by_cases hmem : (optionalId sec.projectId).getD "" ∈ liveProjectIds
    · rw [if_pos (List.contains_iff_mem.2 hmem)]
      simpa using hmem
    · rw [if_neg (by simpa [List.contains_iff_mem] using hmem)]
      simpa using hmem

theorem sanitizeSection_unchanged {projectIds liveProjectIds : List String} {sec : Section}
    (h : (sanitizeSection repairNow repairRevBy projectIds liveProjectIds sec).2 = []) :
    (sanitizeSection repairNow repairRevBy projectIds liveProjectIds sec).1 = sec := by
  have hquiet := sanitizeSection_quiet.1 h
  unfold sanitizeSection
  dsimp only
  cases hdeleted : sectionIsDeleted sec with
  | true =>
    simp only [if_true]
    split <;> rfl
  | false =>
    simp only [Bool.false_eq_true, if_false]
    rw [if_pos (List.contains_iff_mem.2 (hquiet hdeleted))]

/-! ### Tasks -/

theorem sanitizeTaskProject_quiet {x : SanitiserIndex} {task : Task} :
    (sanitizeTaskProject x task).2 = [] ↔ ∀ id, optionalId task.projectId = some id →
      id ∈ if taskIsDeleted task then x.projectIds else x.liveProjectIds := by
  unfold sanitizeTaskProject
  cases hid : optionalId task.projectId with
  | none => simp
  | some projectId =>
    dsimp only
    by_cases hmem : projectId ∈ if taskIsDeleted task then x.projectIds else x.liveProjectIds
    · rw [if_pos (List.contains_iff_mem.2 hmem)]
      simpa using hmem
    · rw [if_neg (by simpa [List.contains_iff_mem] using hmem)]
      simpa using hmem

theorem sanitizeTaskProject_unchanged {x : SanitiserIndex} {task : Task} (h : (sanitizeTaskProject x task).2 = []) :
    sanitizeTaskProject x task = (task, []) := by
  have hquiet := sanitizeTaskProject_quiet.1 h
  unfold sanitizeTaskProject
  cases hid : optionalId task.projectId with
  | none => rfl
  | some projectId =>
    dsimp only
    rw [if_pos (List.contains_iff_mem.2 (hquiet projectId hid))]

theorem sanitizeTaskArea_quiet {x : SanitiserIndex} {task : Task} :
    (sanitizeTaskArea x task).2 = [] ↔ ∀ id, optionalId task.areaId = some id →
      id ∈ if taskIsDeleted task then x.areaIds else x.liveAreaIds := by
  unfold sanitizeTaskArea
  cases hid : optionalId task.areaId with
  | none => simp
  | some areaId =>
    dsimp only
    by_cases hmem : areaId ∈ if taskIsDeleted task then x.areaIds else x.liveAreaIds
    · rw [if_pos (List.contains_iff_mem.2 hmem)]
      simpa using hmem
    · rw [if_neg (by simpa [List.contains_iff_mem] using hmem)]
      simpa using hmem

theorem sanitizeTaskArea_unchanged {x : SanitiserIndex} {task : Task} (h : (sanitizeTaskArea x task).2 = []) :
    sanitizeTaskArea x task = (task, []) := by
  have hquiet := sanitizeTaskArea_quiet.1 h
  unfold sanitizeTaskArea
  cases hid : optionalId task.areaId with
  | none => rfl
  | some areaId =>
    dsimp only
    rw [if_pos (List.contains_iff_mem.2 (hquiet areaId hid))]

def finishedOrReference (task : Task) : Bool :=
  (asStr? task.status).any fun status => status == "done" || status == "archived" || status == "reference"

/-- The section of a task is found with the project of the task, or was archived with it. -/
theorem sanitizeTaskSection_quiet {x : SanitiserIndex} {task : Task} :
    (sanitizeTaskSection x task).2 = [] ↔ ∀ id, optionalId task.sectionId = some id →
      (∃ owner, (if taskIsDeleted task then x.sectionProjects else x.liveSectionProjects).get? id = some owner ∧
          ∀ projectId, optionalId task.projectId = some projectId → projectId = owner) ∨
        finishedOrReference task = true ∧
          ∃ projectId, optionalId task.projectId = some projectId ∧
            x.archivedSectionProjects.get? id = some projectId := by
  unfold sanitizeTaskSection
  cases hid : optionalId task.sectionId with
  | none => simp
  | some sectionId =>
    dsimp only
    have hforall {p : String → Prop} : (∀ id, some sectionId = some id → p id) ↔ p sectionId :=
      ⟨fun h => h sectionId rfl, fun h id hid => Option.some.inj hid ▸ h⟩
    rw [hforall]
    generalize (if taskIsDeleted task then x.sectionProjects else x.liveSectionProjects).get? sectionId = found
    change (if ((found.isNone || (optionalId task.projectId).any fun projectId => found != some projectId) &&
      !((optionalId task.projectId).any (fun projectId =>
        x.archivedSectionProjects.get? sectionId == some projectId) && finishedOrReference task)) = true then _
      else _ : Task × List ReferenceIssue).2 = [] ↔ _
    cases found with
    | none =>
      cases hproject : optionalId task.projectId with
      | none => simp
      | some projectId =>
        by_cases harchived : x.archivedSectionProjects.get? sectionId = some projectId <;>
          cases hstatus : finishedOrReference task <;> simp [harchived]
    | some owner =>
      cases hproject : optionalId task.projectId with
      | none => simp
      | some projectId =>
        by_cases hsame : projectId = owner
        · simp [hsame]
        · have hne : owner ≠ projectId := fun h => hsame h.symm
          by_cases harchived : x.archivedSectionProjects.get? sectionId = some projectId <;>
            cases hstatus : finishedOrReference task <;> simp [harchived, hsame, hne]

theorem sanitizeTaskSection_unchanged {x : SanitiserIndex} {task : Task} (h : (sanitizeTaskSection x task).2 = []) :
    sanitizeTaskSection x task = (task, []) := by
  unfold sanitizeTaskSection at *
  cases hid : optionalId task.sectionId with
  | none => rfl
  | some sectionId =>
    simp only [hid] at h ⊢
    generalize (if taskIsDeleted task then x.sectionProjects else x.liveSectionProjects) = projects at h ⊢
    split at h
    · cases h
    · next hkept => rw [if_neg hkept]

theorem sanitizeTask_quiet {x : SanitiserIndex} {task : Task} :
    (sanitizeTask repairNow repairRevBy x task).2 = [] ↔ (sanitizeTaskProject x task).2 = [] ∧
      (sanitizeTaskSection x task).2 = [] ∧ (sanitizeTaskArea x task).2 = [] := by
  have hissues : (sanitizeTask repairNow repairRevBy x task).2 =
      (sanitizeTaskProject x task).2 ++ (sanitizeTaskSection x (sanitizeTaskProject x task).1).2 ++
        (sanitizeTaskArea x (sanitizeTaskSection x (sanitizeTaskProject x task).1).1).2 := by
    unfold sanitizeTask
    dsimp only
    split <;> rfl
  rw [hissues, List.append_eq_nil_iff, List.append_eq_nil_iff, and_assoc]
  constructor
  · rintro ⟨hproject, hsection, harea⟩
    rw [sanitizeTaskProject_unchanged hproject] at hsection harea
    rw [sanitizeTaskSection_unchanged hsection] at harea
    exact ⟨hproject, hsection, harea⟩
  · rintro ⟨hproject, hsection, harea⟩
    rw [sanitizeTaskProject_unchanged hproject, sanitizeTaskSection_unchanged hsection]
    exact ⟨rfl, rfl, harea⟩

theorem sanitizeTask_unchanged {x : SanitiserIndex} {task : Task}
    (h : (sanitizeTask repairNow repairRevBy x task).2 = []) : (sanitizeTask repairNow repairRevBy x task).1 = task := by
  obtain ⟨hproject, hsection, harea⟩ := sanitizeTask_quiet.1 h
  unfold sanitizeTask
  rw [sanitizeTaskProject_unchanged hproject]
  dsimp only
  rw [sanitizeTaskSection_unchanged hsection]
  dsimp only
  rw [sanitizeTaskArea_unchanged harea]
  rfl

theorem flatMap_issues {α : Type} (f : α → α × List ReferenceIssue) (items : List α) :
    (items.map f).flatMap (·.2) = [] ↔ ∀ item ∈ items, (f item).2 = [] := by
  rw [List.flatMap_eq_nil_iff]
  simp

theorem map_unchanged {α : Type} {f : α → α × List ReferenceIssue} {items : List α}
    (h : ∀ item ∈ items, (f item).2 = [] → (f item).1 = item) (hquiet : ∀ item ∈ items, (f item).2 = []) :
    (items.map f).map (·.1) = items := by
  rw [List.map_map]
  refine (List.map_congr_left fun item hitem => ?_).trans (List.map_id _)
  exact h item hitem (hquiet item hitem)

/-- No issue is reported where none is found in any row, and then nothing is changed. -/
theorem sanitize_quiet (data : AppData) :
    (sanitizeDanglingContainerReferences repairNow repairRevBy data).2 = [] ↔
      (∀ project ∈ data.projects, (sanitizeProject repairNow repairRevBy (sanitiserIndex data data.sections).areaIds
        (sanitiserIndex data data.sections).liveAreaIds project).2 = []) ∧
      (∀ sec ∈ data.sections, (sanitizeSection repairNow repairRevBy (sanitiserIndex data data.sections).projectIds
        (sanitiserIndex data data.sections).liveProjectIds sec).2 = []) ∧
      ∀ task ∈ data.tasks, (sanitizeTask repairNow repairRevBy (sanitiserIndex data data.sections) task).2 = [] := by
  unfold sanitizeDanglingContainerReferences
  dsimp only
  rw [List.append_eq_nil_iff, List.append_eq_nil_iff, and_assoc, flatMap_issues, flatMap_issues, flatMap_issues]
  refine and_congr_right fun _ => and_congr_right fun hsections => ?_
  rw [map_unchanged (fun _ _ => sanitizeSection_unchanged) hsections]

theorem sanitize_unchanged {data : AppData}
    (h : (sanitizeDanglingContainerReferences repairNow repairRevBy data).2 = []) :
    (sanitizeDanglingContainerReferences repairNow repairRevBy data).1 = data := by
  obtain ⟨hprojects, hsections, htasks⟩ := (sanitize_quiet data).1 h
  unfold sanitizeDanglingContainerReferences
  dsimp only
  rw [map_unchanged (fun _ _ => sanitizeProject_unchanged) hprojects,
    map_unchanged (fun _ _ => sanitizeSection_unchanged) hsections,
    map_unchanged (fun _ _ => sanitizeTask_unchanged) htasks]

end

/-! ### Agreement -/

/-- The containers have ids of their own. -/
structure UniqueIds (data : AppData) : Prop where
  projects : (data.projects.map (·.id)).Nodup
  sections : (data.sections.map (·.id)).Nodup
  areas : (data.areas.map (·.id)).Nodup

section
variable [Runtime] {data : AppData} {repairNow repairRevBy : String}

omit [Runtime] in
theorem indexedErrors_nil {α : Type} {check : Nat → α → List String} {items : List α}
    (h : indexedErrors check items = []) {item : α} (hitem : item ∈ items) : ∃ i, check i item = [] := by
  obtain ⟨i, hi, rfl⟩ := List.mem_iff_getElem.1 hitem
  refine ⟨i, ?_⟩
  have hall := List.flatten_eq_nil_iff.1 h
  exact hall _ (List.mem_mapIdx.2 ⟨i, hi, rfl⟩)

theorem named_of_shape {label : String} {i : Nat} {m : SyncMeta} (h : validateEntityShape label i m = []) :
    isBlank m.id = false := by
  simp only [validateEntityShape, List.append_eq_nil_iff] at h
  obtain ⟨⟨⟨⟨hblank, -⟩, -⟩, -⟩, -⟩ := h
  split at hblank
  · cases hblank
  · next hid => simpa using hid

/-- What passes the check has names that are not blank, and its sections stand in projects. -/
theorem validated (hvalid : validateMergedSyncData data = []) :
    (∀ project ∈ data.projects, isBlank project.id = false) ∧ (∀ sec ∈ data.sections, isBlank sec.id = false) ∧
      (∀ area ∈ data.areas, isBlank area.id = false) ∧
      ∀ sec ∈ data.sections, ∀ id, nonBlank sec.projectId = some id → ∃ project ∈ data.projects, project.id = id := by
  simp only [validateMergedSyncData, List.append_eq_nil_iff] at hvalid
  obtain ⟨⟨⟨⟨⟨⟨⟨-, hprojects⟩, hsections⟩, hareas⟩, -⟩, -⟩, hreferences⟩, -⟩ := hvalid
  refine ⟨fun project hproject => ?_, fun sec hsec => ?_, fun area harea => ?_, fun sec hsec id hid => ?_⟩
  · obtain ⟨i, hi⟩ := indexedErrors_nil hprojects hproject
    exact named_of_shape hi
  · obtain ⟨i, hi⟩ := indexedErrors_nil hsections hsec
    exact named_of_shape hi
  · obtain ⟨i, hi⟩ := indexedErrors_nil hareas harea
    simp only [validateNamedShape, List.append_eq_nil_iff] at hi
    obtain ⟨⟨⟨⟨⟨hblank, -⟩, -⟩, -⟩, -⟩, -⟩ := hi
    split at hblank
    · cases hblank
    · next hid => simpa using hid
  · obtain ⟨i, hi⟩ := indexedErrors_nil hreferences hsec
    simp only [sectionReferenceErrors, hid] at hi
    split at hi
    · cases hi
    · next hexists =>
      simp only [Option.all_some, Bool.not_eq_true, Bool.not_eq_false'] at hexists
      obtain ⟨project, hproject, hsame⟩ := List.mem_map.1 (List.contains_iff_mem.1 hexists)
      exact ⟨project, (List.mem_filter.1 hproject).1, hsame⟩

variable {nowIso : String} (hdata : Identified data) (hfix : repairMergedSyncReferences data nowIso = data)

omit [Runtime] in
theorem live_of_kept {isDeleted : Bool} {m : SyncMeta} (hlive : truthy m.deletedAt = false)
    (hkept : purgedOnly isDeleted m = false) : isDeleted = false := by
  cases isDeleted with
  | false => rfl
  | true => simp [purgedOnly, hlive] at hkept

omit [Runtime] in
theorem kept_of_live {isDeleted : Bool} (m : SyncMeta) (h : isDeleted = false) : purgedOnly isDeleted m = false := by
  rw [purgedOnly, h, Bool.false_and]

include hdata hfix in
theorem project_quiet_iff {project : Project} (hproject : project ∈ data.projects) :
    (∀ id, optionalId project.areaId = some id → id ∈ if projectIsDeleted project
        then (sanitiserIndex data data.sections).areaIds else (sanitiserIndex data data.sections).liveAreaIds) ↔
      (projectIsDeleted project = false → ∀ area ∈ data.areas, optionalId project.areaId = some area.id →
        purgedOnly (areaIsDeleted area) area.toSyncMeta = false) := by
  constructor
  · intro h hlive area harea hid
    have hmem := h area.id hid
    rw [hlive, if_neg Bool.false_ne_true] at hmem
    have hkept := (mem_filter_ids hdata.areas (fun area => !areaIsDeleted area) harea).1 hmem
    exact kept_of_live _ (by simpa using hkept)
  · intro h id hid
    obtain ⟨area, harea, rfl, hlive⟩ := project_area hdata hfix hproject hid
    split
    · exact List.mem_map_of_mem harea
    · next hnotDeleted =>
      have hkept := live_of_kept hlive (h (by simpa using hnotDeleted) area harea hid)
      exact (mem_filter_ids hdata.areas (fun area => !areaIsDeleted area) harea).2 (by simp [hkept])

include hdata hfix in
theorem section_quiet_iff (htext : TextTimes data) (htime : nowIso ≠ "") (hvalid : validateMergedSyncData data = [])
    {sec : Section} (hsec : sec ∈ data.sections) :
    (sectionIsDeleted sec = false →
        (optionalId sec.projectId).getD "" ∈ (sanitiserIndex data data.sections).liveProjectIds) ↔
      (sectionIsDeleted sec = false → ∃ id, optionalId sec.projectId = some id ∧ isBlank id = false) ∧
      (sectionIsDeleted sec = false → ∀ project ∈ data.projects, optionalId sec.projectId = some project.id →
        purgedOnly (projectIsDeleted project) project.toSyncMeta = false) := by
  obtain ⟨hprojectNames, -, -, hexists⟩ := validated hvalid
  constructor
  · intro h
    refine ⟨fun hlive => ?_, fun hlive project hproject hid => ?_⟩
    · obtain ⟨project, hproject, hsame⟩ := List.mem_map.1 (h hlive)
      have hnamed := hprojectNames project (List.mem_filter.1 hproject).1
      cases hid : optionalId sec.projectId with
      | none =>
        rw [hid] at hsame
        have hempty : project.id = "" := hsame
        rw [hempty] at hnamed
        exact absurd hnamed (by decide)
      | some id =>
        rw [hid] at hsame
        have hsame : project.id = id := hsame
        exact ⟨id, rfl, hsame ▸ hnamed⟩
    · have hmem := h hlive
      rw [hid] at hmem
      have hkept := (mem_filter_ids hdata.projects (fun project => !projectIsDeleted project) hproject).1 hmem
      exact kept_of_live _ (by simpa using hkept)
  · rintro ⟨hnamed, hkept⟩ hlive
    obtain ⟨id, hid, hblank⟩ := hnamed hlive
    obtain ⟨hprojectId, -⟩ := optionalId_some hid
    obtain ⟨project, hproject, rfl⟩ := hexists sec hsec id (by rw [hprojectId]; exact nonBlank_str hblank)
    have hsecLive : truthy sec.deletedAt = false := by
      refine Bool.eq_false_iff.2 fun htruthy => ?_
      have hholds := holdsTime_of_text (htext.sections sec hsec).1 htruthy
      rw [sectionIsDeleted, hholds] at hlive
      cases hlive
    have hprojectLive := section_project hdata hfix htime hsec hsecLive hproject hprojectId
    have hnotDeleted := live_of_kept hprojectLive (hkept hlive project hproject hid)
    rw [hid]
    exact (mem_filter_ids hdata.projects (fun project => !projectIsDeleted project) hproject).2 (by simp [hnotDeleted])

include hdata in
/-- What is quiet refers to sound rows. -/
theorem task_sound (hvalid : validateMergedSyncData data = []) {task : Task} (hsound : SoundReferences data task)
    (hproject : (sanitizeTaskProject (sanitiserIndex data data.sections) task).2 = [])
    (hsection : (sanitizeTaskSection (sanitiserIndex data data.sections) task).2 = [])
    (harea : (sanitizeTaskArea (sanitiserIndex data data.sections) task).2 = []) : NativelySoundTask data task := by
  obtain ⟨hprojectNames, hsectionNames, hareaNames, -⟩ := validated hvalid
  rw [sanitizeTaskProject_quiet] at hproject
  rw [sanitizeTaskArea_quiet] at harea
  rw [sanitizeTaskSection_quiet] at hsection
  -- whichever way its project is found, the section is there
  have hfound {id : String} (hid : optionalId task.sectionId = some id) : ∃ sec ∈ data.sections, sec.id = id ∧
      (taskIsDeleted task = false → sectionIsDeleted sec = false ∨ isArchivedWithProject sec = true) ∧
      ((∃ owner, optionalId sec.projectId = some owner) ∨ (optionalId task.projectId).isSome = true) := by
    rcases hsection id hid with ⟨owner, hget, -⟩ | ⟨-, projectId, hprojectId, hget⟩
    · split at hget
      · next hdeleted =>
        obtain ⟨sec, hsec, -, hsecId, -, howner, -⟩ := (sectionProjects_get? hdata.sections _ _ _ _).1 hget
        exact ⟨sec, hsec, hsecId, fun hlive => absurd (hdeleted.symm.trans hlive) (by decide), .inl ⟨owner, howner⟩⟩
      · obtain ⟨sec, hsec, hlive, hsecId, -, howner, -⟩ := (sectionProjects_get? hdata.sections _ _ _ _).1 hget
        exact ⟨sec, hsec, hsecId, fun _ => .inl (by simpa using hlive), .inl ⟨owner, howner⟩⟩
    · obtain ⟨sec, hsec, harchived, hsecId, -⟩ := (sectionProjects_get? hdata.sections _ _ _ _).1 hget
      exact ⟨sec, hsec, hsecId, fun _ => .inr harchived, .inr (by rw [hprojectId]; rfl)⟩
  have hsectionBlank : ∀ id, optionalId task.sectionId = some id → isBlank id = false := by
    intro id hid
    obtain ⟨sec, hsec, rfl, -⟩ := hfound hid
    exact hsectionNames sec hsec
  constructor
  · intro hlive project hmem hid
    have hin := hproject project.id hid
    rw [hlive, if_neg Bool.false_ne_true] at hin
    have hkept := (mem_filter_ids hdata.projects (fun project => !projectIsDeleted project) hmem).1 hin
    exact kept_of_live _ (by simpa using hkept)
  · intro hlive area hmem hid
    have hin := harea area.id hid
    rw [hlive, if_neg Bool.false_ne_true] at hin
    have hkept := (mem_filter_ids hdata.areas (fun area => !areaIsDeleted area) hmem).1 hin
    exact kept_of_live _ (by simpa using hkept)
  · intro hlive sec hmem hid
    obtain ⟨found, hfoundMem, hsame, hstate, -⟩ := hfound hid
    obtain rfl := List.inj_on_of_nodup_map hdata.sections hfoundMem hmem hsame
    rcases hstate hlive with hkept | harchived
    · exact kept_of_live _ hkept
    · simp only [isArchivedWithProject, Bool.and_eq_true, beq_iff_eq] at harchived
      have hholds : holdsTime found.deletedAt = true := by
        rw [holdsTime, harchived.2]
        exact harchived.1
      have htruthy : truthy found.deletedAt = true := by
        by_contra hnot
        rw [holdsTime_of_not_truthy (by simpa using hnot)] at hholds
        cases hholds
      simp [purgedOnly, htruthy]
  · intro reference hreference id hid
    simp only [List.mem_cons, List.not_mem_nil, or_false] at hreference
    rcases hreference with rfl | rfl | rfl
    · obtain ⟨project, hmem, rfl⟩ : ∃ project ∈ data.projects, project.id = id := by
        have hin := hproject id hid
        split at hin
        · exact List.mem_map.1 hin
        · obtain ⟨project, hmem, hsame⟩ := List.mem_map.1 hin
          exact ⟨project, (List.mem_filter.1 hmem).1, hsame⟩
      exact hprojectNames project hmem
    · exact hsectionBlank id hid
    · obtain ⟨area, hmem, rfl⟩ : ∃ area ∈ data.areas, area.id = id := by
        have hin := harea id hid
        split at hin
        · exact List.mem_map.1 hin
        · obtain ⟨area, hmem, hsame⟩ := List.mem_map.1 hin
          exact ⟨area, (List.mem_filter.1 hmem).1, hsame⟩
      exact hareaNames area hmem
  · intro hsome
    obtain ⟨id, hid⟩ := Option.isSome_iff_exists.1 hsome
    obtain ⟨found, hfoundMem, hsame, -, ⟨owner, howner⟩ | hnamed⟩ := hfound hid
    · obtain ⟨hvalue, -⟩ := optionalId_some hid
      obtain ⟨sec, hsec, hsecId, owner', htaskProject, hsecProject, -⟩ :=
        hsound.sectionId id (by rw [hvalue]; exact nonBlank_str (hsectionBlank id hid))
      obtain rfl := List.inj_on_of_nodup_map hdata.sections hfoundMem hsec (hsame.trans hsecId.symm)
      rw [htaskProject, ← hsecProject, howner]
      rfl
    · exact hnamed

omit [Runtime] in
include hdata in
/-- References to sound rows are not reported. -/
theorem task_quiet (htext : TextTimes data) {task : Task} (hsound : SoundReferences data task)
    (h : NativelySoundTask data task) : (sanitizeTask repairNow repairRevBy (sanitiserIndex data data.sections) task).2 = [] := by
  have hread {value : Option Json} (hmem : value ∈ [task.projectId, task.sectionId, task.areaId]) {id : String}
      (hid : optionalId value = some id) : nonBlank value = some id := by
    rw [(optionalId_some hid).1]
    exact nonBlank_str (h.names value hmem id hid)
  have hprojectLive {id : String} (hid : optionalId task.projectId = some id) :
      id ∈ if taskIsDeleted task then (sanitiserIndex data data.sections).projectIds
        else (sanitiserIndex data data.sections).liveProjectIds := by
    obtain ⟨project, hmem, rfl, hlive⟩ := hsound.projectId id (hread (by simp) hid)
    split
    · exact List.mem_map_of_mem hmem
    · next hnotDeleted =>
      have hkept := live_of_kept hlive (h.project (by simpa using hnotDeleted) project hmem hid)
      exact (mem_filter_ids hdata.projects (fun project => !projectIsDeleted project) hmem).2 (by simp [hkept])
  rw [sanitizeTask_quiet, sanitizeTaskProject_quiet, sanitizeTaskSection_quiet, sanitizeTaskArea_quiet]
  refine ⟨fun id hid => hprojectLive hid, fun id hid => ?_, fun id hid => ?_⟩
  · obtain ⟨sec, hsec, hsecId, owner, htaskProject, hsecProject, -, hstate⟩ :=
      hsound.sectionId id (hread (by simp) hid)
    obtain ⟨owner', howner⟩ := Option.isSome_iff_exists.1 (h.sectionNamed (by rw [hid]; rfl))
    obtain ⟨hownerValue, hownerTrim⟩ := optionalId_some howner
    obtain rfl : owner = owner' := by
      rw [htaskProject] at hownerValue
      exact Json.str.inj (Option.some.inj hownerValue)
    have hsecOwner : optionalId sec.projectId = some owner := by
      rw [hsecProject, ← htaskProject]
      exact howner
    have hmem := hprojectLive howner
    rcases hstate with hlive | ⟨project, hproject, harchived⟩
    · left
      refine ⟨owner, ?_, fun projectId hprojectId => Option.some.inj (hprojectId.symm.trans howner)⟩
      split at hmem
      · next hdeleted =>
        rw [if_pos hdeleted]
        exact (sectionProjects_get? hdata.sections _ _ _ _).2
          ⟨sec, hsec, rfl, hsecId, (optionalId_some hid).2, hsecOwner, hmem⟩
      · next hnotDeleted =>
        rw [if_neg hnotDeleted]
        have hkept := live_of_kept hlive (h.sec (by simpa using hnotDeleted) sec hsec (by rw [hid, hsecId]))
        exact (sectionProjects_get? hdata.sections _ _ _ _).2
          ⟨sec, hsec, by simp [hkept], hsecId, (optionalId_some hid).2, hsecOwner, hmem⟩
    · right
      simp only [isTaskSectionProjectArchiveReference, Option.any_some, Bool.and_eq_true, beq_iff_eq,
        Bool.not_eq_true'] at harchived
      obtain ⟨⟨⟨⟨⟨⟨⟨hnotDeleted, hnotPurged⟩, hprojectArchived⟩, harchivedAt⟩, hsameTime⟩, htaskOwner⟩, -⟩, hstatus⟩ :=
        harchived
      obtain rfl : owner = project.id := by
        rw [htaskProject] at htaskOwner
        exact Json.str.inj (Option.some.inj htaskOwner)
      refine ⟨?_, project.id, howner, (sectionProjects_get? hdata.sections _ _ _ _).2
        ⟨sec, hsec, ?_, hsecId, (optionalId_some hid).2, hsecOwner, ?_⟩⟩
      · simp only [isTaskFinished, Bool.or_eq_true, beq_iff_eq] at hstatus
        rcases hstatus with (hdone | harch) | href
        · simp [finishedOrReference, hdone, asStr?, Json.asStr?]
        · simp [finishedOrReference, harch, asStr?, Json.asStr?]
        · simp [finishedOrReference, href, asStr?, Json.asStr?]
      · rw [isArchivedWithProject, holdsTime_of_text (htext.sections sec hsec).2 harchivedAt, hsameTime]
        simp
      · refine List.mem_filterMap.2 ⟨project, List.mem_filter.2 ⟨hproject, ?_⟩, optionalId_str hownerTrim⟩
        rw [isArchived, beq_iff_eq] at hprojectArchived
        rw [projectIsDeleted, holdsTime_of_not_truthy hnotDeleted, holdsTime_of_not_truthy hnotPurged, hprojectArchived]
        rfl
  · obtain ⟨area, hmem, rfl, hlive⟩ := hsound.areaId id (hread (by simp) hid)
    split
    · exact List.mem_map_of_mem hmem
    · next hnotDeleted =>
      have hkept := live_of_kept hlive (h.area (by simpa using hnotDeleted) area hmem hid)
      exact (mem_filter_ids hdata.areas (fun area => !areaIsDeleted area) hmem).2 (by simp [hkept])

/-- After the repair and its check the native check reports nothing and changes nothing exactly where the document is
sound for it as well. -/
theorem sanitize_after_repair_iff (hunique : UniqueIds data) (htext : TextTimes data) (htime : nowIso ≠ "")
    (hfix : repairMergedSyncReferences data nowIso = data) (hvalid : validateMergedSyncData data = []) :
    (sanitizeDanglingContainerReferences repairNow repairRevBy data).2 = [] ∧
      (sanitizeDanglingContainerReferences repairNow repairRevBy data).1 = data ↔ NativelySound data := by
  have hdata : Identified data := ⟨hunique.projects, hunique.sections, hunique.areas, (validated hvalid).1⟩
  have hquiet : (sanitizeDanglingContainerReferences repairNow repairRevBy data).2 = [] ∧
      (sanitizeDanglingContainerReferences repairNow repairRevBy data).1 = data ↔
        (sanitizeDanglingContainerReferences repairNow repairRevBy data).2 = [] :=
    ⟨fun h => h.1, fun h => ⟨h, sanitize_unchanged h⟩⟩
  rw [hquiet, sanitize_quiet]
  constructor
  · rintro ⟨hprojects, hsections, htasks⟩
    constructor
    · intro sec hsec
      exact ((section_quiet_iff hdata hfix htext htime hvalid hsec).mp (sanitizeSection_quiet.mp (hsections sec hsec))).1
    · intro sec hsec
      exact ((section_quiet_iff hdata hfix htext htime hvalid hsec).mp (sanitizeSection_quiet.mp (hsections sec hsec))).2
    · intro project hproject
      exact (project_quiet_iff hdata hfix hproject).mp (sanitizeProject_quiet.mp (hprojects project hproject))
    · intro task htask
      obtain ⟨hproject, hsection, harea⟩ := sanitizeTask_quiet.mp (htasks task htask)
      exact task_sound hdata hvalid (soundReferences hdata hfix htask) hproject hsection harea
  · intro h
    refine ⟨fun project hproject => ?_, fun sec hsec => ?_, fun task htask => ?_⟩
    · exact sanitizeProject_quiet.mpr ((project_quiet_iff hdata hfix hproject).mpr (h.projectArea project hproject))
    · exact sanitizeSection_quiet.mpr ((section_quiet_iff hdata hfix htext htime hvalid hsec).mpr
        ⟨h.sectionNamed sec hsec, h.sectionProject sec hsec⟩)
    · exact task_quiet hdata htext (soundReferences hdata hfix htask) (h.tasks task htask)

end

/-! ### A section without a project -/

def strayTimes (id : String) : SyncMeta :=
  { id, createdAt := some (.str "2026-01-01T00:00:00.000Z"), updatedAt := some (.str "2026-01-02T00:00:00.000Z") }

/-- A live section whose project id is empty. -/
def strayData : AppData :=
  containersOnly [] [{ toSyncMeta := strayTimes "s1", projectId := some (.str "") }] []

def settledData : AppData :=
  { containersOnly [{ toSyncMeta := strayTimes "p1" }]
      [{ toSyncMeta := strayTimes "s1", projectId := some (.str "p1") }]
      [{ toSyncMeta := strayTimes "a1", name := some (.str "Work") }] with
    tasks := [{ toSyncMeta := strayTimes "t1", projectId := some (.str "p1"), sectionId := some (.str "s1") }] }

/-- The repair leaves it and the check accepts it, but the desktop makes it a tombstone with a new revision. -/
theorem strayData_sanitised :
    UniqueIds strayData ∧ TextTimes strayData ∧
      @repairMergedSyncReferences isoRuntime strayData "2026-02-01T00:00:00.000Z" = strayData ∧
      @validateMergedSyncData isoRuntime strayData = [] ∧
      (sanitizeDanglingContainerReferences "2026-02-01T00:00:00Z" "device-a" strayData).2 =
        [("section.projectId", "s1", "")] ∧
      ((sanitizeDanglingContainerReferences "2026-02-01T00:00:00Z" "device-a" strayData).1.sections.map (·.rev)) =
        [some (.num 1)] := by
  refine ⟨⟨by decide, by decide, by decide⟩, ⟨?_, ?_, ?_⟩, rfl, by decide +kernel, by decide +kernel, by decide +kernel⟩
  · simp [strayData, containersOnly]
  · simp [strayData, containersOnly]
  · simp [strayData, containersOnly, strayTimes, IsText]

theorem settledData_sound : NativelySound settledData := by
  constructor
  · intro sec hsec _
    obtain rfl := List.mem_singleton.1 hsec
    exact ⟨"p1", by decide +kernel, by decide⟩
  · intro sec _ _ project hproject _
    obtain rfl := List.mem_singleton.1 hproject
    decide
  · intro project _ _ area harea _
    obtain rfl := List.mem_singleton.1 harea
    decide
  · intro task htask
    obtain rfl := List.mem_singleton.1 htask
    constructor
    · intro _ project hproject _
      obtain rfl := List.mem_singleton.1 hproject
      decide
    · intro _ area harea _
      obtain rfl := List.mem_singleton.1 harea
      decide
    · intro _ sec hsec _
      obtain rfl := List.mem_singleton.1 hsec
      decide
    · intro reference hreference id hid
      simp only [List.mem_cons, List.not_mem_nil, or_false] at hreference
      rcases hreference with rfl | rfl | rfl
      · obtain rfl : "p1" = id := by simpa using (optionalId_some hid).1
        decide
      · obtain rfl : "s1" = id := by simpa using (optionalId_some hid).1
        decide
      · cases hid
    · intro _
      decide +kernel

theorem settledData_sanitised :
    (sanitizeDanglingContainerReferences "2026-02-01T00:00:00Z" "device-a" settledData).2 = [] ∧
      (sanitizeDanglingContainerReferences "2026-02-01T00:00:00Z" "device-a" settledData).1 = settledData := by
  refine (@sanitize_after_repair_iff isoRuntime settledData _ _ "2026-02-01T00:00:00.000Z" ⟨by decide, by decide, by decide⟩
    ⟨?_, ?_, ?_⟩ (by decide) rfl (by decide +kernel)).mpr settledData_sound
  · simp [settledData, containersOnly, strayTimes, IsText]
  · simp [settledData, containersOnly, strayTimes, IsText]
  · simp [settledData, containersOnly, strayTimes, IsText]

end Mindwtr.Desktop
