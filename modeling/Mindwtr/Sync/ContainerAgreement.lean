import Mindwtr.Sync.ContainerRepair
import Mindwtr.Sync.RemoteNoninterference

/-!
# Local container rules and the repair

Whatever `resolveTaskContainerAssignment` and `buildTaskContainerMovePatch` allow is sound (`SoundContainers`), and a
task in sound containers is left alone by the repair and passes the check, apart from one thing the local rules do not
look at: the live areas of one name become one area, and the task then follows its area (`moved_task_agrees`).
-/

namespace Mindwtr.Sync

open Mindwtr.Js Mindwtr.Store

/-- The containers have ids of their own, and those of projects are not blank. -/
structure Identified (data : AppData) : Prop where
  projects : (data.projects.map (·.id)).Nodup
  sections : (data.sections.map (·.id)).Nodup
  areas : (data.areas.map (·.id)).Nodup
  named : ∀ project ∈ data.projects, isBlank project.id = false

/-- A section implies its project, a project implies no area, and everything referred to is live. -/
structure SoundContainers (data : AppData) (c : TaskContainerAssignment) : Prop where
  projectId : ∀ id, c.projectId = some id →
    isBlank id = false ∧ ∃ project ∈ data.projects, project.id = id ∧ truthy project.deletedAt = false
  sectionId : ∀ id, c.sectionId = some id →
    isBlank id = false ∧ ∃ sec ∈ data.sections, sec.id = id ∧ truthy sec.deletedAt = false ∧
      ∃ owner, c.projectId = some owner ∧ sec.projectId = some (.str owner)
  areaId : ∀ id, c.areaId = some id →
    isBlank id = false ∧ c.projectId = none ∧ ∃ area ∈ data.areas, area.id = id ∧ truthy area.deletedAt = false

/-! ### What the local rules allow -/

theorem normalizeOptionalContainerId_some {value : Option String} {id : String}
    (h : normalizeOptionalContainerId value = some id) : isBlank id = false := by
  obtain ⟨text, htext, rfl⟩ := Option.map_eq_some_iff.1 h
  rw [isBlank_trim]
  simpa using (Option.filter_eq_some_iff.1 htext).2

theorem isSet_of_not_blank {id : String} (h : isBlank id = false) : isSet (some id) = true := by
  have hne : id ≠ "" := by
    rintro rfl
    exact absurd h (by decide)
  simp [isSet, hne]

theorem validateExistingTaskProjectId_ok {data : AppData} {value id : Option String}
    (h : validateExistingTaskProjectId value data.projects = .ok id) :
    ∀ p, id = some p → isBlank p = false ∧ ∃ project ∈ data.projects, project.id = p ∧ truthy project.deletedAt = false := by
  unfold validateExistingTaskProjectId at h
  split at h
  · cases h
    intro p hp
    cases hp
  · next p hp =>
    split at h
    · next hany =>
      cases h
      intro q hq
      obtain rfl := Option.some.inj hq
      obtain ⟨project, hmem, hproject⟩ := List.any_eq_true.1 hany
      exact ⟨normalizeOptionalContainerId_some hp, project, hmem, by simpa using hproject⟩
    · cases h

theorem validateExistingTaskAreaId_ok {data : AppData} {value id : Option String}
    (h : validateExistingTaskAreaId value data.areas = .ok id) :
    ∀ a, id = some a → isBlank a = false ∧ ∃ area ∈ data.areas, area.id = a ∧ truthy area.deletedAt = false := by
  unfold validateExistingTaskAreaId at h
  split at h
  · cases h
    intro a ha
    cases ha
  · next a ha =>
    split at h
    · next hany =>
      cases h
      intro b hb
      obtain rfl := Option.some.inj hb
      obtain ⟨area, hmem, harea⟩ := List.any_eq_true.1 hany
      exact ⟨normalizeOptionalContainerId_some ha, area, hmem, by simpa using harea⟩
    · cases h

theorem isSet_normalizeOptionalContainerId (value : Option String) :
    isSet (normalizeOptionalContainerId value) = (normalizeOptionalContainerId value).isSome := by
  cases hid : normalizeOptionalContainerId value with
  | none => rfl
  | some id => exact isSet_of_not_blank (normalizeOptionalContainerId_some hid)

theorem eq_str_of_asStr? {v : Option Json} {s : String} (h : asStr? v = some s) : v = some (.str s) := by
  obtain ⟨json, rfl, hjson⟩ := Option.bind_eq_some_iff.1 h
  cases json with
  | str text => exact congrArg (fun t => some (Json.str t)) (Option.some.inj hjson)
  | null => cases hjson
  | bool b => cases hjson
  | num n => cases hjson
  | arr items => cases hjson
  | obj entries => cases hjson

/-- A project leaves no area. -/
theorem hierarchy_project {projectId areaId : Option String} (hproject : isSet projectId = true)
    (harea : isSet areaId = areaId.isSome) :
    resolveTaskContainerHierarchy { projectId, sectionId := none, areaId } none =
      { projectId, sectionId := none, areaId := none } := by
  have hnone : isSet none = false := rfl
  simp only [resolveTaskContainerHierarchy, hnone, Bool.not_false, if_true, hproject, harea, Bool.and_true]
  cases areaId <;> rfl

/-- A section takes its project along. -/
theorem hierarchy_section {projectId areaId : Option String} {sectionId owner : String}
    (hsection : isBlank sectionId = false) (howner : isBlank owner = false)
    (hproject : projectId = none ∨ projectId = some owner) (harea : isSet areaId = areaId.isSome) :
    resolveTaskContainerHierarchy { projectId, sectionId := some sectionId, areaId } (some owner) =
      { projectId := some owner, sectionId := some sectionId, areaId := none } := by
  have hset := isSet_of_not_blank hsection
  have hownerSet := isSet_of_not_blank howner
  have hnone : isSet none = false := rfl
  rcases hproject with rfl | rfl
  · simp [resolveTaskContainerHierarchy, hset, hownerSet, hnone]
  · simp only [resolveTaskContainerHierarchy, hset, hownerSet, harea, Bool.not_true, Bool.false_eq_true, if_false,
      bne_self_eq_false, Bool.and_true]
    cases areaId <;> rfl

/-- Whatever `resolveTaskContainerAssignment` allows is sound. -/
theorem resolveTaskContainerAssignment_sound {data : AppData} (hdata : Identified data)
    {assignment c : TaskContainerAssignment}
    (h : resolveTaskContainerAssignment assignment data.projects data.sections data.areas = .ok c) :
    SoundContainers data c := by
  have harea := isSet_normalizeOptionalContainerId assignment.areaId
  unfold resolveTaskContainerAssignment at h
  cases hproject : validateExistingTaskProjectId assignment.projectId data.projects with
  | error e => simp [hproject, bind, Except.bind] at h
  | ok projectId =>
    have hlive := validateExistingTaskProjectId_ok hproject
    simp only [hproject, bind, Except.bind] at h
    split at h
    · next sectionId hsection =>
      have hsectionId := normalizeOptionalContainerId_some hsection
      split at h
      · cases h
      · next sec hfind =>
        obtain ⟨hsec, hmem⟩ : (sec.id = sectionId ∧ truthy sec.deletedAt = false) ∧ sec ∈ data.sections := by
          refine ⟨?_, List.mem_of_find?_eq_some hfind⟩
          simpa using List.find?_some hfind
        split at h
        · cases h
        · next hany =>
          obtain ⟨project, hprojectMem, howner, hprojectLive⟩ : ∃ project ∈ data.projects,
              some project.id = asStr? sec.projectId ∧ truthy project.deletedAt = false := by
            simpa using hany
          split at h
          · cases h
          · next hsame =>
            have hid : projectId = none ∨ projectId = some project.id := by
              cases projectId with
              | none => exact .inl rfl
              | some p =>
                rw [← howner] at hsame
                have hsame : some project.id = some p := by simpa using hsame
                exact .inr hsame.symm
            have hnamed := hdata.named project hprojectMem
            rw [← howner, hierarchy_section hsectionId hnamed hid harea] at h
            obtain rfl := Except.ok.inj h
            constructor
            · intro id hid
              obtain rfl := Option.some.inj hid
              exact ⟨hnamed, project, hprojectMem, rfl, hprojectLive⟩
            · intro id hid
              obtain rfl := Option.some.inj hid
              refine ⟨hsectionId, sec, hmem, hsec.1, hsec.2, project.id, rfl, ?_⟩
              exact eq_str_of_asStr? howner.symm
            · intro id hid
              cases hid
    · split at h
      · next p =>
        have hset := isSet_of_not_blank (hlive p rfl).1
        rw [hierarchy_project hset harea] at h
        obtain rfl := Except.ok.inj h
        constructor
        · exact hlive
        · intro id hid
          cases hid
        · intro id hid
          cases hid
      · cases hvalid : validateExistingTaskAreaId assignment.areaId data.areas with
        | error e => simp [hvalid] at h
        | ok areaId =>
          have hliveArea := validateExistingTaskAreaId_ok hvalid
          have hnone : resolveTaskContainerHierarchy { projectId := none, sectionId := none, areaId } none =
              { projectId := none, sectionId := none, areaId } := by
            simp [resolveTaskContainerHierarchy, isSet]
          simp only [hvalid, hnone] at h
          obtain rfl := Except.ok.inj h
          constructor
          · intro id hid
            cases hid
          · intro id hid
            cases hid
          · intro id hid
            exact ⟨(hliveArea id hid).1, rfl, (hliveArea id hid).2⟩

theorem SoundContainers.withoutSection {data : AppData} {c : TaskContainerAssignment} (h : SoundContainers data c) :
    SoundContainers data { c with sectionId := none } := by
  constructor
  · exact h.projectId
  · intro id hid
    cases hid
  · exact h.areaId

theorem reserveTaskContainerProjectOrder_containers (task : Task) (updates : TaskContainerAssignment)
    (reserver : String → Option Rat) :
    (reserveTaskContainerProjectOrder task updates reserver).toTaskContainerAssignment = updates := by
  unfold reserveTaskContainerProjectOrder
  split
  · rfl
  · split <;> rfl

/-- So is whatever `buildTaskContainerMovePatch` allows. -/
theorem buildTaskContainerMovePatch_sound {data : AppData} (hdata : Identified data) {task : Task}
    {updates : TaskContainerUpdates} {reserve : Bool} {reserver : Option (String → Option Rat)}
    {patch : TaskContainerMovePatch}
    (h : buildTaskContainerMovePatch task updates data.projects data.sections data.areas reserve reserver = .ok patch) :
    SoundContainers data patch.toTaskContainerAssignment := by
  unfold buildTaskContainerMovePatch at h
  dsimp only at h
  generalize hassignment : TaskContainerAssignment.mk _ _ _ = assignment at h
  cases hresolve : resolveTaskContainerAssignment assignment data.projects data.sections data.areas with
  | error e => simp [hresolve, bind, Except.bind] at h
  | ok c =>
    have hsound := resolveTaskContainerAssignment_sound hdata hresolve
    simp only [hresolve, bind, Except.bind] at h
    split at h
    · obtain rfl := Except.ok.inj h
      exact hsound.withoutSection
    · split at h
      · obtain rfl := Except.ok.inj h
        cases reserver with
        | none => exact hsound
        | some reserver =>
          rw [Option.elim_some, reserveTaskContainerProjectOrder_containers]
          exact hsound
      · obtain rfl := Except.ok.inj h
        exact hsound

/-! ### The areas of one name -/

section
variable [Runtime]

@[simp] theorem dedupeArea_id (areaByName : JsMap Area) (nowIso : String) (revBy : Option String) (area : Area) :
    (dedupeArea areaByName nowIso revBy area).id = area.id := by
  unfold dedupeArea
  split <;> rfl

/-- Every name is held by a live area of that name. -/
theorem areasByName_holds (areas : List Area) {nameKey : String} {holder : Area}
    (h : (areasByName areas).get? nameKey = some holder) :
    holder ∈ areas ∧ truthy holder.deletedAt = false ∧ normalizeAreaNameKey holder.name = nameKey := by
  have hfold : ∀ (rest : List Area) (byName : JsMap Area),
      (∀ key held, byName.get? key = some held →
        held ∈ areas ∧ truthy held.deletedAt = false ∧ normalizeAreaNameKey held.name = key) →
      (∀ area ∈ rest, area ∈ areas) →
      ∀ key held, (rest.foldl claimAreaName byName).get? key = some held →
        held ∈ areas ∧ truthy held.deletedAt = false ∧ normalizeAreaNameKey held.name = key := by
    intro rest
    induction rest with
    | nil => exact fun byName hby _ => hby
    | cons area rest ih =>
      intro byName hby hmem
      refine ih (claimAreaName byName area) ?_ fun a ha => hmem a (List.mem_cons_of_mem _ ha)
      intro key held hheld
      unfold claimAreaName at hheld
      dsimp only at hheld
      split at hheld
      · exact hby key held hheld
      · next hlive =>
        split at hheld
        · rw [JsMap.get?_set] at hheld
          split at hheld
          · next hkey =>
            obtain rfl := Option.some.inj hheld
            simp only [Bool.or_eq_true, not_or, Bool.not_eq_true] at hlive
            exact ⟨hmem area List.mem_cons_self, hlive.1, hkey.symm⟩
          · exact hby key held hheld
        · exact hby key held hheld
  refine hfold areas .empty ?_ (fun area harea => harea) nameKey holder h
  intro key held hheld
  cases hheld

theorem canonicalArea_eq_some {areaByName : JsMap Area} {area canonical : Area}
    (h : canonicalArea areaByName area = some canonical) :
    (truthy area.deletedAt = false ∧ normalizeAreaNameKey area.name ≠ "") ∧
      areaByName.get? (normalizeAreaNameKey area.name) = some canonical ∧ canonical.id ≠ area.id := by
  unfold canonicalArea at h
  dsimp only at h
  split at h
  · cases h
  · next hnamed =>
    simp only [Bool.or_eq_true, beq_iff_eq, not_or, Bool.not_eq_true] at hnamed
    obtain ⟨hget, hother⟩ := Option.filter_eq_some_iff.1 h
    exact ⟨hnamed, hget, by simpa using hother⟩

/-- The area that replaces another one is live, and no other one replaces it. -/
theorem canonicalArea_some {areas : List Area} {area canonical : Area}
    (h : canonicalArea (areasByName areas) area = some canonical) :
    canonical ∈ areas ∧ truthy canonical.deletedAt = false ∧ canonicalArea (areasByName areas) canonical = none := by
  obtain ⟨-, hget, -⟩ := canonicalArea_eq_some h
  obtain ⟨hmem, hlive, hkey⟩ := areasByName_holds areas hget
  refine ⟨hmem, hlive, ?_⟩
  simp [canonicalArea, hkey, hget]

omit [Runtime] in
theorem nodup_filterMap_fst {α : Type} {key : α → String} {l : List α} (h : (l.map key).Nodup)
    (f : α → Option (String × String)) (hf : ∀ a e, f a = some e → e.1 = key a) : ((l.filterMap f).map Prod.fst).Nodup := by
  have hsub : ((l.filterMap f).map Prod.fst).Sublist (l.map key) := by
    induction l with
    | nil => exact List.Sublist.refl _
    | cons a l ih =>
      have hrest := ih (List.nodup_cons.1 h).2
      cases hfa : f a with
      | none =>
        rw [List.filterMap_cons_none hfa]
        exact hrest.cons _
      | some e =>
        rw [List.filterMap_cons_some hfa, List.map_cons, hf a e hfa]
        exact hrest.cons_cons _
  exact h.sublist hsub

variable {data : AppData} (hdata : Identified data) (nowIso : String)
include hdata

theorem areaIdRemap_get? {area : Area} (harea : area ∈ data.areas) :
    (repairIndex data nowIso).areaIdRemap.get? area.id =
      (canonicalArea (areasByName data.areas) area).map fun canonical => canonical.id := by
  have hremap : (repairIndex data nowIso).areaIdRemap = JsMap.ofList (data.areas.filterMap fun area =>
      (canonicalArea (areasByName data.areas) area).map fun canonical => (area.id, canonical.id)) := rfl
  have hnodup := nodup_filterMap_fst hdata.areas
    (fun area => (canonicalArea (areasByName data.areas) area).map fun canonical => (area.id, canonical.id)) (by
      intro a e he
      obtain ⟨canonical, -, rfl⟩ := Option.map_eq_some_iff.1 he
      rfl)
  refine Option.ext fun target => ?_
  rw [hremap, JsMap.get?, JsMap.entries_ofList _ hnodup, JsMap.find_eq_some_iff hnodup, List.mem_filterMap,
    Option.map_eq_some_iff]
  constructor
  · rintro ⟨other, hother, he⟩
    obtain ⟨canonical, hcanonical, hpair⟩ := Option.map_eq_some_iff.1 he
    obtain ⟨hid, rfl⟩ := Prod.mk.inj hpair
    obtain rfl := List.inj_on_of_nodup_map hdata.areas hother harea hid
    exact ⟨canonical, hcanonical, rfl⟩
  · rintro ⟨canonical, hcanonical, rfl⟩
    exact ⟨area, harea, Option.map_eq_some_iff.2 ⟨canonical, hcanonical, rfl⟩⟩

/-- A live area that keeps its name is found by the repair. -/
theorem liveAreas_get? {area : Area} (harea : area ∈ data.areas) (hlive : truthy area.deletedAt = false)
    (hkept : canonicalArea (areasByName data.areas) area = none) :
    ((repairIndex data nowIso).liveAreas.get? area.id).isSome = true ∧
      (repairIndex data nowIso).deletedAreaIds.contains area.id = false := by
  let dedupe := dedupeArea (areasByName data.areas) nowIso (some syncRepairRevBy)
  have hids : ((data.areas.map dedupe).map (·.id)).Nodup := by
    have hsame : (data.areas.map dedupe).map (·.id) = data.areas.map (·.id) := by
      rw [List.map_map]
      exact List.map_congr_left fun a _ => dedupeArea_id _ _ _ a
    rw [hsame]
    exact hdata.areas
  have hself : dedupe area = area := by
    change dedupeArea _ _ _ area = area
    rw [dedupeArea, hkept]
    rfl
  have hmem : area ∈ data.areas.map dedupe := List.mem_map.2 ⟨area, harea, hself⟩
  constructor
  · have hget : (repairIndex data nowIso).liveAreas.get? area.id = some area := by
      refine (JsMap.get?_ofItems (hids.sublist (List.filter_sublist.map _))).2 ⟨?_, rfl⟩
      exact List.mem_filter.2 ⟨hmem, by rw [hlive]; rfl⟩
    rw [hget]
    rfl
  · refine Bool.eq_false_iff.2 fun hdeleted => ?_
    obtain ⟨other, hother, hid⟩ := List.mem_map.1 (List.contains_iff_mem.1 hdeleted)
    obtain ⟨hotherMem, hotherDeleted⟩ := List.mem_filter.1 hother
    obtain rfl := List.inj_on_of_nodup_map hids hotherMem hmem hid
    rw [hlive] at hotherDeleted
    cases hotherDeleted

omit [Runtime] hdata in
@[simp] theorem repairProject_id (areaIdRemap : JsMap String) (liveAreas : JsMap Area) (project : Project) :
    (repairProject areaIdRemap liveAreas nowIso project).id = project.id := by
  unfold repairProject
  dsimp only
  split
  · rfl
  · split
    · split <;> rfl
    · rfl

omit [Runtime] hdata in
@[simp] theorem repairProject_deletedAt (areaIdRemap : JsMap String) (liveAreas : JsMap Area) (project : Project) :
    (repairProject areaIdRemap liveAreas nowIso project).deletedAt = project.deletedAt := by
  unfold repairProject
  dsimp only
  split
  · rfl
  · split
    · split <;> rfl
    · rfl

/-- The repair finds a live project among the live ones only. -/
theorem liveProjectIds_contains {project : Project} (hproject : project ∈ data.projects)
    (hlive : truthy project.deletedAt = false) :
    (repairIndex data nowIso).liveProjectIds.contains project.id = true ∧
      (repairIndex data nowIso).deletedProjectIds.contains project.id = false := by
  let repair := repairProject (repairIndex data nowIso).areaIdRemap (repairIndex data nowIso).liveAreas nowIso
  have hids : (repairIndex data nowIso).liveProjectIds =
      ((data.projects.map repair).filter fun project => !truthy project.deletedAt).map (·.id) := rfl
  have hdeleted : (repairIndex data nowIso).deletedProjectIds =
      ((data.projects.map repair).filter fun project => truthy project.deletedAt).map (·.id) := rfl
  constructor
  · rw [hids, List.contains_iff_mem]
    refine List.mem_map.2 ⟨repair project, List.mem_filter.2 ⟨List.mem_map_of_mem hproject, ?_⟩, ?_⟩
    · simp [repair, hlive]
    · simp [repair]
  · rw [hdeleted]
    refine Bool.eq_false_iff.2 fun hcontains => ?_
    obtain ⟨repaired, hrepaired, hid⟩ := List.mem_map.1 (List.contains_iff_mem.1 hcontains)
    obtain ⟨hmem, htruthy⟩ := List.mem_filter.1 hrepaired
    obtain ⟨other, hother, rfl⟩ := List.mem_map.1 hmem
    rw [repairProject_id] at hid
    obtain rfl := List.inj_on_of_nodup_map hdata.projects hother hproject hid
    rw [repairProject_deletedAt, hlive] at htruthy
    cases htruthy

omit [Runtime] hdata in
@[simp] theorem repairSection_id (live deleted : List String) (purged : JsMap Project) (sec : Section) :
    (repairSection live deleted purged nowIso sec).id = sec.id := by
  unfold repairSection
  dsimp only
  split
  · rfl
  · split
    · split
      · next project _ =>
        simp only [compactSectionsForPurgedProjects, List.map_cons, List.map_nil, List.headD_cons,
          compactSectionForPurgedProject]
        split
        · rfl
        · split <;> rfl
      · rfl
    · rfl

/-- A live section of a live project is found by the repair as it is. -/
theorem liveSections_get? {sec : Section} (hsec : sec ∈ data.sections) (hlive : truthy sec.deletedAt = false)
    {owner : String} (howner : sec.projectId = some (.str owner))
    (hproject : (repairIndex data nowIso).liveProjectIds.contains owner = true) :
    (repairIndex data nowIso).liveSections.get? sec.id = some sec := by
  let index := repairIndex data nowIso
  let repair := repairSection index.liveProjectIds index.deletedProjectIds index.purgedProjects nowIso
  have hsections : index.liveSections = JsMap.ofItems (fun sec : Section => sec.id)
      ((data.sections.map repair).filter fun sec =>
        !truthy sec.deletedAt && (asStr? sec.projectId).any index.liveProjectIds.contains) := rfl
  have hids : ((data.sections.map repair).map (·.id)).Nodup := by
    have hsame : (data.sections.map repair).map (·.id) = data.sections.map (·.id) := by
      rw [List.map_map]
      exact List.map_congr_left fun s _ => repairSection_id nowIso _ _ _ s
    rw [hsame]
    exact hdata.sections
  have hfound : (asStr? sec.projectId).any index.liveProjectIds.contains = true := by
    rw [howner]
    exact hproject
  have hself : repair sec = sec := by
    simp only [repair, repairSection, hfound, Bool.true_or, if_true]
  change index.liveSections.get? sec.id = some sec
  rw [hsections]
  refine (JsMap.get?_ofItems (hids.sublist (List.filter_sublist.map _))).2 ⟨?_, rfl⟩
  refine List.mem_filter.2 ⟨List.mem_map.2 ⟨sec, hsec, hself⟩, ?_⟩
  rw [hlive, hfound]
  rfl

/-! ### A task in sound containers -/

/-- The task stands in these containers. -/
structure StandsIn (task : Task) (c : TaskContainerAssignment) : Prop where
  projectId : task.projectId = c.projectId.map .str
  sectionId : task.sectionId = c.sectionId.map .str
  areaId : task.areaId = c.areaId.map .str

omit [Runtime] hdata in
theorem nonBlank_eq_some {value : Option Json} {id : String} (h : nonBlank value = some id) :
    value = some (.str id) ∧ isBlank id = false := by
  obtain ⟨hstr, hne⟩ := Option.filter_eq_some_iff.1 h
  exact ⟨eq_str_of_asStr? hstr, by simpa using hne⟩

omit [Runtime] hdata in
theorem nonBlank_map_str {id : Option String} (h : ∀ s, id = some s → isBlank s = false) : nonBlank (id.map .str) = id := by
  cases id with
  | none => rfl
  | some s => simp [nonBlank, h s rfl]

omit [Runtime] hdata in
theorem StandsIn.ids {task : Task} {c : TaskContainerAssignment} (hin : StandsIn task c) (hc : SoundContainers data c) :
    nonBlank task.projectId = c.projectId ∧ nonBlank task.sectionId = c.sectionId ∧ nonBlank task.areaId = c.areaId := by
  rw [hin.projectId, hin.sectionId, hin.areaId]
  exact ⟨nonBlank_map_str fun s hs => (hc.projectId s hs).1, nonBlank_map_str fun s hs => (hc.sectionId s hs).1,
    nonBlank_map_str fun s hs => (hc.areaId s hs).1⟩

/-- What the repair writes where the area of a task becomes another one. -/
def followArea (task : Task) (areaId : String) : Task :=
  { task with
    toSyncMeta := { withRepairRevision task.toSyncMeta with updatedAt := some (.str nowIso) }
    areaId := some (.str areaId) }

omit [Runtime] hdata in
theorem hierarchy_noSection (projectId areaId sectionProjectId : Option String) (h : projectId = none ∨ areaId = none) :
    resolveTaskContainerHierarchy { projectId, sectionId := none, areaId } sectionProjectId =
      { projectId, sectionId := none, areaId } := by
  have hnone : isSet none = false := rfl
  simp only [resolveTaskContainerHierarchy, hnone, Bool.not_false, if_true]
  rcases h with rfl | rfl
  · simp [hnone]
  · simp [hnone]

/-- The repair leaves a task in a project, or in no container, as it is. -/
theorem repairTask_noArea {c : TaskContainerAssignment} (hc : SoundContainers data c) {task : Task}
    (hin : StandsIn task c) (harea : c.areaId = none) : repairTask (repairIndex data nowIso) nowIso task = task := by
  obtain ⟨hproject, hsection, harea'⟩ := hin.ids hc
  rw [harea] at harea'
  have hdeleted : c.projectId.any (repairIndex data nowIso).deletedProjectIds.contains = false := by
    cases hid : c.projectId with
    | none => rfl
    | some id =>
      obtain ⟨-, project, hmem, rfl, hlive⟩ := hc.projectId id hid
      exact (liveProjectIds_contains hdata nowIso hmem hlive).2
  have hmissing : c.projectId.any (fun id => !(repairIndex data nowIso).liveProjectIds.contains id) = false := by
    cases hid : c.projectId with
    | none => rfl
    | some id =>
      obtain ⟨-, project, hmem, rfl, hlive⟩ := hc.projectId id hid
      rw [Option.any_some, (liveProjectIds_contains hdata nowIso hmem hlive).1]
      rfl
  have hgone : (isSet none && (none : Option String).any fun areaId =>
      (repairIndex data nowIso).deletedAreaIds.contains areaId ||
        ((repairIndex data nowIso).liveAreas.get? areaId).isNone) = false := rfl
  unfold repairTask
  simp only [hproject, hsection, harea', Option.map_none, hdeleted, hmissing, hgone, Bool.or_self, Bool.false_eq_true,
    if_false]
  refine if_pos ⟨trivial, trivial, trivial, trivial, ?_⟩
  cases hid : c.sectionId with
  | none => exact hierarchy_noSection _ _ _ (.inr rfl)
  | some sectionId =>
    obtain ⟨hblank, sec, hmem, rfl, hlive, owner, howner, hprojectId⟩ := hc.sectionId sectionId hid
    obtain ⟨hownerBlank, project, hprojectMem, hprojectId', hprojectLive⟩ := hc.projectId owner howner
    have hfound := liveSections_get? hdata nowIso hmem hlive hprojectId
      (hprojectId' ▸ (liveProjectIds_contains hdata nowIso hprojectMem hprojectLive).1)
    simp only [Option.bind_some, hfound, hprojectId, howner]
    exact hierarchy_section hblank hownerBlank (.inr rfl) rfl

/-- A task in an area follows the area. -/
theorem repairTask_area {c : TaskContainerAssignment} (hc : SoundContainers data c) {task : Task}
    (hin : StandsIn task c) {areaId : String} (harea : c.areaId = some areaId) :
    repairTask (repairIndex data nowIso) nowIso task =
      ((repairIndex data nowIso).areaIdRemap.get? areaId).elim task (followArea nowIso task) := by
  obtain ⟨hproject, hsection, harea'⟩ := hin.ids hc
  obtain ⟨-, hnoProject, area, hmem, rfl, hlive⟩ := hc.areaId areaId harea
  have hnoSection : c.sectionId = none := by
    refine Option.eq_none_iff_forall_ne_some.2 fun id hid => ?_
    obtain ⟨-, sec, -, -, -, owner, howner, -⟩ := hc.sectionId id hid
    rw [hnoProject] at howner
    cases howner
  rw [hnoProject] at hproject
  rw [hnoSection] at hsection
  rw [harea] at harea'
  have hkept (target : Area) (htarget : target ∈ data.areas) (htargetLive : truthy target.deletedAt = false)
      (hcanonical : canonicalArea (areasByName data.areas) target = none) :
      (isSet (some target.id) && (some target.id).any fun areaId =>
        (repairIndex data nowIso).deletedAreaIds.contains areaId ||
          ((repairIndex data nowIso).liveAreas.get? areaId).isNone) = false := by
    obtain ⟨hfound, hnotDeleted⟩ := liveAreas_get? hdata nowIso htarget htargetLive hcanonical
    rw [Option.any_some, hnotDeleted, Option.isNone_eq_false_iff.2 hfound]
    simp
  have hstays (target : String) (found : Option String) :
      resolveTaskContainerHierarchy { projectId := none, sectionId := none, areaId := some target } found =
        { projectId := none, sectionId := none, areaId := some target } := hierarchy_noSection _ _ _ (.inl rfl)
  unfold repairTask
  simp only [hproject, hsection, harea', Option.map_some, areaIdRemap_get? hdata nowIso hmem, Option.any_none,
    Bool.or_self, Bool.false_eq_true, if_false, Option.isSome_none, Bool.false_and]
  cases hcanonical : canonicalArea (areasByName data.areas) area with
  | none =>
    simp only [Option.map_none, Option.getD_none, hkept area hmem hlive hcanonical, Bool.false_eq_true, if_false,
      Option.elim_none]
    exact if_pos ⟨trivial, trivial, trivial, trivial, hstays _ _⟩
  | some canonical =>
    obtain ⟨hcanonicalMem, hcanonicalLive, hcanonicalKept⟩ := canonicalArea_some hcanonical
    have hne := (canonicalArea_eq_some hcanonical).2.2
    simp only [Option.map_some, Option.getD_some, hkept canonical hcanonicalMem hcanonicalLive hcanonicalKept,
      Bool.false_eq_true, if_false, Option.elim_some, hstays]
    rw [if_neg (by simp [hne])]
    simp [withContainers, followArea, hin.projectId, hin.sectionId, hnoProject, hnoSection]

/-- A task in sound containers is left alone, or follows its area. -/
theorem repairTask_sound {c : TaskContainerAssignment} (hc : SoundContainers data c) {task : Task}
    (hin : StandsIn task c) :
    repairTask (repairIndex data nowIso) nowIso task =
      (c.areaId.bind (repairIndex data nowIso).areaIdRemap.get?).elim task (followArea nowIso task) := by
  cases harea : c.areaId with
  | none => exact repairTask_noArea hdata nowIso hc hin harea
  | some areaId => exact repairTask_area hdata nowIso hc hin harea

omit [Runtime] hdata in
theorem hasNonEmptyValue_of_not_truthy {value : Option Json} (h : truthy value = false) : hasNonEmptyValue value = false := by
  refine Bool.eq_false_iff.2 fun hvalue => ?_
  obtain ⟨json, rfl, hjson⟩ := (Option.any_eq_true _ _).1 hvalue
  obtain ⟨s, hs, hblank⟩ := (Option.any_eq_true _ _).1 hjson
  have hstr := eq_str_of_asStr? (v := some json) hs
  have hne : s ≠ "" := by
    rintro rfl
    exact absurd hblank (by decide)
  rw [hstr] at h
  simp [hne] at h

omit [Runtime] hdata in
theorem projectId_referenced {c : TaskContainerAssignment} (hc : SoundContainers data c) :
    c.projectId.all (referenceIndex data).allProjectIds.contains = true ∧
      c.projectId.all (referenceIndex data).liveProjectIds.contains = true := by
  cases hid : c.projectId with
  | none => exact ⟨rfl, rfl⟩
  | some id =>
    obtain ⟨hblank, project, hmem, rfl, hlive⟩ := hc.projectId id hid
    have hnamed : project ∈ data.projects.filter fun project => !isBlank project.id :=
      List.mem_filter.2 ⟨hmem, by rw [hblank]; rfl⟩
    have hkept : (!hasNonEmptyValue project.deletedAt) = true := by rw [hasNonEmptyValue_of_not_truthy hlive]; rfl
    simp only [Option.all_some, List.contains_iff_mem]
    exact ⟨List.mem_map.2 ⟨project, hnamed, rfl⟩,
      List.mem_map.2 ⟨project, List.mem_filter.2 ⟨hnamed, hkept⟩, rfl⟩⟩

omit [Runtime] hdata in
theorem areaId_referenced {c : TaskContainerAssignment} (hc : SoundContainers data c) :
    c.areaId.all (referenceIndex data).allAreaIds.contains = true ∧
      c.areaId.all (referenceIndex data).liveAreaIds.contains = true := by
  cases hid : c.areaId with
  | none => exact ⟨rfl, rfl⟩
  | some id =>
    obtain ⟨hblank, -, area, hmem, rfl, hlive⟩ := hc.areaId id hid
    have hnamed : area ∈ data.areas.filter fun area => !isBlank area.id :=
      List.mem_filter.2 ⟨hmem, by rw [hblank]; rfl⟩
    have hkept : (!hasNonEmptyValue area.deletedAt) = true := by rw [hasNonEmptyValue_of_not_truthy hlive]; rfl
    simp only [Option.all_some, List.contains_iff_mem]
    exact ⟨List.mem_map.2 ⟨area, hnamed, rfl⟩, List.mem_map.2 ⟨area, List.mem_filter.2 ⟨hnamed, hkept⟩, rfl⟩⟩

theorem taskSectionErrors_sound {c : TaskContainerAssignment} (hc : SoundContainers data c) {task : Task}
    (hin : StandsIn task c) (index : Nat) {sectionId : String} (hid : c.sectionId = some sectionId) :
    taskSectionErrors (referenceIndex data) index task sectionId = [] := by
  obtain ⟨hproject, -, -⟩ := hin.ids hc
  obtain ⟨-, sec, hmem, rfl, hlive, owner, howner, hprojectId⟩ := hc.sectionId sectionId hid
  have hkept := hasNonEmptyValue_of_not_truthy hlive
  have hnotDeleted : (referenceIndex data).deletedSectionIds.contains sec.id = false := by
    refine Bool.eq_false_iff.2 fun hcontains => ?_
    obtain ⟨other, hother, hsame⟩ := List.mem_map.1 (List.contains_iff_mem.1 hcontains)
    obtain ⟨hotherMem, hotherDeleted⟩ := List.mem_filter.1 hother
    obtain rfl := List.inj_on_of_nodup_map hdata.sections hotherMem hmem hsame
    rw [hkept] at hotherDeleted
    cases hotherDeleted
  have hfound : (referenceIndex data).liveSections.get? sec.id = some sec := by
    refine (JsMap.get?_ofItems (hdata.sections.sublist (List.filter_sublist.map _))).2 ⟨?_, rfl⟩
    exact List.mem_filter.2 ⟨hmem, by rw [hkept]; rfl⟩
  simp only [taskSectionErrors, hnotDeleted, Bool.false_eq_true, if_false, hfound, hproject, howner, hprojectId]
  simp [toStr]

/-- Nothing is wrong with the references of a task in sound containers. -/
theorem taskReferenceErrors_sound {c : TaskContainerAssignment} (hc : SoundContainers data c) {task : Task}
    (hin : StandsIn task c) (index : Nat) : taskReferenceErrors (referenceIndex data) index task = [] := by
  obtain ⟨hproject, hsection, harea⟩ := hin.ids hc
  obtain ⟨hprojectExists, hprojectLive⟩ := projectId_referenced hc
  obtain ⟨hareaExists, hareaLive⟩ := areaId_referenced hc
  have hsectionExists : c.sectionId.all (referenceIndex data).allSectionIds.contains = true := by
    cases hid : c.sectionId with
    | none => rfl
    | some id =>
      obtain ⟨hblank, sec, hmem, rfl, -⟩ := hc.sectionId id hid
      rw [Option.all_some, List.contains_iff_mem]
      exact List.mem_map.2 ⟨sec, List.mem_filter.2 ⟨hmem, by rw [hblank]; rfl⟩, rfl⟩
  have herrors : c.sectionId.elim [] (taskSectionErrors (referenceIndex data) index task) = [] := by
    cases hid : c.sectionId with
    | none => rfl
    | some id => exact taskSectionErrors_sound hdata hc hin index hid
  simp only [taskReferenceErrors, hproject, hsection, harea, hprojectExists, hprojectLive, hareaExists, hareaLive,
    hsectionExists, herrors]
  simp

/-! ### Agreement -/

/-- A task after an assignment or a move that the local rules allow, and its containers. -/
inductive MovedTask (data : AppData) (task : Task) : TaskContainerAssignment → Task → Prop
  | assigned {assignment c : TaskContainerAssignment}
      (h : resolveTaskContainerAssignment assignment data.projects data.sections data.areas = .ok c) :
      MovedTask data task c (withContainers task c)
  | patched {updates : TaskContainerUpdates} {reserve : Bool} {reserver : Option (String → Option Rat)}
      {patch : TaskContainerMovePatch}
      (h : buildTaskContainerMovePatch task updates data.projects data.sections data.areas reserve reserver =
        .ok patch) :
      MovedTask data task patch.toTaskContainerAssignment (withMovePatch task patch)

def noContainers : TaskContainerAssignment := { projectId := none, sectionId := none, areaId := none }

omit [Runtime] hdata in
theorem standsIn_withContainers (task : Task) (c : TaskContainerAssignment) : StandsIn (withContainers task c) c :=
  ⟨rfl, rfl, rfl⟩

omit [Runtime] hdata in
theorem soundContainers_none : SoundContainers data noContainers := by
  constructor
  · intro id hid
    cases hid
  · intro id hid
    cases hid
  · intro id hid
    cases hid

omit [Runtime] in
theorem MovedTask.sound {task moved : Task} {c : TaskContainerAssignment} (h : MovedTask data task c moved) :
    SoundContainers data c ∧ StandsIn moved c := by
  cases h with
  | assigned h => exact ⟨resolveTaskContainerAssignment_sound hdata h, standsIn_withContainers task c⟩
  | patched h => exact ⟨buildTaskContainerMovePatch_sound hdata h, ⟨rfl, rfl, rfl⟩⟩

omit [Runtime] hdata in
theorem indexedErrors_congr {α : Type} {check : Nat → α → List String} {before after : List α} {a b : α}
    (h : check before.length a = check before.length b) :
    indexedErrors check (before ++ a :: after) = indexedErrors check (before ++ b :: after) := by
  simp only [indexedErrors, List.mapIdx_append, List.mapIdx_cons, Nat.zero_add, h]

/-- A task in sound containers has the errors it has without them. -/
theorem validateMergedSyncData_sound {c : TaskContainerAssignment} (hc : SoundContainers data c) {task : Task}
    (hin : StandsIn task c) (before after : List Task) :
    validateMergedSyncData { data with tasks := before ++ task :: after } =
      validateMergedSyncData { data with tasks := before ++ withContainers task noContainers :: after } := by
  have hindex (tasks : List Task) : referenceIndex { data with tasks } = referenceIndex data := rfl
  have hshape := @indexedErrors_congr _ (fun i (task : Task) => validateEntityShape "tasks" i task.toSyncMeta) before
    after task (withContainers task noContainers) rfl
  have hreferences := @indexedErrors_congr _ (taskReferenceErrors (referenceIndex data)) before after task
    (withContainers task noContainers) (by
      rw [taskReferenceErrors_sound hdata hc hin,
        taskReferenceErrors_sound hdata soundContainers_none (standsIn_withContainers task noContainers)])
  simp only [validateMergedSyncData, hindex, hshape, hreferences]

/-- What the local rules allow is sound, passes the check, and is left alone by the repair unless the area of the task
becomes another area of its name. -/
theorem moved_task_agrees {task moved : Task} {c : TaskContainerAssignment} (h : MovedTask data task c moved)
    (before after : List Task) :
    SoundContainers data c ∧ StandsIn moved c ∧
      (repairMergedSyncReferences { data with tasks := before ++ moved :: after } nowIso).tasks[before.length]? =
        some ((c.areaId.bind (repairIndex data nowIso).areaIdRemap.get?).elim moved (followArea nowIso moved)) ∧
      validateMergedSyncData { data with tasks := before ++ moved :: after } =
        validateMergedSyncData { data with tasks := before ++ withContainers moved noContainers :: after } := by
  obtain ⟨hc, hin⟩ := h.sound hdata
  refine ⟨hc, hin, ?_, validateMergedSyncData_sound hdata hc hin before after⟩
  have htasks : (repairMergedSyncReferences { data with tasks := before ++ moved :: after } nowIso).tasks =
      (before ++ moved :: after).map (repairTask (repairIndex data nowIso) nowIso) := rfl
  rw [htasks, List.getElem?_map, List.getElem?_append_right (le_refl _), Nat.sub_self, List.getElem?_cons_zero,
    Option.map_some, repairTask_sound hdata nowIso hc hin]

end

/-! ### Examples -/

def containersOnly (projects : List Project) (sections : List Section) (areas : List Area) : AppData :=
  { tasks := [], projects, sections, areas, people := none, settings := noSettings }

def workData : AppData :=
  containersOnly [{ id := "p1" }] [{ id := "s1", projectId := some (.str "p1") }] [{ id := "a1", name := some (.str "Work") }]

def inbox : Task := { id := "t1" }

def inSection : TaskContainerAssignment := { projectId := some "p1", sectionId := some "s1", areaId := none }

/-- A task of the inbox is put into a section. -/
theorem sectionMove_agrees :
    @validateMergedSyncData isoRuntime { workData with tasks := [] ++ withContainers inbox inSection :: [] } =
      @validateMergedSyncData isoRuntime
        { workData with tasks := [] ++ withContainers (withContainers inbox inSection) noContainers :: [] } := by
  have hdata : Identified workData := by
    constructor
    · decide
    · decide
    · decide
    · decide +kernel
  have hresolve : resolveTaskContainerAssignment { projectId := none, sectionId := some " s1 ", areaId := some "a1" }
      workData.projects workData.sections workData.areas =
        .ok inSection := rfl
  exact (@moved_task_agrees isoRuntime workData hdata "2026-01-01T00:00:00.000Z" inbox _ _ (.assigned hresolve)
    [] []).2.2.2

/-- Two live areas of one name. -/
def twinAreas : AppData :=
  containersOnly [] [] [{ id := "a1", name := some (.str "Home"), createdAt := some (.str "2026-01-01T00:00:00.000Z") },
    { id := "a2", name := some (.str "home "), createdAt := some (.str "2026-01-02T00:00:00.000Z") }]

/-- A live and a deleted project of one id. -/
def twinProjects : AppData :=
  containersOnly [{ id := "p1" }, { id := "p1", deletedAt := some (.str "2026-01-02T00:00:00.000Z") }] [] []

/-- A project whose id is white space. -/
def blankProject : AppData := containersOnly [{ id := " " }] [{ id := "s1", projectId := some (.str " ") }] []

/-- The task that an assignment gives is not the one that the repair leaves. -/
def RepairRewrites (data : AppData) (assignment : TaskContainerAssignment) : Prop :=
  ∃ c, resolveTaskContainerAssignment assignment data.projects data.sections data.areas = .ok c ∧
    (@repairMergedSyncReferences isoRuntime { data with tasks := [withContainers inbox c] }
      "2026-01-03T00:00:00.000Z").tasks ≠ [withContainers inbox c]

theorem repair_rewrites :
    RepairRewrites twinAreas { projectId := none, sectionId := none, areaId := some "a2" } ∧
      RepairRewrites twinProjects { projectId := some "p1", sectionId := none, areaId := none } ∧
      RepairRewrites blankProject { projectId := none, sectionId := some "s1", areaId := none } := by
  refine ⟨⟨{ projectId := none, sectionId := none, areaId := some "a2" }, rfl, ?_⟩,
    ⟨{ projectId := some "p1", sectionId := none, areaId := none }, rfl, ?_⟩,
    ⟨{ projectId := some " ", sectionId := some "s1", areaId := none }, rfl, ?_⟩⟩
  · decide +kernel
  · decide +kernel
  · decide +kernel

end Mindwtr.Sync
