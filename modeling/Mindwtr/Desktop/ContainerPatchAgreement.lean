import Mindwtr.Desktop.ContainerPatch
import Mindwtr.Sync.ContainerAgreement

/-!
# A container move through the local API and in the core

On a document whose rows both tell live alike, and for ids without stray white space, the native checks of a patch that
names a container are those of `resolveTaskContainerAssignment` (`resolveLive_eq`), and the free orders the native
snapshot holds are those of the core's reserver (`nextProjectOrders_eq`). What is left between the two is the order of a
task that a section alone takes into a project: the native patch compares projects before the section is resolved.
-/

namespace Mindwtr.Desktop

open Mindwtr.Js Mindwtr.Sync

/-- The document holds nothing that the two read differently. -/
structure SharedContainers (data : AppData) (reserved : List (String × Json)) : Prop extends Identified data where
  liveProjects : ∀ project ∈ data.projects, isLiveProject project = !truthy project.deletedAt
  liveSections : ∀ sec ∈ data.sections, isLiveSection sec = !truthy sec.deletedAt
  liveAreas : ∀ area ∈ data.areas, isLiveArea area = !truthy area.deletedAt
  liveTasks : ∀ task ∈ data.tasks, isLiveTask task = !truthy task.deletedAt
  projectIds : ∀ project ∈ data.projects, trim project.id = project.id ∧ project.id ≠ ""
  reserved : ∀ entry ∈ reserved, ∀ next, asNum? (some entry.2) = some next →
    createProjectOrderReserver data.tasks entry.1 = some next

def TrimsAlike (value : Option Json) : Prop := ∀ id, asStr? value = some id → strTrim id = trim id

/-- The task holds its project's id without white space around it, and no id has white space that only one of the two
trims. -/
structure PlainMove (task : Task) (patch : ContainerPatch) : Prop where
  held : definedId task.projectId = (Mindwtr.normalizeOptionalContainerId (asStr? task.projectId)).map .str
  taskIds : TrimsAlike task.projectId ∧ TrimsAlike task.sectionId ∧ TrimsAlike task.areaId
  patchIds : TrimsAlike patch.projectId ∧ TrimsAlike patch.sectionId ∧ TrimsAlike patch.areaId

/-! ### Ids -/

theorem normalizeOptionalContainerId_eq {value : Option Json} (h : TrimsAlike value) :
    normalizeOptionalContainerId value = Mindwtr.normalizeOptionalContainerId (asStr? value) := by
  unfold normalizeOptionalContainerId Mindwtr.normalizeOptionalContainerId
  cases hid : asStr? value with
  | none => rfl
  | some id =>
    have htrim := h id hid
    rw [Option.map_some, Option.filter_some, Option.filter_some, htrim]
    by_cases hblank : trim id = ""
    · simp [hblank, isBlank]
    · simp [hblank, isBlank]

theorem normalizeOptionalContainerId_plain {id : String} (h : trim id = id ∧ id ≠ "") :
    Mindwtr.normalizeOptionalContainerId (some id) = some id := by
  simp [Mindwtr.normalizeOptionalContainerId, isBlank, h.1, h.2]

theorem normalizeOptionalContainerId_idem (value : Option String) :
    Mindwtr.normalizeOptionalContainerId (Mindwtr.normalizeOptionalContainerId value) =
      Mindwtr.normalizeOptionalContainerId value := by
  cases hid : Mindwtr.normalizeOptionalContainerId value with
  | none => rfl
  | some id =>
    obtain ⟨text, -, rfl⟩ := Option.map_eq_some_iff.1 hid
    have hblank := normalizeOptionalContainerId_some hid
    rw [isBlank, trim_trim] at hblank
    apply normalizeOptionalContainerId_plain
    exact ⟨trim_trim text, by simpa using hblank⟩

theorem ne_empty_of_normalized {value : Option String} {id : String}
    (h : Mindwtr.normalizeOptionalContainerId value = some id) : id ≠ "" := by
  have hset := isSet_of_not_blank (normalizeOptionalContainerId_some h)
  simpa [isSet] using hset

/-! ### The snapshot of live containers -/

theorem find_filterMap {α : Type} {key : α → String} {l : List α} (hnodup : (l.map key).Nodup)
    {f : α → Option (String × String)} (hf : ∀ a e, f a = some e → e.1 = key a) (id : String) :
    JsMap.find id (l.filterMap f) = (l.find? fun a => key a == id).bind fun a => (f a).map Prod.snd := by
  induction l with
  | nil => rfl
  | cons a l ih =>
    obtain ⟨hnotin, hrest⟩ := List.nodup_cons.1 hnodup
    by_cases hkey : key a = id
    · rw [List.find?_cons_of_pos (by simpa using hkey), Option.bind_some]
      cases hfa : f a with
      | none =>
        have hnone : (l.find? fun a => key a == id) = none := by
          rw [List.find?_eq_none]
          intro b hb hid
          exact hnotin (hkey ▸ (eq_of_beq hid) ▸ List.mem_map_of_mem hb)
        rw [List.filterMap_cons_none hfa, ih hrest, hnone]
        rfl
      | some e =>
        rw [List.filterMap_cons_some hfa, JsMap.find, if_pos ((hf a e hfa).trans hkey)]
        rfl
    · rw [List.find?_cons_of_neg (by simpa using hkey)]
      cases hfa : f a with
      | none => rw [List.filterMap_cons_none hfa, ih hrest]
      | some e =>
        rw [List.filterMap_cons_some hfa, JsMap.find, if_neg fun h => hkey ((hf a e hfa).symm.trans h), ih hrest]

section
variable {data : AppData} {reserved : List (String × Json)} (hdata : SharedContainers data reserved)

include hdata in
theorem projectIds_contains (id : String) : (LiveContainers.fromData data reserved).projectIds.contains id =
    data.projects.any fun project => project.id == id && !truthy project.deletedAt := by
  rw [Bool.eq_iff_iff, List.contains_iff_mem, List.any_eq_true]
  simp only [LiveContainers.fromData, List.mem_map, List.mem_filter, Bool.and_eq_true, beq_iff_eq]
  constructor
  · intro ⟨project, ⟨hmem, hlive⟩, hid⟩
    exact ⟨project, hmem, hid, by rw [← hdata.liveProjects project hmem]; exact hlive⟩
  · intro ⟨project, hmem, hid, hlive⟩
    exact ⟨project, ⟨hmem, by rw [hdata.liveProjects project hmem]; exact hlive⟩, hid⟩

include hdata in
theorem areaIds_contains (id : String) : (LiveContainers.fromData data reserved).areaIds.contains id =
    data.areas.any fun area => area.id == id && !truthy area.deletedAt := by
  rw [Bool.eq_iff_iff, List.contains_iff_mem, List.any_eq_true]
  simp only [LiveContainers.fromData, List.mem_map, List.mem_filter, Bool.and_eq_true, beq_iff_eq]
  constructor
  · intro ⟨area, ⟨hmem, hlive⟩, hid⟩
    exact ⟨area, hmem, hid, by rw [← hdata.liveAreas area hmem]; exact hlive⟩
  · intro ⟨area, hmem, hid, hlive⟩
    exact ⟨area, ⟨hmem, by rw [hdata.liveAreas area hmem]; exact hlive⟩, hid⟩

theorem liveSection?_fst {projectIds : List String} {sec : Section} {e : String × String}
    (h : liveSection? projectIds sec = some e) : e.1 = sec.id := by
  obtain ⟨owner, -, howner⟩ := Option.bind_eq_some_iff.1 h
  split_ifs at howner
  cases howner
  rfl

include hdata in
/-- The project of a live section is known where the section is found and its project is live. -/
theorem sectionProjectIds_get? (id : String) : (LiveContainers.fromData data reserved).sectionProjectIds.get? id =
    (data.sections.find? fun sec => sec.id == id && !truthy sec.deletedAt).bind fun sec =>
      (asStr? sec.projectId).filter fun owner =>
        data.projects.any fun project => project.id == owner && !truthy project.deletedAt := by
  have hlive : data.sections.filter isLiveSection = data.sections.filter fun sec => !truthy sec.deletedAt :=
    List.filter_congr fun sec hmem => hdata.liveSections sec hmem
  have hnodup : ((data.sections.filter isLiveSection).map (·.id)).Nodup :=
    hdata.sections.sublist (List.filter_sublist.map _)
  have hfst : ∀ sec e, liveSection? (LiveContainers.fromData data reserved).projectIds sec = some e → e.1 = sec.id :=
    fun _ _ => liveSection?_fst
  have hfind := find_filterMap hnodup hfst id
  show (JsMap.ofList ((data.sections.filter isLiveSection).filterMap
    (liveSection? (LiveContainers.fromData data reserved).projectIds))).get? id = _
  rw [JsMap.get?, JsMap.entries_ofList _ (nodup_filterMap_fst hnodup _ hfst), hfind, hlive, List.find?_filter]
  have hpred : (fun sec : Section => decide ((!truthy sec.deletedAt) = true ∧ (sec.id == id) = true)) =
      fun sec => sec.id == id && !truthy sec.deletedAt := by
    funext sec
    rw [Bool.decide_and, Bool.decide_eq_true, Bool.decide_eq_true, Bool.and_comm]
  rw [hpred]
  congr 1
  funext sec
  unfold liveSection?
  cases asStr? sec.projectId with
  | none => rfl
  | some owner =>
    simp only [Option.bind_some, projectIds_contains hdata, Option.filter_some]
    split_ifs <;> rfl

/-! ### The checks -/

/-- The local API says which reference is wrong. -/
def localApiError (error : String) : String :=
  if error = "Project not found" then "Invalid task projectId: " ++ error
  else if error = "Area not found" then "Invalid task areaId: " ++ error
  else "Invalid task sectionId: " ++ error

theorem validateExistingTaskProjectId_eq (value : Option String) (allProjects : List Project) :
    validateExistingTaskProjectId value allProjects =
      if (Mindwtr.normalizeOptionalContainerId value).any fun id =>
          !allProjects.any fun project => project.id == id && !truthy project.deletedAt then .error "Project not found"
      else .ok (Mindwtr.normalizeOptionalContainerId value) := by
  unfold validateExistingTaskProjectId
  cases Mindwtr.normalizeOptionalContainerId value with
  | none => rfl
  | some id =>
    by_cases h : (allProjects.any fun project => project.id == id && !truthy project.deletedAt) = true
    · simp [h]
    · simp [h]

theorem validateExistingTaskAreaId_eq (value : Option String) (allAreas : List Area) :
    validateExistingTaskAreaId value allAreas =
      if (Mindwtr.normalizeOptionalContainerId value).any fun id =>
          !allAreas.any fun area => area.id == id && !truthy area.deletedAt then .error "Area not found"
      else .ok (Mindwtr.normalizeOptionalContainerId value) := by
  unfold validateExistingTaskAreaId
  cases Mindwtr.normalizeOptionalContainerId value with
  | none => rfl
  | some id =>
    by_cases h : (allAreas.any fun area => area.id == id && !truthy area.deletedAt) = true
    · simp [h]
    · simp [h]

/-- Ids with their white space trimmed. -/
def normalizedContainers (assignment : TaskContainerAssignment) : TaskContainerAssignment where
  projectId := Mindwtr.normalizeOptionalContainerId assignment.projectId
  sectionId := Mindwtr.normalizeOptionalContainerId assignment.sectionId
  areaId := Mindwtr.normalizeOptionalContainerId assignment.areaId

theorem resolveTaskContainerHierarchy_eq (assignment : TaskContainerAssignment) {owner : Option String}
    (howner : isSet owner = owner.isSome) :
    resolveTaskContainerHierarchy (normalizedContainers assignment) owner =
      Mindwtr.resolveTaskContainerHierarchy (normalizedContainers assignment) owner := by
  have hproject := isSet_normalizeOptionalContainerId assignment.projectId
  have hsection := isSet_normalizeOptionalContainerId assignment.sectionId
  have harea := isSet_normalizeOptionalContainerId assignment.areaId
  unfold resolveTaskContainerHierarchy Mindwtr.resolveTaskContainerHierarchy normalizedContainers
  generalize Mindwtr.normalizeOptionalContainerId assignment.projectId = projectId at *
  generalize Mindwtr.normalizeOptionalContainerId assignment.sectionId = sectionId at *
  generalize Mindwtr.normalizeOptionalContainerId assignment.areaId = areaId at *
  cases projectId <;> cases sectionId <;> cases areaId <;> cases owner <;> simp_all <;> split_ifs <;> simp_all

theorem hierarchy_loose (areaId : Option String) :
    Mindwtr.resolveTaskContainerHierarchy ⟨none, none, areaId⟩ none = ⟨none, none, areaId⟩ := by
  simp [Mindwtr.resolveTaskContainerHierarchy, isSet]

/-- A section is found where its project is live. -/
theorem some_any_eq {owner : String} (allProjects : List Project) :
    (allProjects.any fun project => some project.id == some owner && !truthy project.deletedAt) =
      allProjects.any fun project => project.id == owner && !truthy project.deletedAt := by
  simp

include hdata in
theorem resolveLive_eq (assignment : TaskContainerAssignment) :
    resolveLive (LiveContainers.fromData data reserved) (normalizedContainers assignment) =
      (resolveTaskContainerAssignment assignment data.projects data.sections data.areas).mapError localApiError := by
  unfold resolveTaskContainerAssignment
  rw [validateExistingTaskProjectId_eq, validateExistingTaskAreaId_eq]
  simp only [resolveLive, normalizedContainers, projectIds_contains hdata, areaIds_contains hdata]
  generalize hp : Mindwtr.normalizeOptionalContainerId assignment.projectId = p
  by_cases hproject : (p.any fun id =>
      !data.projects.any fun project => project.id == id && !truthy project.deletedAt) = true
  · rw [if_pos hproject, if_pos hproject]
    rfl
  · rw [if_neg hproject, if_neg hproject]
    cases hs : Mindwtr.normalizeOptionalContainerId assignment.sectionId with
    | none =>
      have hhierarchy := resolveTaskContainerHierarchy_eq assignment (show isSet none = Option.isSome none from rfl)
      simp only [normalizedContainers, hp, hs] at hhierarchy
      simp only [Option.bind_none, hhierarchy, Option.isSome_none, Option.isNone_none, Bool.false_and, Bool.and_false]
      cases p with
      | none =>
        rw [if_neg Bool.false_ne_true, if_neg Bool.false_ne_true, hierarchy_loose]
        by_cases harea : ((Mindwtr.normalizeOptionalContainerId assignment.areaId).any fun id =>
            !data.areas.any fun area => area.id == id && !truthy area.deletedAt) = true
        · simp [harea, Except.mapError, bind, Except.bind, localApiError]
        · simp [harea, Except.mapError, bind, Except.bind, hierarchy_loose]
      | some projectId =>
        have hset := isSet_of_not_blank (normalizeOptionalContainerId_some hp)
        have harea := isSet_normalizeOptionalContainerId assignment.areaId
        simp only [hierarchy_project hset harea, Option.isNone_some, Bool.false_and, Bool.false_eq_true, if_false]
        rw [← hierarchy_project hset harea]
        rfl
    | some id =>
      simp only [Option.bind_some, sectionProjectIds_get? hdata, Option.isSome_some, Bool.true_and]
      cases hfind : data.sections.find? fun sec => sec.id == id && !truthy sec.deletedAt with
      | none => rfl
      | some sec =>
        rw [Option.bind_some]
        cases howner : asStr? sec.projectId with
        | none => simp [Except.mapError, bind, Except.bind, localApiError, howner]
        | some owner =>
          by_cases hlive : (data.projects.any fun project => project.id == owner && !truthy project.deletedAt) = true
          · obtain ⟨project, hmem, hproject⟩ := List.any_eq_true.1 hlive
            obtain ⟨hid, -⟩ := Bool.and_eq_true_iff.1 hproject
            have hne : owner ≠ "" := eq_of_beq hid ▸ (hdata.projectIds project hmem).2
            have hnamed := hdata.named project hmem
            rw [eq_of_beq hid] at hnamed
            have hcomm : (p != some owner) = (some owner != p) := by
              rw [Bool.eq_iff_iff, bne_iff_ne, bne_iff_ne]
              exact ne_comm
            simp only [bind, Except.bind, howner, some_any_eq, hlive, hcomm, Bool.not_true, Bool.false_eq_true,
              if_false, if_true, Option.filter_some, Option.isNone_some, Option.isSome_some, Bool.and_true]
            by_cases hother : (p.isSome && some owner != p) = true
            · simp [hother, Except.mapError, localApiError]
            · have hhierarchy := resolveTaskContainerHierarchy_eq assignment (isSet_of_not_blank hnamed)
              have hsame : p = none ∨ p = some owner := by
                cases p with
                | none => exact .inl rfl
                | some q =>
                  have hq : owner = q := by simpa using hother
                  exact .inr (congrArg some hq.symm)
              simp only [normalizedContainers, hp, hs] at hhierarchy
              rw [hhierarchy, hierarchy_section (normalizeOptionalContainerId_some hs) hnamed hsame
                (isSet_normalizeOptionalContainerId assignment.areaId), if_neg hother, if_neg hother]
              rfl
          · simp [Except.mapError, bind, Except.bind, localApiError, howner, hlive]

end

/-! ### Free orders -/

/-- One task of `getProjectOrderIndex`. -/
def noteOrder (index : JsMap Rat) (task : Task) : JsMap Rat :=
  match if truthy task.deletedAt then none else Import.idOf task.projectId with
  | none => index
  | some projectId =>
    let order := (Import.getTaskOrder task).getD (-1)
    if (index.get? projectId).getD (-1) < order then index.set projectId order else index

theorem getProjectOrderIndex_eq (tasks : List Task) :
    Import.getProjectOrderIndex tasks = tasks.foldl noteOrder .empty := rfl

theorem ofList_zero_get? {ids : List String} {id : String} (hid : id ∈ ids) :
    (JsMap.ofList (ids.map fun projectId => (projectId, (0 : Rat)))).get? id = some 0 := by
  have hrun : ∀ (l : List String) (m : JsMap Rat), id ∈ l ∨ m.get? id = some 0 →
      ((l.map fun projectId => (projectId, (0 : Rat))).foldl (fun m e => m.set e.1 e.2) m).get? id = some 0 := by
    intro l
    induction l with
    | nil =>
      intro m h
      simpa using h
    | cons a l ih =>
      intro m h
      rw [List.map_cons, List.foldl_cons]
      apply ih
      rw [JsMap.get?_set]
      by_cases ha : id = a
      · exact .inr (if_pos ha)
      · rw [if_neg ha]
        simpa [ha] using h
  exact hrun ids .empty (.inl hid)

/-- The next order of a project is one more than the highest order in it. -/
def TracksOrders (projectIds : List String) (orders index : JsMap Rat) : Prop :=
  ∀ id ∈ projectIds, orders.get? id = some ((index.get? id).getD (-1) + 1)

theorem raiseNextOrder_tracks {projectIds : List String} (hplain : "" ∉ projectIds) {task : Task}
    (hlive : isLiveTask task = !truthy task.deletedAt) {orders index : JsMap Rat}
    (h : TracksOrders projectIds orders index) :
    TracksOrders projectIds (raiseNextOrder projectIds orders task) (noteOrder index task) := by
  unfold raiseNextOrder noteOrder
  rw [hlive, Bool.not_not]
  by_cases hdeleted : truthy task.deletedAt = true
  · rw [if_pos hdeleted, if_pos hdeleted]
    exact h
  · rw [if_neg hdeleted, if_neg hdeleted]
    unfold Import.idOf
    cases hid : asStr? task.projectId with
    | none => exact h
    | some projectId =>
      by_cases hmem : projectIds.contains projectId = true
      · have hin := List.contains_iff_mem.1 hmem
        have hne : projectId ≠ "" := fun hempty => hplain (hempty ▸ hin)
        have hfilter : (some projectId).filter (fun id => id != "") = some projectId := by simp [hne]
        have horder : (asNum? task.order).or (asNum? task.orderNum) = Import.getTaskOrder task := rfl
        intro id hid'
        rw [horder]
        simp only [hmem, Bool.not_true, Bool.false_eq_true, if_false, hfilter, JsMap.get?_set, h projectId hin,
          Option.elim_some]
        by_cases hlt : (index.get? projectId).getD (-1) < (Import.getTaskOrder task).getD (-1)
        · have hraised : (index.get? projectId).getD (-1) + 1 < (Import.getTaskOrder task).getD (-1) + 1 := by linarith
          rw [if_pos hlt, if_pos hraised, JsMap.get?_set]
          by_cases hsame : id = projectId
          · rw [if_pos hsame, if_pos hsame, Option.getD_some]
          · rw [if_neg hsame, if_neg hsame, h id hid']
        · have hkept : ¬(index.get? projectId).getD (-1) + 1 < (Import.getTaskOrder task).getD (-1) + 1 := by linarith
          rw [if_neg hlt, if_neg hkept]
          by_cases hsame : id = projectId
          · rw [if_pos hsame, hsame]
          · rw [if_neg hsame, h id hid']
      · simp only [hmem, Bool.not_false, if_true]
        intro id hid'
        have hne : id ≠ projectId := by
          intro hsame
          exact hmem (List.contains_iff_mem.2 (hsame ▸ hid'))
        rw [h id hid']
        split
        · rfl
        · next other hother =>
          obtain rfl : projectId = other := by simpa using (Option.filter_eq_some_iff.1 hother).1
          split_ifs
          · rw [JsMap.get?_set, if_neg hne]
          · rfl

theorem foldl_raiseNextOrder_tracks {projectIds : List String} (hplain : "" ∉ projectIds) {tasks : List Task}
    (hlive : ∀ task ∈ tasks, isLiveTask task = !truthy task.deletedAt) {orders index : JsMap Rat}
    (h : TracksOrders projectIds orders index) :
    TracksOrders projectIds (tasks.foldl (raiseNextOrder projectIds) orders) (tasks.foldl noteOrder index) := by
  induction tasks generalizing orders index with
  | nil => exact h
  | cons task tasks ih =>
    rw [List.foldl_cons, List.foldl_cons]
    apply ih (fun task' hmem => hlive task' (List.mem_cons_of_mem _ hmem))
    exact raiseNextOrder_tracks hplain (hlive task List.mem_cons_self) h

section
variable {data : AppData} {reserved : List (String × Json)} (hdata : SharedContainers data reserved)

include hdata in
theorem empty_notMem_projectIds : "" ∉ (LiveContainers.fromData data reserved).projectIds := by
  intro hmem
  obtain ⟨project, hproject, hid⟩ := List.mem_map.1 hmem
  exact (hdata.projectIds project (List.mem_filter.1 hproject).1).2 hid

include hdata in
theorem nextProjectOrders_eq {id : String} (hid : id ∈ (LiveContainers.fromData data reserved).projectIds) :
    (LiveContainers.fromData data reserved).nextProjectOrders.get? id = createProjectOrderReserver data.tasks id := by
  have hne : id ≠ "" := fun hempty => empty_notMem_projectIds hdata (hempty ▸ hid)
  have hstart : TracksOrders (LiveContainers.fromData data reserved).projectIds
      (JsMap.ofList ((LiveContainers.fromData data reserved).projectIds.map fun projectId => (projectId, (0 : Rat))))
      .empty := by
    intro other hother
    rw [ofList_zero_get? hother]
    simp
  have htasks := foldl_raiseNextOrder_tracks (empty_notMem_projectIds hdata) hdata.liveTasks hstart id hid
  rw [← getProjectOrderIndex_eq] at htasks
  have hcore : createProjectOrderReserver data.tasks id =
      some (((Import.getProjectOrderIndex data.tasks).get? id).getD (-1) + 1) := if_neg hne
  rw [← hcore] at htasks
  have hreserved : ∀ (l : List (String × Json)) (orders : JsMap Rat), (∀ entry ∈ l, ∀ next,
      asNum? (some entry.2) = some next → createProjectOrderReserver data.tasks entry.1 = some next) →
      orders.get? id = createProjectOrderReserver data.tasks id →
      (l.foldl (takeReserved (LiveContainers.fromData data reserved).projectIds) orders).get? id =
        createProjectOrderReserver data.tasks id := by
    intro l
    induction l with
    | nil =>
      intro orders _ h
      exact h
    | cons entry l ih =>
      intro orders hl h
      rw [List.foldl_cons]
      apply ih _ fun e he => hl e (List.mem_cons_of_mem _ he)
      unfold takeReserved
      split
      · exact h
      · next next hnum =>
        split
        · rw [JsMap.get?_set]
          split
          · next hsame =>
            rw [hsame]
            exact (hl entry List.mem_cons_self next hnum).symm
          · exact h
        · exact h
  exact hreserved reserved _ hdata.reserved htasks

end

/-! ### What is resolved -/

theorem resolveTaskContainerHierarchy_projectId {assignment : TaskContainerAssignment} {owner : Option String}
    {projectId : String} (h : assignment.projectId = some projectId) :
    (resolveTaskContainerHierarchy assignment owner).projectId = some projectId := by
  unfold resolveTaskContainerHierarchy
  rw [h]
  cases assignment.sectionId <;> cases owner <;> simp [h] <;> split_ifs <;> simp [h]

theorem resolveLive_projectId {live : LiveContainers} {assignment resolved : TaskContainerAssignment} {projectId : String}
    (h : resolveLive live assignment = .ok resolved) (hid : assignment.projectId = some projectId) :
    resolved.projectId = some projectId := by
  simp only [resolveLive] at h
  split_ifs at h
  obtain rfl := Except.ok.inj h
  exact resolveTaskContainerHierarchy_projectId hid

/-! ### The patch and the move -/

section
variable (task : Task) (patch : ContainerPatch)

/-- The project `buildTaskContainerMovePatch` asks for. -/
def coreNextProjectId : Option Json :=
  patch.updates.projectId.elim task.projectId fun projectId =>
    (Mindwtr.normalizeOptionalContainerId (asStr? projectId)).map .str

def coreProjectChanged : Bool :=
  patch.updates.projectId.isSome && definedId task.projectId != definedId (coreNextProjectId task patch)

def coreContainers : TaskContainerAssignment where
  projectId := asStr? (coreNextProjectId task patch)
  sectionId := asStr? (patch.updates.sectionId.getD (if coreProjectChanged task patch then none else task.sectionId))
  areaId := asStr? (patch.updates.areaId.getD
    (if coreProjectChanged task patch && truthy (coreNextProjectId task patch) then none else task.areaId))

def coreMovePatch (tasks : List Task) (resolved : TaskContainerAssignment) : TaskContainerMovePatch :=
  let resolvedProjectChanged := definedId task.projectId != resolved.projectId.map .str
  if resolvedProjectChanged && !isSet resolved.projectId then { resolved with sectionId := none, order := some none }
  else if resolvedProjectChanged && !patch.namesOrder then
    reserveTaskContainerProjectOrder task resolved (createProjectOrderReserver tasks)
  else { resolved with order := none }

theorem moveInCore_eq (data : AppData) : moveInCore data task patch =
    (resolveTaskContainerAssignment (coreContainers task patch) data.projects data.sections data.areas).map fun resolved =>
      spreadMove task patch.updates (coreMovePatch task patch data.tasks resolved) := by
  have hbuild : buildTaskContainerMovePatch task patch.updates data.projects data.sections data.areas true
      (some (createProjectOrderReserver data.tasks)) =
      (resolveTaskContainerAssignment (coreContainers task patch) data.projects data.sections data.areas).map
        (coreMovePatch task patch data.tasks) := by
    unfold buildTaskContainerMovePatch
    show (resolveTaskContainerAssignment (coreContainers task patch) data.projects data.sections data.areas >>= _) = _
    cases resolveTaskContainerAssignment (coreContainers task patch) data.projects data.sections data.areas with
    | error e => rfl
    | ok resolved =>
      simp only [Except.map, bind, Except.bind, coreMovePatch, Option.elim_some, Bool.and_true]
      have horder : (patch.updates.order.isNone && patch.updates.orderNum.isNone) = !patch.namesOrder := by
        simp only [ContainerPatch.updates, ContainerPatch.namesOrder]
        cases patch.order <;> cases patch.orderNum <;> rfl
      rw [Bool.and_assoc, horder]
      split_ifs <;> rfl
  rw [moveInCore, hbuild]
  cases resolveTaskContainerAssignment (coreContainers task patch) data.projects data.sections data.areas <;> rfl

/-- What the native patch writes for the containers it has resolved. -/
def localPatch (live : LiveContainers) (resolved : TaskContainerAssignment) : ContainerPatch :=
  let patch' : ContainerPatch := { patch with
    projectId := setPatchValue resolved.projectId
    sectionId := setPatchValue resolved.sectionId
    areaId := setPatchValue resolved.areaId }
  if projectChanged task patch && resolved.projectId.isNone then
    { patch' with order := some .null, orderNum := some .null }
  else if projectChanged task patch && !patch.namesOrder then
    match resolved.projectId.bind live.nextProjectOrders.get? with
    | none => patch'
    | some order => { patch' with order := some (.num order), orderNum := some (.num order) }
  else patch'

theorem moveThroughLocalApi_eq (data : AppData) (reserved : List (String × Json)) (hnames : patch.namesContainer = true) :
    moveThroughLocalApi data reserved task patch =
      (resolveLive (LiveContainers.fromData data reserved) (requestedContainers task patch)).map fun resolved =>
        applyContainerPatch task (localPatch task patch (LiveContainers.fromData data reserved) resolved) := by
  unfold moveThroughLocalApi normalizeTaskContainerPatch
  rw [hnames, Bool.not_true, if_neg Bool.false_ne_true]
  cases resolveLive (LiveContainers.fromData data reserved) (requestedContainers task patch) <;> rfl

end

section
variable {task : Task} {patch : ContainerPatch} (hmove : PlainMove task patch)

theorem definedId_map_str (value : Option String) : definedId (value.map .str) = value.map .str := by
  cases value <;> rfl

theorem asStr?_map_str (value : Option String) : asStr? (value.map .str) = value := by
  cases value <;> rfl

include hmove in
theorem coreNextProjectId_normalized :
    Mindwtr.normalizeOptionalContainerId (asStr? (coreNextProjectId task patch)) = requestedProjectId task patch := by
  unfold requestedProjectId coreNextProjectId ContainerPatch.updates
  cases hid : patch.projectId with
  | none => exact (normalizeOptionalContainerId_eq hmove.taskIds.1).symm
  | some value =>
    have htrims := hid ▸ hmove.patchIds.1
    simp only [Option.map_some, Option.elim_some, asStr?_map_str, Option.isSome_some, if_true]
    rw [normalizeOptionalContainerId_idem, normalizeOptionalContainerId_eq htrims]

theorem bne_map_str (a b : Option String) : (a.map Json.str != b.map Json.str) = (a != b) := by
  rw [Bool.eq_iff_iff, bne_iff_ne, bne_iff_ne, ne_eq, ne_eq, not_iff_not]
  exact ⟨fun h => Option.map_injective (fun _ _ => Json.str.inj) h, fun h => congrArg _ h⟩

include hmove in
theorem coreProjectChanged_eq : coreProjectChanged task patch = (patch.projectId.isSome && projectChanged task patch) := by
  have hrequested := coreNextProjectId_normalized hmove
  unfold coreProjectChanged projectChanged
  cases hid : patch.projectId with
  | none => simp [ContainerPatch.updates, hid]
  | some value =>
    have hnext : coreNextProjectId task patch = (Mindwtr.normalizeOptionalContainerId (asStr? (some value))).map .str := by
      simp only [coreNextProjectId, ContainerPatch.updates, hid, Option.map_some, Option.elim_some]
    rw [hnext, asStr?_map_str, normalizeOptionalContainerId_idem] at hrequested
    simp only [ContainerPatch.updates, hid, Option.map_some, Option.isSome_some, Bool.true_and]
    rw [hnext, definedId_map_str, hrequested, hmove.held, bne_map_str, normalizeOptionalContainerId_eq hmove.taskIds.1]

include hmove in
theorem truthy_coreNextProjectId (hnamed : patch.projectId.isSome = true) :
    truthy (coreNextProjectId task patch) = (requestedProjectId task patch).isSome := by
  have hrequested := coreNextProjectId_normalized hmove
  obtain ⟨value, hid⟩ := Option.isSome_iff_exists.1 hnamed
  have hnext : coreNextProjectId task patch = (Mindwtr.normalizeOptionalContainerId (asStr? (some value))).map .str := by
    simp only [coreNextProjectId, ContainerPatch.updates, hid, Option.map_some, Option.elim_some]
  rw [hnext, asStr?_map_str, normalizeOptionalContainerId_idem] at hrequested
  rw [hnext, hrequested]
  cases hq : requestedProjectId task patch with
  | none => rfl
  | some id =>
    have hne := ne_empty_of_normalized (hrequested.trans hq)
    simp [Json.truthy, hne]

include hmove in
/-- Both ask for the same containers, up to white space. -/
theorem requestedContainers_eq : requestedContainers task patch = normalizedContainers (coreContainers task patch) := by
  have hproject := coreNextProjectId_normalized hmove
  have hchanged := coreProjectChanged_eq hmove
  have hsection : (requestedContainers task patch).sectionId =
      Mindwtr.normalizeOptionalContainerId (coreContainers task patch).sectionId := by
    simp only [requestedContainers, coreContainers, hchanged, ContainerPatch.updates]
    cases hid : patch.sectionId with
    | none =>
      simp only [Option.isSome_none, Bool.false_eq_true, if_false, Option.map_none, Option.getD_none]
      split_ifs
      · rfl
      · exact normalizeOptionalContainerId_eq hmove.taskIds.2.1
    | some value => exact normalizeOptionalContainerId_eq (hid ▸ hmove.patchIds.2.1)
  have harea : (requestedContainers task patch).areaId =
      Mindwtr.normalizeOptionalContainerId (coreContainers task patch).areaId := by
    simp only [requestedContainers, coreContainers, hchanged]
    cases hid : patch.areaId with
    | none =>
      simp only [ContainerPatch.updates, hid, Option.isSome_none, Bool.false_eq_true, if_false, Option.map_none,
        Option.getD_none]
      cases hnamed : patch.projectId.isSome with
      | false =>
        simp only [Bool.false_and, Bool.false_eq_true, if_false]
        exact normalizeOptionalContainerId_eq hmove.taskIds.2.2
      | true =>
        rw [truthy_coreNextProjectId hmove hnamed]
        split_ifs
        · rfl
        · exact normalizeOptionalContainerId_eq hmove.taskIds.2.2
    | some value =>
      simp only [ContainerPatch.updates, hid]
      exact normalizeOptionalContainerId_eq (hid ▸ hmove.patchIds.2.2)
  have hrequested : (requestedContainers task patch).projectId =
      Mindwtr.normalizeOptionalContainerId (coreContainers task patch).projectId := hproject.symm
  show TaskContainerAssignment.mk (requestedContainers task patch).projectId (requestedContainers task patch).sectionId
    (requestedContainers task patch).areaId = normalizedContainers (coreContainers task patch)
  rw [hrequested, hsection, harea]
  rfl

end

/-! ### What the task holds afterwards -/

/-- The containers of a task, with nothing told from `null`. -/
def containersOf (task : Task) : List (Option Json) :=
  [task.projectId, task.sectionId, task.areaId].map definedId

def ordersOf (task : Task) : List (Option Json) := [task.order, task.orderNum].map definedId

/-- The patch says where the task goes in the order, or it asks for the project the task comes to, or it takes the task
from one project into another one. -/
def PlacesTask (task : Task) (patch : ContainerPatch) (projectId : Option Json) : Prop :=
  patch.namesOrder = true ∨ (requestedProjectId task patch).map .str = projectId ∨
    (definedId task.projectId ≠ none ∧ definedId task.projectId ≠ projectId)

section
variable {data : AppData} {reserved : List (String × Json)} (hdata : SharedContainers data reserved)
  {task : Task} {patch : ContainerPatch} (hmove : PlainMove task patch) {resolved : TaskContainerAssignment}

theorem patched_setPatchValue (old : Option Json) (value : Option String) :
    patched old (setPatchValue value) = value.map .str := by
  cases value <;> rfl

theorem definedId_patched (old update : Option Json) :
    definedId (patched old update) = definedId ((update.map some).getD old) := by
  match update with
  | none => rfl
  | some .null => rfl
  | some (.bool _) => rfl
  | some (.num _) => rfl
  | some (.str _) => rfl
  | some (.arr _) => rfl
  | some (.obj _) => rfl

theorem localPatch_containers (live : LiveContainers) :
    containersOf (applyContainerPatch task (localPatch task patch live resolved)) =
      [resolved.projectId, resolved.sectionId, resolved.areaId].map (Option.map .str) := by
  have hfields : (localPatch task patch live resolved).projectId = setPatchValue resolved.projectId ∧
      (localPatch task patch live resolved).sectionId = setPatchValue resolved.sectionId ∧
      (localPatch task patch live resolved).areaId = setPatchValue resolved.areaId := by
    unfold localPatch
    split_ifs
    · exact ⟨rfl, rfl, rfl⟩
    · split <;> exact ⟨rfl, rfl, rfl⟩
    · exact ⟨rfl, rfl, rfl⟩
  simp only [containersOf, applyContainerPatch, hfields.1, hfields.2.1, hfields.2.2, patched_setPatchValue, List.map_cons,
    definedId_map_str, List.map_nil]

theorem coreMovePatch_assignment (tasks : List Task) (hsound : SoundContainers data resolved) :
    (coreMovePatch task patch tasks resolved).toTaskContainerAssignment = resolved := by
  simp only [coreMovePatch]
  split_ifs with hout
  · have hnone : isSet resolved.projectId = false := by simpa using (Bool.and_eq_true_iff.1 hout).2
    have hsection : resolved.sectionId = none := by
      cases hid : resolved.sectionId with
      | none => rfl
      | some id =>
        obtain ⟨-, sec, -, -, -, owner, howner, -⟩ := hsound.sectionId id hid
        rw [howner, isSet_of_not_blank (hsound.projectId owner howner).1] at hnone
        cases hnone
    show TaskContainerAssignment.mk resolved.projectId none resolved.areaId = resolved
    rw [← hsection]
  · exact reserveTaskContainerProjectOrder_containers task resolved _
  · rfl

theorem coreMovePatch_containers (tasks : List Task) (hsound : SoundContainers data resolved) :
    containersOf (spreadMove task patch.updates (coreMovePatch task patch tasks resolved)) =
      [resolved.projectId, resolved.sectionId, resolved.areaId].map (Option.map .str) := by
  simp only [containersOf, spreadMove, withMovePatch, withContainers, coreMovePatch_assignment tasks hsound, List.map_cons,
    definedId_map_str, List.map_nil]

/-- Without an order from the move, both leave what the patch says or the task has. -/
theorem ordersOf_kept {update : ContainerPatch} {move : TaskContainerMovePatch} (hupdate : update.order = patch.order ∧
    update.orderNum = patch.orderNum) (hmoved : move.order = none) :
    ordersOf (applyContainerPatch task update) = ordersOf (spreadMove task patch.updates move) := by
  simp only [ordersOf, applyContainerPatch, spreadMove, withMovePatch, hmoved, hupdate.1, hupdate.2, Option.elim_none,
    List.map_cons, List.map_nil, definedId_patched, ContainerPatch.updates]

include hdata hmove in
theorem orders_agree (hsound : SoundContainers data resolved)
    (hkeeps : ∀ id, requestedProjectId task patch = some id → resolved.projectId = some id)
    (hplaces : PlacesTask task patch (resolved.projectId.map .str)) :
    ordersOf (applyContainerPatch task (localPatch task patch (LiveContainers.fromData data reserved) resolved)) =
      ordersOf (spreadMove task patch.updates (coreMovePatch task patch data.tasks resolved)) := by
  have hcurrent : definedId task.projectId = (normalizeOptionalContainerId task.projectId).map .str := by
    rw [normalizeOptionalContainerId_eq hmove.taskIds.1]
    exact hmove.held
  have hchanged : (definedId task.projectId != resolved.projectId.map .str) =
      (normalizeOptionalContainerId task.projectId != resolved.projectId) := by
    rw [hcurrent, bne_map_str]
  have hset : isSet resolved.projectId = resolved.projectId.isSome := by
    cases hid : resolved.projectId with
    | none => rfl
    | some id => exact isSet_of_not_blank (hsound.projectId id hid).1
  simp only [localPatch, coreMovePatch, hchanged, hset]
  cases hid : resolved.projectId with
  | none =>
    have hrequested : requestedProjectId task patch = none := by
      cases hq : requestedProjectId task patch with
      | none => rfl
      | some id => exact absurd (hid.symm.trans (hkeeps id hq)) (by simp)
    have hsame : projectChanged task patch = (normalizeOptionalContainerId task.projectId != none) := by
      rw [projectChanged, hrequested]
    simp only [hsame, Option.isNone_none, Bool.and_true, Option.isSome_none, Bool.not_false]
    cases normalizeOptionalContainerId task.projectId != none with
    | true => rfl
    | false => exact ordersOf_kept ⟨rfl, rfl⟩ rfl
  | some projectId =>
    obtain ⟨hnamed, project, hmem, hprojectId, hlive⟩ := hsound.projectId projectId hid
    have hcontains : (LiveContainers.fromData data reserved).projectIds.contains projectId = true := by
      rw [projectIds_contains hdata, List.any_eq_true]
      exact ⟨project, hmem, by simp [hprojectId, hlive]⟩
    have horder := nextProjectOrders_eq hdata (List.contains_iff_mem.1 hcontains)
    have hplain : Mindwtr.normalizeOptionalContainerId (some projectId) = some projectId :=
      normalizeOptionalContainerId_plain (hprojectId ▸ hdata.projectIds project hmem)
    have hne : projectId ≠ "" := ne_empty_of_normalized hplain
    simp only [Option.isNone_some, Bool.and_false, Bool.false_eq_true, if_false, Option.isSome_some, Bool.not_true,
      Option.bind_some]
    cases hnames : patch.namesOrder with
    | true =>
      simp only [Bool.not_true, Bool.and_false, Bool.false_eq_true, if_false]
      exact ordersOf_kept ⟨rfl, rfl⟩ rfl
    | false =>
      have hflag : projectChanged task patch = (normalizeOptionalContainerId task.projectId != some projectId) := by
        rcases hplaces with hbad | hasked | ⟨hheld, hother⟩
        · rw [hnames] at hbad
          cases hbad
        · have hasked : requestedProjectId task patch = some projectId :=
            Option.map_injective (fun _ _ => Json.str.inj) (hasked.trans (congrArg _ hid))
          rw [projectChanged, hasked]
        · rw [hid, hcurrent] at hother
          rw [hcurrent] at hheld
          have hleft : normalizeOptionalContainerId task.projectId ≠ some projectId := fun h => hother (congrArg _ h)
          have hcurrentSome : normalizeOptionalContainerId task.projectId ≠ none := fun h => hheld (congrArg _ h)
          have hleaves : normalizeOptionalContainerId task.projectId ≠ requestedProjectId task patch := by
            cases hq : requestedProjectId task patch with
            | none => exact hcurrentSome
            | some id => exact (hid.symm.trans (hkeeps id hq)) ▸ hleft
          rw [projectChanged, bne_iff_ne.2 hleaves, bne_iff_ne.2 hleft]
      rw [hflag]
      cases hchange : normalizeOptionalContainerId task.projectId != some projectId with
      | false =>
        simp only [Bool.false_and, Bool.false_eq_true, if_false]
        exact ordersOf_kept ⟨rfl, rfl⟩ rfl
      | true =>
        have hnot : definedId task.projectId ≠ some (.str projectId) := by
          rw [hcurrent]
          intro h
          exact (bne_iff_ne.1 hchange) (Option.map_injective (fun _ _ => Json.str.inj) (h.trans rfl))
        have hreserved : createProjectOrderReserver data.tasks projectId =
            some (((Import.getProjectOrderIndex data.tasks).get? projectId).getD (-1) + 1) := if_neg hne
        simp only [Bool.not_false, Bool.and_true, if_true, reserveTaskContainerProjectOrder, hid, hplain, if_neg hnot,
          horder, hreserved]
        rfl

include hdata hmove in
/-- A patch that names a container is accepted by both or by neither, and both leave the task in the same containers;
where more than a section decides about the project they leave it in the same place of its order. -/
theorem container_moves_agree (hnames : patch.namesContainer = true) :
    (moveThroughLocalApi data reserved task patch).isOk = (moveInCore data task patch).isOk ∧
      ∀ moved moved', moveThroughLocalApi data reserved task patch = .ok moved →
        moveInCore data task patch = .ok moved' →
          containersOf moved = containersOf moved' ∧
            (PlacesTask task patch moved'.projectId → ordersOf moved = ordersOf moved') := by
  have hlocal := resolveLive_eq hdata (coreContainers task patch)
  rw [← requestedContainers_eq hmove] at hlocal
  rw [moveThroughLocalApi_eq task patch data reserved hnames, moveInCore_eq, hlocal]
  cases hresolve : resolveTaskContainerAssignment (coreContainers task patch) data.projects data.sections data.areas with
  | error e =>
    refine ⟨rfl, ?_⟩
    intro moved moved' h
    cases h
  | ok resolved =>
    refine ⟨rfl, ?_⟩
    intro moved moved' hmoved hmoved'
    obtain rfl := Except.ok.inj hmoved
    obtain rfl := Except.ok.inj hmoved'
    have hsound := resolveTaskContainerAssignment_sound hdata.toIdentified hresolve
    rw [hresolve] at hlocal
    have hkeeps : ∀ id, requestedProjectId task patch = some id → resolved.projectId = some id :=
      fun id hid => resolveLive_projectId hlocal hid
    have hproject : (spreadMove task patch.updates (coreMovePatch task patch data.tasks resolved)).projectId =
        resolved.projectId.map .str := by
      simp only [spreadMove, withMovePatch, withContainers, coreMovePatch_assignment data.tasks hsound]
    rw [hproject]
    refine ⟨?_, orders_agree hdata hmove hsound hkeeps⟩
    rw [localPatch_containers, coreMovePatch_containers data.tasks hsound]

end

/-! ### Where the two are not the same -/

/-- A purged project without a tombstone, and one whose section `s1` is. -/
def mixedData : AppData :=
  containersOnly [{ id := "p1" }, { id := "p2", purgedAt := some (.str "2026-01-01T00:00:00.000Z") }]
    [{ id := "s1", projectId := some (.str "p1") }] []

/-- A patch without containers is not checked, a purged project is gone, and an id is compared as it is stored in the
core and trimmed, by Unicode's white space, in the local API. -/
theorem mixedData_moves :
    ((moveThroughLocalApi mixedData [] { id := "t1", projectId := some (.str "p0") } { order := some (.num 1) }).isOk =
        true ∧
      (moveInCore mixedData { id := "t1", projectId := some (.str "p0") } { order := some (.num 1) }).isOk = false) ∧
    ((moveThroughLocalApi mixedData [] { id := "t1" } { projectId := some (.str "p2") }).isOk = false ∧
      (moveInCore mixedData { id := "t1" } { projectId := some (.str "p2") }).isOk = true) ∧
    ((moveThroughLocalApi mixedData [] { id := "t1", projectId := some (.str " p1"), sectionId := some (.str "s1") }
        { projectId := some (.str "p1") }).toOption.map containersOf =
          some [some (.str "p1"), some (.str "s1"), none] ∧
      (moveInCore mixedData { id := "t1", projectId := some (.str " p1"), sectionId := some (.str "s1") }
        { projectId := some (.str "p1") }).toOption.map containersOf = some [some (.str "p1"), none, none]) ∧
    ((moveThroughLocalApi mixedData [] { id := "t1" } { projectId := some (.str "p1\u0085") }).isOk = true ∧
      (moveInCore mixedData { id := "t1" } { projectId := some (.str "p1\u0085") }).isOk = false) := by
  refine ⟨⟨?_, ?_⟩, ⟨?_, ?_⟩, ⟨?_, ?_⟩, ?_, ?_⟩ <;> decide +kernel

def movedTask : Task :=
  { id := "t1", projectId := some (.str "p0"), order := some (.num 3), orderNum := some (.num 3) }

def moveData : AppData :=
  { containersOnly [{ id := "p0" }, { id := "p1" }] [{ id := "s1", projectId := some (.str "p1") }] [] with
    tasks := [movedTask, { id := "t2", projectId := some (.str "p1"), order := some (.num 5) }] }

theorem moveData_shared : SharedContainers moveData [] where
  projects := by decide
  sections := by decide
  areas := by decide
  named := by decide +kernel
  liveProjects := by decide +kernel
  liveSections := by decide +kernel
  liveAreas := by decide +kernel
  liveTasks := by decide +kernel
  projectIds := by decide +kernel
  reserved := by simp

/-- A task goes to the end of the project its new section lives in. -/
theorem movedTask_moves :
    (moveThroughLocalApi moveData [] movedTask { projectId := some (.str "p1"), sectionId := some (.str "s1") }).isOk =
        (moveInCore moveData movedTask { projectId := some (.str "p1"), sectionId := some (.str "s1") }).isOk ∧
      ∀ moved moved', moveThroughLocalApi moveData [] movedTask
          { projectId := some (.str "p1"), sectionId := some (.str "s1") } = .ok moved →
        moveInCore moveData movedTask { projectId := some (.str "p1"), sectionId := some (.str "s1") } = .ok moved' →
          containersOf moved = containersOf moved' ∧
            (PlacesTask movedTask { projectId := some (.str "p1"), sectionId := some (.str "s1") } moved'.projectId →
              ordersOf moved = ordersOf moved') := by
  apply container_moves_agree moveData_shared _ rfl
  constructor
  · decide +kernel
  · refine ⟨?_, ?_, ?_⟩
    · intro id hid
      obtain rfl : "p0" = id := by simpa [movedTask] using hid
      decide +kernel
    · intro id hid
      simp [movedTask] at hid
    · intro id hid
      simp [movedTask] at hid
  · refine ⟨?_, ?_, ?_⟩
    · intro id hid
      obtain rfl : "p1" = id := by simpa using hid
      decide +kernel
    · intro id hid
      obtain rfl : "s1" = id := by simpa using hid
      decide +kernel
    · intro id hid
      simp at hid

end Mindwtr.Desktop
