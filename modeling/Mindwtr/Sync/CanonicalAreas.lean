import Mindwtr.Store.OrderingActions
import Mindwtr.Sync.RepairAgain

/-!
# Canonical areas

What `dedupeLiveAreasByName` and the repair of references come to (`canonical_areas`): one live area for a name, the
same one whatever the order of the list, everything that referred to a merged area moved over to its survivor, and
nothing left for a second repair. A task that stands in a project has no area and gets none.
-/

namespace Mindwtr.Sync

open Mindwtr.Js Mindwtr.Store

section
variable [Runtime]

/-- The first area was merged into the second one. -/
def MergedInto (areas : List Area) (area canonical : Area) : Prop :=
  area ∈ areas ∧ canonicalArea (areasByName areas) area = some canonical

structure CanonicalAreas (data : AppData) (nowIso : String) : Prop where
  unique : ∀ a ∈ (repairMergedSyncReferences data nowIso).areas, ∀ b ∈ (repairMergedSyncReferences data nowIso).areas,
    ∀ nameKey, HoldsName nameKey a → HoldsName nameKey b → a = b
  anyOrder : ∀ areas' : List Area, areas'.Perm data.areas →
    (repairMergedSyncReferences { data with areas := areas' } nowIso).areas.Perm
      (repairMergedSyncReferences data nowIso).areas
  survivor : ∀ area canonical, MergedInto data.areas area canonical →
    canonical ∈ (repairMergedSyncReferences data nowIso).areas ∧ HoldsName (normalizeAreaNameKey area.name) canonical
  project : ∀ area canonical, MergedInto data.areas area canonical → ∀ project ∈ data.projects,
    project.areaId = some (.str area.id) →
      (repairProject (repairIndex data nowIso).areaIdRemap (repairIndex data nowIso).liveAreas nowIso project).areaId =
        some (.str canonical.id)
  task : ∀ area canonical, MergedInto data.areas area canonical → ∀ task ∈ data.tasks,
    task.areaId = some (.str area.id) →
      (repairTask (repairIndex data nowIso) nowIso task).areaId = some (.str canonical.id) ∨
        (repairTask (repairIndex data nowIso) nowIso task).areaId = none ∧
          ∃ projectId, (repairIndex data nowIso).liveProjectIds.contains projectId = true ∧
            (repairTask (repairIndex data nowIso) nowIso task).projectId = some (.str projectId)
  again : ∀ nowIso', repairMergedSyncReferences (repairMergedSyncReferences data nowIso) nowIso' =
    { repairMergedSyncReferences data nowIso with
      sections := (repairMergedSyncReferences (repairMergedSyncReferences data nowIso) nowIso').sections }

variable {data : AppData} {nowIso : String} {area canonical : Area}

theorem MergedInto.holds (h : MergedInto data.areas area canonical) :
    canonical ∈ data.areas ∧ HoldsName (normalizeAreaNameKey area.name) canonical ∧ canonical.id ≠ area.id ∧
      canonicalArea (areasByName data.areas) canonical = none := by
  obtain ⟨hmem, hlive, hnone⟩ := canonicalArea_some h.2
  obtain ⟨⟨-, hnamed⟩, hget, hother⟩ := canonicalArea_eq_some h.2
  exact ⟨hmem, ⟨hlive, (areasByName_holds _ hget).2.2, hnamed⟩, hother, hnone⟩

section
variable (hdata : Identified data) (hareas : ∀ area ∈ data.areas, isBlank area.id = false)
  (h : MergedInto data.areas area canonical)

include h in
theorem MergedInto.survives : canonical ∈ (repairMergedSyncReferences data nowIso).areas := by
  obtain ⟨hmem, -, -, hnone⟩ := h.holds
  refine List.mem_map.2 ⟨canonical, hmem, ?_⟩
  rw [dedupeArea, hnone]
  rfl

include hdata h in
theorem MergedInto.remapped : (repairIndex data nowIso).areaIdRemap.get? area.id = some canonical.id := by
  rw [areaIdRemap_get? hdata nowIso h.1, h.2]
  rfl

include hdata hareas h in
theorem MergedInto.project {project : Project} (hproject : project.areaId = some (.str area.id)) :
    (repairProject (repairIndex data nowIso).areaIdRemap (repairIndex data nowIso).liveAreas nowIso project).areaId =
      some (.str canonical.id) := by
  obtain ⟨hmem, ⟨hlive, -, -⟩, -, hnone⟩ := h.holds
  have hread : nonBlank project.areaId = some area.id := by
    rw [hproject]
    simp [nonBlank, hareas area h.1]
  have hset := isSet_of_not_blank (hareas canonical hmem)
  obtain ⟨found, hfound⟩ := Option.isSome_iff_exists.1 (liveAreas_get? hdata nowIso hmem hlive hnone).1
  simp only [repairProject, hread, Option.bind_some, h.remapped hdata, Option.some_or, hset, Bool.not_true,
    Bool.false_eq_true, if_false, hfound, Option.map_some]
  split_ifs with hsame
  · exact hsame.1.symm
  · rfl

include hdata hareas h in
theorem MergedInto.task {task : Task} (htask : task.areaId = some (.str area.id)) :
    (repairTask (repairIndex data nowIso) nowIso task).areaId = some (.str canonical.id) ∨
      (repairTask (repairIndex data nowIso) nowIso task).areaId = none ∧
        ∃ projectId, (repairIndex data nowIso).liveProjectIds.contains projectId = true ∧
          (repairTask (repairIndex data nowIso) nowIso task).projectId = some (.str projectId) := by
  obtain ⟨hmem, ⟨hlive, -, -⟩, hne, hnone⟩ := h.holds
  have hread : nonBlank task.areaId = some area.id := by
    rw [htask]
    simp [nonBlank, hareas area h.1]
  have hremapped : ((nonBlank task.areaId).map fun areaId =>
      ((repairIndex data nowIso).areaIdRemap.get? areaId).getD areaId) = some canonical.id := by
    rw [hread, Option.map_some, h.remapped hdata, Option.getD_some]
  obtain ⟨hfound, hnot⟩ := liveAreas_get? hdata nowIso hmem hlive hnone
  rcases repairTask_result (repairIndex_settled hdata hareas) nowIso task with ⟨hsame, -⟩ | ⟨c, hin, hc, hkeeps⟩
  · rw [hremapped, hread] at hsame
    exact absurd (Option.some.inj hsame) hne
  · rcases hkeeps canonical.id hremapped hnot hfound with hareaId | hsome
    · refine .inl ?_
      rw [hin.areaId, hareaId]
      rfl
    · obtain ⟨projectId, hprojectId⟩ := Option.isSome_iff_exists.1 hsome
      have hareaId : c.areaId = none := by
        cases hid : c.areaId with
        | none => rfl
        | some id =>
          have hloose := (hc.areaId id hid).2.1
          rw [hprojectId] at hloose
          cases hloose
      refine .inr ⟨?_, projectId, hc.projectId projectId hprojectId, ?_⟩
      · rw [hin.areaId, hareaId]
        rfl
      · rw [hin.projectId, hprojectId]
        rfl

end

end

/-! ### Examples -/

/-- Two live areas of one name, a project and a task of the later one. -/
def homeData : AppData :=
  { twinAreas with
    projects := [{ id := "p1", areaId := some (.str "a2") }]
    tasks := [{ id := "t1", areaId := some (.str "a2") }] }

/-- The collator of a text in which a letter and its accent are one character. -/
def composeAccent : List Char → List Char
  | 'e' :: '\u0301' :: rest => 'é' :: composeAccent rest
  | c :: rest => c :: composeAccent rest
  | [] => []

def composedText (s : String) : String := String.ofList (composeAccent s.toList)

/-- Canonically equivalent texts compare as equal. -/
@[reducible] def accentRuntime : Runtime :=
  { isoRuntime with localeCompare := fun a b => isoRuntime.localeCompare (composedText a) (composedText b) }

/-- Two areas of one name and one creation time whose ids are canonically equivalent. -/
def accentArea (id : String) : Area :=
  { id, name := some (.str "Home"), createdAt := some (.str "2026-01-01T00:00:00.000Z") }

def purgedProject : Project :=
  { id := "p1", deletedAt := some (.str "2026-01-01T00:00:00.000Z"), purgedAt := some (.str "2026-01-01T00:00:00.000Z") }

end Mindwtr.Sync
