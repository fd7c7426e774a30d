import Mindwtr.Store.ProjectLifecycle

/-!
# An archived project comes back as it was

A project is archived or cancelled, the user edits some of its children, and the project is taken up again
(`lifecycle_round_trip`). A child nobody touched comes back with its status, its completion and its focus, a child
the user edited stays as it was edited, and a task the operation did not concern never changes.

The marker is a child's own: a task that an earlier archive of the project completed, and that nobody has touched
since, is given back as well, although it was finished when the project was archived again
(`earlier_archive_reopened`).
-/

namespace Mindwtr.Store

open Mindwtr.Js Mindwtr.Sync

/-! ### Edits between the two transitions -/

/-- The last step of `normalizeTaskUpdate`: a direct edit of a marked task clears the marker. -/
def breakArchiveMarker (task changed : Task) : Task :=
  if truthy task.projectArchivedAt then clearTaskArchiveMarker changed else changed

/-- An update may change any field but the marker, which no patch of a task names. The writers that do not pass
through `normalizeTaskUpdate`, as those of a deletion, keep the marker or clear it, and stamp the time of the edit. -/
inductive UserEdit (task : Task) : Task → Prop where
  | update (changed : Task) (hmarker : changed.projectArchivedAt = task.projectArchivedAt) :
      UserEdit task (breakArchiveMarker task changed)
  | stamp (changed : Task) (editedAt : String)
      (hmarker : changed.projectArchivedAt = task.projectArchivedAt ∨ changed.projectArchivedAt = none)
      (htime : changed.updatedAt = some (.str editedAt)) (hlater : task.projectArchivedAt ≠ some (.str editedAt)) :
      UserEdit task changed

/-- The writers of sections stamp the time of the edit. -/
inductive SectionEdit (sec : Section) : Section → Prop where
  | stamp (changed : Section) (editedAt : String) (hmarker : changed.projectArchivedAt = sec.projectArchivedAt)
      (htime : changed.updatedAt = some (.str editedAt)) (hlater : sec.projectArchivedAt ≠ some (.str editedAt)) :
      SectionEdit sec changed

/-! ### What comes back -/

/-- The task the project operation took, with what the second transition stamps. -/
def restoredTask (task : Task) (restoredAt : String) (deviceId : Option String) : Task :=
  { clearTaskArchiveMarker task with
    completedAt := coalesce task.completedAt none
    cancelledAt := none
    isFocusedToday := coalesce task.isFocusedToday (some (.bool false))
    focusOrder := none
    updatedAt := some (.str restoredAt)
    rev := some (.num (nextRevision (some (.num (nextRevision task.rev)))))
    revBy := deviceId.map .str }

def restoredSection (sec : Section) (restoredAt : String) (deviceId : Option String) : Section :=
  { sec with
    deletedAt := none
    deletedAtBeforeProjectArchive := none
    projectArchivedAt := none
    updatedAt := some (.str restoredAt)
    rev := some (.num (nextRevision (some (.num (nextRevision sec.rev)))))
    revBy := deviceId.map .str }

/-- A live, unfinished child that is not a reference. Every status is a nonempty text. -/
structure OpenChild (project : Project) (task : Task) : Prop where
  owned : ownedBy project task.projectId = true
  live : truthy task.deletedAt = false
  hasStatus : truthy task.status = true
  unfinished : isTaskFinished task.status = false
  notReference : task.status ≠ some (.str "reference")

/-- A live section of the project. -/
structure OpenSection (project : Project) (sec : Section) : Prop where
  owned : ownedBy project sec.projectId = true
  live : isNullish sec.deletedAt = true

structure SectionRoundTrip (project : Project) (restoredAt : String) (deviceId : Option String)
    (sec archived edited final : Section) : Prop where
  restored : OpenSection project sec → edited = archived →
    isNullish final.deletedAt = true ∧ (final = restoredSection sec restoredAt deviceId ∨ final = sec)
  edited : SectionEdit archived edited → final = edited

theorem truthy_coalesce_false (flag : Option Json) :
    truthy (coalesce flag (some (.bool false))) = truthy flag := by
  by_cases hnull : isNullish flag = true
  · rw [coalesce, if_pos hnull, truthy_of_isNullish hnull]
    rfl
  · rw [coalesce, if_neg hnull]

variable {project normalized archived : Project} {now restoredAt : String} {deviceId restoredBy : Option String}

section
variable [Runtime]

/-- A task neither transition concerns. -/
def Unconcerned (project : Project) (task : Task) : Prop :=
  ownedBy project task.projectId = false ∨ truthy task.deletedAt = true ∨ task.status = some (.str "reference") ∨
    (isTaskFinished task.status = true ∧ shouldRestore task = false)

/-- The four versions of a task: before, archived, as the user left it, and at the end. -/
structure TaskRoundTrip (project : Project) (restoredAt : String) (deviceId : Option String)
    (task archived edited final : Task) : Prop where
  restored : OpenChild project task → edited = archived → final = restoredTask task restoredAt deviceId
  previous : OpenChild project task → edited = archived → normalizeTaskLifecycleFields task = task →
    final.status = task.status ∧ final.completedAt = task.completedAt ∧ final.cancelledAt = task.cancelledAt ∧
      truthy final.isFocusedToday = truthy task.isFocusedToday
  unconcerned : Unconcerned project task → edited = archived → final = task
  edited : UserEdit archived edited → final = edited

/-! ### Tasks -/

theorem shouldRestore_completed {task : Task} (hchild : OpenChild project task) (hnow : now ≠ "") :
    shouldRestore (completeTaskForProjectArchive task now deviceId) = true := by
  simp [shouldRestore, wasCompletedByProject, completeTaskForProjectArchive, hchild.live, hchild.hasStatus,
    hchild.unfinished, hnow]

theorem shouldRestore_cancelled {task : Task} (hchild : OpenChild project task) (hnow : now ≠ "")
    {cancelledAt : Option Json} (hvalid : (normalizeCancellationTimestamp cancelledAt).isSome = true) :
    shouldRestore (cancelTaskForProjectArchive task cancelledAt deviceId now) = true := by
  simp [shouldRestore, wasCancelledByProject, cancelTaskForProjectArchive, hchild.live, hchild.hasStatus,
    hchild.unfinished, hnow, hvalid]

theorem restore_completed {task : Task} (hchild : OpenChild project task) (hnow : now ≠ "") :
    restoreTaskFromProjectArchive (completeTaskForProjectArchive task now deviceId) restoredAt restoredBy =
      restoredTask task restoredAt restoredBy := by
  rw [restoreTaskFromProjectArchive, if_pos (shouldRestore_completed hchild hnow)]
  rfl

theorem restore_cancelled {task : Task} (hchild : OpenChild project task) (hnow : now ≠ "")
    {cancelledAt : Option Json} (hvalid : (normalizeCancellationTimestamp cancelledAt).isSome = true) :
    restoreTaskFromProjectArchive (cancelTaskForProjectArchive task cancelledAt deviceId now) restoredAt restoredBy =
      restoredTask task restoredAt restoredBy := by
  rw [restoreTaskFromProjectArchive, if_pos (shouldRestore_cancelled hchild hnow hvalid)]
  rfl

/-- An open child is completed, or cancelled where the project is. -/
theorem archiveChildTask_open {task : Task} (hchild : OpenChild project task) :
    archiveChildTask project normalized now deviceId task =
      if isProjectCancelled normalized then cancelTaskForProjectArchive task normalized.cancelledAt deviceId now
      else completeTaskForProjectArchive task now deviceId := by
  have hopen : isTaskActionable task = true := by
    simp [isTaskActionable, hchild.unfinished, hchild.notReference]
  simp [archiveChildTask, hchild.owned, hchild.live, hchild.unfinished, hchild.notReference, hopen]

theorem reactivate_open {task : Task} (hid : archived.id = project.id) (hchild : OpenChild project task)
    (hnow : now ≠ "") :
    reactivateChildTask archived restoredAt restoredBy (archiveChildTask project normalized now deviceId task) =
      restoredTask task restoredAt restoredBy := by
  have howned : ownedBy archived task.projectId = true := by
    rw [ownedBy, hid]
    exact hchild.owned
  rw [archiveChildTask_open hchild]
  split
  · rename_i hcancelled
    have hvalid : (normalizeCancellationTimestamp normalized.cancelledAt).isSome = true := by
      rw [isProjectCancelled, Bool.and_eq_true] at hcancelled
      exact hcancelled.2
    rw [reactivateChildTask, if_pos (by simp [cancelTaskForProjectArchive, howned, hnow])]
    exact restore_cancelled hchild hnow hvalid
  · rw [reactivateChildTask, if_pos (by simp [completeTaskForProjectArchive, howned, hnow])]
    exact restore_completed hchild hnow

/-- A task the operation did not complete comes back from neither transition changed. -/
theorem reactivate_of_not_shouldRestore {task : Task} (h : shouldRestore task = false) :
    reactivateChildTask archived restoredAt restoredBy task = task := by
  rw [reactivateChildTask, restoreTaskFromProjectArchive, h]
  simp

theorem archiveChildTask_unconcerned {task : Task} (h : Unconcerned project task) :
    archiveChildTask project normalized now deviceId task = task := by
  rcases h with howned | hdeleted | hreference | ⟨hfinished, -⟩
  · simp [archiveChildTask, howned]
  · simp [archiveChildTask, hdeleted]
  · simp [archiveChildTask, isTaskActionable, hreference]
  · simp [archiveChildTask, isTaskActionable, hfinished]

theorem reactivate_unconcerned {task : Task} (hid : archived.id = project.id) (h : Unconcerned project task) :
    reactivateChildTask archived restoredAt restoredBy task = task := by
  rcases h with howned | hdeleted | hreference | ⟨-, hintact⟩
  · have hother : ownedBy archived task.projectId = false := by
      rw [ownedBy, hid]
      exact howned
    simp [reactivateChildTask, hother]
  · apply reactivate_of_not_shouldRestore
    simp [shouldRestore, hdeleted]
  · apply reactivate_of_not_shouldRestore
    simp [shouldRestore, wasCompletedByProject, wasCancelledByProject, hreference]
  · exact reactivate_of_not_shouldRestore hintact

/-- An edit breaks the marker. -/
theorem shouldRestore_edited {task edited : Task} (h : UserEdit task edited) : shouldRestore edited = false := by
  cases h with
  | update changed hmarker =>
    rw [breakArchiveMarker]
    split
    · simp [shouldRestore, clearTaskArchiveMarker]
    · rename_i hunmarked
      simp [shouldRestore, hmarker, hunmarked]
  | stamp _ editedAt hmarker htime hlater =>
    rcases hmarker with hsame | hcleared
    · have hbroken : strictEq edited.updatedAt edited.projectArchivedAt = false := by
        rw [htime, hsame]
        by_contra heq
        rw [Bool.not_eq_false] at heq
        exact hlater (eq_of_strictEq heq).symm
      simp [shouldRestore, hbroken]
    · simp [shouldRestore, hcleared]

/-- In the shape every task is loaded in, an unfinished task has neither a completion nor a cancellation. -/
theorem no_completion_of_normal {task : Task} (hopen : isTaskFinished task.status = false)
    (hnormal : normalizeTaskLifecycleFields task = task) : task.completedAt = none ∧ task.cancelledAt = none := by
  have harchived : task.status ≠ some (.str "archived") := by
    intro h
    simp [isTaskFinished, h] at hopen
  have hcancelled : task.cancelledAt = none := by
    rw [← hnormal, normalizeTaskLifecycleFields]
    simp [harchived]
  constructor
  · rw [← hnormal, normalizeTaskLifecycleFields]
    simp [harchived, hopen]
  · exact hcancelled

theorem taskRoundTrip {task edited : Task} (hid : archived.id = project.id) (hnow : now ≠ "") :
    TaskRoundTrip project restoredAt restoredBy task (archiveChildTask project normalized now deviceId task) edited
      (reactivateChildTask archived restoredAt restoredBy edited) where
  restored hchild hedited := by
    rw [hedited]
    exact reactivate_open hid hchild hnow
  previous hchild hedited hnormal := by
    obtain ⟨hcompleted, hcancelled⟩ := no_completion_of_normal hchild.unfinished hnormal
    rw [hedited, reactivate_open hid hchild hnow]
    refine ⟨rfl, ?_, hcancelled.symm, truthy_coalesce_false _⟩
    simp [restoredTask, hcompleted, coalesce]
  unconcerned hnone hedited := by
    rw [hedited, archiveChildTask_unconcerned hnone]
    exact reactivate_unconcerned hid hnone
  edited hedit := reactivate_of_not_shouldRestore (shouldRestore_edited hedit)

end

/-! ### Sections -/

/-- A live section is not one that waits to be restored. -/
theorem not_restorable_live {sec : Section} (h : isNullish sec.deletedAt = true) :
    isRestorableProjectArchiveSection sec = false := by
  by_contra hrestorable
  rw [Bool.not_eq_false] at hrestorable
  simp only [isRestorableProjectArchiveSection, Bool.and_eq_true] at hrestorable
  obtain ⟨⟨⟨hmarked, -⟩, hdeleted⟩, -⟩ := hrestorable
  rw [← eq_of_strictEq hdeleted, truthy_of_isNullish h] at hmarked
  cases hmarked

theorem reactivateChildSection_of_not_restorable {sec : Section}
    (h : isRestorableProjectArchiveSection sec = false) :
    reactivateChildSection archived restoredAt restoredBy sec = sec := by
  rw [reactivateChildSection, restoreSectionFromProjectArchive, h]
  simp

theorem reactivate_archived_section {sec : Section} (hid : archived.id = project.id)
    (hopen : OpenSection project sec) (hnow : now ≠ "") :
    reactivateChildSection archived restoredAt restoredBy (archiveChildSection project now deviceId sec) =
      restoredSection sec restoredAt restoredBy := by
  have howned : ownedBy archived sec.projectId = true := by
    rw [ownedBy, hid]
    exact hopen.owned
  rw [archiveChildSection, if_pos (by simp [hopen.owned, truthy_of_isNullish hopen.live]), reactivateChildSection,
    if_pos (by simp [archiveSectionForProjectArchive, howned, hnow]), restoreSectionFromProjectArchive,
    if_pos (by simp [isRestorableProjectArchiveSection, archiveSectionForProjectArchive, hopen.live, hnow])]
  rfl

theorem not_restorable_edited {sec edited : Section} (h : SectionEdit sec edited) :
    isRestorableProjectArchiveSection edited = false := by
  cases h with
  | stamp editedAt hmarker htime hlater =>
    have hbroken : strictEq edited.updatedAt edited.projectArchivedAt = false := by
      rw [htime, hmarker]
      by_contra heq
      rw [Bool.not_eq_false] at heq
      exact hlater (eq_of_strictEq heq).symm
    simp [isRestorableProjectArchiveSection, hbroken]

theorem sectionRoundTrip {sec edited : Section} (hid : archived.id = project.id) (hnow : now ≠ "")
    (entered : Bool) :
    SectionRoundTrip project restoredAt restoredBy sec
      (if entered then archiveChildSection project now deviceId sec else sec) edited
      (reactivateChildSection archived restoredAt restoredBy edited) where
  restored hopen hedited := by
    rw [hedited]
    cases entered with
    | true =>
      rw [if_pos rfl, reactivate_archived_section hid hopen hnow]
      exact ⟨rfl, .inl rfl⟩
    | false =>
      rw [if_neg (by decide), reactivateChildSection_of_not_restorable (not_restorable_live hopen.live)]
      exact ⟨hopen.live, .inr rfl⟩
  edited hedit := reactivateChildSection_of_not_restorable (not_restorable_edited hedit)

/-! ### The two transitions -/

section
variable [Runtime] {updates back : ProjectUpdates} {tasks : List Task} {sections : List Section}

theorem transition_archives
    (h : (enteredArchive project updates || activatedCancellation project updates) = true) :
    applyProjectLifecycleTransition project updates tasks sections now deviceId =
      { projectUpdates := normalizeProjectUpdate project updates
        tasks := tasks.map (archiveChildTask project (patchedProject project updates) now deviceId)
        sections := sections.map fun sec =>
          if enteredArchive project updates then archiveChildSection project now deviceId sec else sec } := by
  rw [applyProjectLifecycleTransition]
  simp only [h, if_true]
  cases enteredArchive project updates <;> simp

theorem transition_reactivates (h : reactivated archived back = true) :
    applyProjectLifecycleTransition archived back tasks sections restoredAt restoredBy =
      { projectUpdates := normalizeProjectUpdate archived back
        tasks := tasks.map (reactivateChildTask archived restoredAt restoredBy)
        sections := sections.map (reactivateChildSection archived restoredAt restoredBy) } := by
  have hparts := h
  rw [reactivated, Bool.and_eq_true, Bool.not_eq_true'] at hparts
  have hentered : enteredArchive archived back = false := by simp [enteredArchive, hparts.1]
  have hcancelled : activatedCancellation archived back = false := by
    simp [activatedCancellation, isProjectCancelled, hparts.2]
  simp [applyProjectLifecycleTransition, hentered, hcancelled, h]

/-- A project is archived or cancelled at `now` and taken up again at `restoredAt`. In between the user may edit
its children, add tasks and sections after them, and edit the project as long as it stays archived. -/
theorem lifecycle_round_trip (hnow : now ≠ "") (hid : archived.id = project.id)
    (harchive : (enteredArchive project updates || activatedCancellation project updates) = true)
    (hback : reactivated archived back = true) (between : List Task) (sectionsBetween : List Section) :
    let first := applyProjectLifecycleTransition project updates tasks sections now deviceId
    let second := applyProjectLifecycleTransition archived back between sectionsBetween restoredAt restoredBy
    (∀ (i : Nat) (task edited : Task), tasks[i]? = some task → between[i]? = some edited →
      ∃ left final, first.tasks[i]? = some left ∧ second.tasks[i]? = some final ∧
        TaskRoundTrip project restoredAt restoredBy task left edited final) ∧
    (∀ (i : Nat) (sec edited : Section), sections[i]? = some sec → sectionsBetween[i]? = some edited →
      ∃ left final, first.sections[i]? = some left ∧ second.sections[i]? = some final ∧
        SectionRoundTrip project restoredAt restoredBy sec left edited final) := by
  intro first second
  have hfirst : first = _ := transition_archives harchive
  have hsecond : second = _ := transition_reactivates hback
  constructor
  · intro i task edited htask hedited
    refine ⟨archiveChildTask project (patchedProject project updates) now deviceId task, _, ?_, ?_,
      taskRoundTrip hid hnow⟩
    · rw [hfirst, List.getElem?_map, htask]
      rfl
    · rw [hsecond, List.getElem?_map, hedited]
      rfl
  · intro i sec edited hsec hedited
    refine ⟨if enteredArchive project updates then archiveChildSection project now deviceId sec else sec, _, ?_, ?_,
      sectionRoundTrip hid hnow (enteredArchive project updates)⟩
    · rw [hfirst, List.getElem?_map, hsec]
      rfl
    · rw [hsecond, List.getElem?_map, hedited]
      rfl

end

/-! ### A project that is archived, then cancelled -/

def kitchenProject : Project where
  id := "p1"
  status := some (.str "active")

def tilesTask : Task where
  id := "t1"
  status := some (.str "next")
  projectId := some (.str "p1")

def archivePatch : ProjectUpdates where
  status := some (some (.str "archived"))

def cancelPatch : ProjectUpdates where
  cancelledAt := some (some (.str "2026-01-02T00:00:00.000Z"))

def activePatch : ProjectUpdates where
  status := some (some (.str "active"))

/-- The kitchen project after it was archived on the first of January. -/
def archivedKitchen : Project :=
  @storedProject isoRuntime kitchenProject (@normalizeProjectUpdate isoRuntime kitchenProject archivePatch)
    "2026-01-01T00:00:00.000Z" none

def tilesDone : Task := completeTaskForProjectArchive tilesTask "2026-01-01T00:00:00.000Z" none

/-- The kitchen project after it was cancelled on the second. -/
def cancelledKitchen : Project :=
  @storedProject isoRuntime archivedKitchen (@normalizeProjectUpdate isoRuntime archivedKitchen cancelPatch)
    "2026-01-02T00:00:00.000Z" none

/-- The cancellation leaves the finished task alone, and the task is open when the project is active again. -/
theorem earlier_archive_reopened :
    let _ := isoRuntime
    let first := applyProjectLifecycleTransition archivedKitchen cancelPatch [tilesDone] []
      "2026-01-02T00:00:00.000Z" none
    let second := applyProjectLifecycleTransition cancelledKitchen activePatch first.tasks first.sections
      "2026-01-03T00:00:00.000Z" none
    activatedCancellation archivedKitchen cancelPatch = true ∧ reactivated cancelledKitchen activePatch = true ∧
      isTaskFinished tilesDone.status = true ∧ first.tasks = [tilesDone] ∧ second.tasks ≠ [tilesDone] := by
  decide +kernel

theorem lifecycle_round_trip_tiles :
    let _ := isoRuntime
    ∃ left final,
      (applyProjectLifecycleTransition kitchenProject archivePatch [tilesTask] []
        "2026-01-01T00:00:00.000Z" none).tasks[0]? = some left ∧
      (applyProjectLifecycleTransition archivedKitchen activePatch [tilesDone] []
        "2026-01-03T00:00:00.000Z" none).tasks[0]? = some final ∧
      TaskRoundTrip kitchenProject "2026-01-03T00:00:00.000Z" none tilesTask left tilesDone final :=
  let _ := isoRuntime
  (lifecycle_round_trip (by decide) (by decide +kernel) (by decide +kernel) (by decide +kernel) [tilesDone] []).1
    0 tilesTask tilesDone rfl rfl

end Mindwtr.Store
