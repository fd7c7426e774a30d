import Mindwtr.Cloud.TaskActions

/-!
# The actions against the patch

A patch of the status alone goes through `normalizeTaskUpdate`, an action does not. What the two leave differs in the
board order and in the marker of a project's archive, which the patch takes from the task and the action leaves: the
documents are the same exactly where the task has neither.
-/

namespace Mindwtr.Cloud

open Mindwtr.Js Mindwtr.Store Mindwtr.Sync

/-- What a patch to the status takes from the task besides what the action does. -/
def clearedByPatch (existing : Task) (status : String) (task : Task) : Task :=
  let marked := truthy existing.projectArchivedAt
  { task with
    boardOrder := if existing.status = some (.str status) then task.boardOrder else none
    statusBeforeProjectArchive := if marked then none else task.statusBeforeProjectArchive
    completedAtBeforeProjectArchive := if marked then none else task.completedAtBeforeProjectArchive
    isFocusedTodayBeforeProjectArchive := if marked then none else task.isFocusedTodayBeforeProjectArchive
    projectArchivedAt := if marked then none else task.projectArchivedAt }

/-- The tasks of the id of the patched one lose that. -/
def clearedById (existing : Task) (status : String) (task : Task) : Task :=
  if task.id == existing.id then clearedByPatch existing status task else task

theorem clearedById_of_id {existing task : Task} (h : task.id = existing.id) (status : String) :
    clearedById existing status task = clearedByPatch existing status task := if_pos (beq_iff_eq.2 h)

theorem clearedById_of_ne {existing task : Task} (h : task.id ≠ existing.id) (status : String) :
    clearedById existing status task = task := if_neg fun hid => h (beq_iff_eq.1 hid)

/-- The task is moved to no other column of the board, or has no place there, and no project archive marked it. -/
def HasNothingToClear (existing : Task) (status : String) : Prop :=
  (existing.status = some (.str status) ∨ existing.boardOrder = none) ∧ truthy existing.projectArchivedAt = false

/-! ### The updated task -/

section
variable [LocalCalendar]

def statusUpdates (status : String) : TaskUpdates := { status := some (some (.str status)) }

omit [LocalCalendar] in
theorem isTaskFinished_action (action : TaskAction) : isTaskFinished (some (.str action.status)) = true := by
  cases action <;> decide +kernel

/-- The patch of the status with its cancellation. -/
def cancelledUpdates (action : TaskAction) : TaskUpdates :=
  { statusUpdates action.status with cancelledAt := if action = .archive then none else some none }

/-- The patch of the status on the board. -/
def boardUpdates (existing : Task) (action : TaskAction) : TaskUpdates :=
  { cancelledUpdates action with boardOrder := if existing.status = some (.str action.status) then none else some none }

/-- The patch of the status after its normalization. -/
def normalizedStatusUpdates (existing : Task) (action : TaskAction) : TaskUpdates :=
  let marked := truthy existing.projectArchivedAt
  { boardUpdates existing action with
    isFocusedToday := some (some (.bool false))
    focusOrder := some none
    statusBeforeProjectArchive := if marked then some none else none
    completedAtBeforeProjectArchive := if marked then some none else none
    isFocusedTodayBeforeProjectArchive := if marked then some none else none
    projectArchivedAt := if marked then some none else none }

theorem normalizeFields_status_only (existing : Task) (action : TaskAction) (clock : Int) :
    normalizeFields existing (statusUpdates action.status) clock = cancelledUpdates action := by
  cases action <;>
    simp [normalizeFields, normalizeCancelledAt, clearCancelledAt, normalizeRecurrenceUpdate, normalizeOrderUpdate,
      unstarDeferred, statusUpdates, cancelledUpdates, TaskAction.status]

omit [LocalCalendar] in
theorem settleStar_status_only (existing : Task) (action : TaskAction) :
    settleStar existing (statusUpdates action.status) (cancelledUpdates action) = cancelledUpdates action := by
  have hinbox : statusBecomingInbox existing (statusUpdates action.status) = false := by
    cases action <;> simp [statusBecomingInbox, statusUpdates, TaskAction.status]
  rw [settleStar, hinbox]
  simp [starTurningOn, startPromotingInbox, cancelledUpdates, statusUpdates]

omit [LocalCalendar] in
theorem clearBoardOrder_status_only (existing : Task) (action : TaskAction) :
    clearBoardOrder existing (statusUpdates action.status) (cancelledUpdates action) =
      boardUpdates existing action := by
  by_cases hsame : existing.status = some (.str action.status)
  · simp [clearBoardOrder, boardUpdates, cancelledUpdates, statusUpdates, hsame]
  · have hne : some (Json.str action.status) ≠ existing.status := Ne.symm hsame
    simp [clearBoardOrder, boardUpdates, cancelledUpdates, statusUpdates, hsame, hne]

omit [LocalCalendar] in
theorem unstarFinished_status_only (existing : Task) (action : TaskAction) :
    unstarFinished existing (statusUpdates action.status)
        (clearFocusOrder existing (statusUpdates action.status) (boardUpdates existing action)) =
      { boardUpdates existing action with
        isFocusedToday := some (some (.bool false))
        focusOrder := some none } := by
  have hfinished := isTaskFinished_action action
  unfold clearFocusOrder
  split_ifs <;> simp [unstarFinished, boardUpdates, cancelledUpdates, statusUpdates, hfinished]

theorem normalizeTaskUpdate_status_only (existing : Task) (action : TaskAction) (clock : Int) :
    normalizeTaskUpdate existing (statusUpdates action.status) {} clock =
      normalizedStatusUpdates existing action := by
  have haway (u : TaskUpdates) : autoArchive existing (statusUpdates action.status) u {} clock = u := by
    simp [autoArchive, archivesEdit]
  simp only [normalizeTaskUpdate, normalizeFields_status_only, settleStar_status_only, clearBoardOrder_status_only,
    haway, unstarFinished_status_only]
  by_cases hmarked : truthy existing.projectArchivedAt = true
  · simp [clearArchiveMarker, normalizedStatusUpdates, hmarked]
  · simp [clearArchiveMarker, normalizedStatusUpdates, hmarked, boardUpdates, cancelledUpdates, statusUpdates]

theorem nextOccurrence_status_only (existing : Task) (action : TaskAction) (nowIso : String) (clock : Int)
    (uuid : Nat → String) :
    nextOccurrence existing (stampUpdates existing (normalizedStatusUpdates existing action)) nowIso clock uuid =
      nextOccurrence existing (stampUpdates existing (statusUpdates action.status)) nowIso clock uuid := rfl

/-- The task after a patch that moves no date. -/
def patchedTask (existing : Task) (u : TaskUpdates) (nowIso : String) : Task :=
  normalizeTaskLifecycleFields
    { spreadTask existing (applyStatusChange existing u nowIso) with updatedAt := some (.str nowIso) }

/-- The task that an action leaves. -/
def completedTask (existing : Task) (action : TaskAction) (nowIso : String) : Task :=
  patchedTask existing (stampUpdates existing (statusUpdates action.status)) nowIso

omit [LocalCalendar] in
theorem incomingStatus_of_status {existing : Task} {u : TaskUpdates} {status : String}
    (hu : u.status = some (some (.str status))) : incomingStatus existing u = some (.str status) := by
  simp [incomingStatus, hu, coalesce, isNullish]

theorem applyTaskUpdates_of_dateless (existing : Task) (u : TaskUpdates) (action : TaskAction)
    (hu : u.status = some (some (.str action.status))) (hoffset : u.relativeStartOffset = none)
    (hstart : u.startTime = none) (hdue : u.dueDate = none) (nowIso : String) (clock : Int) (uuid : Nat → String) :
    applyTaskUpdates existing u nowIso clock uuid =
      (nextOccurrence existing u nowIso clock uuid).map fun nextRecurringTask =>
        { updatedTask := patchedTask existing u nowIso, nextRecurringTask } := by
  have hreference : some (Json.str action.status) ≠ some (.str "reference") := by cases action <;> decide +kernel
  have hdates : (applyStatusChange existing u nowIso).relativeStartOffset = none ∧
      (applyStatusChange existing u nowIso).startTime = none ∧
        (applyStatusChange existing u nowIso).dueDate = none := by
    unfold applyStatusChange dropTextDirection
    dsimp only
    split_ifs <;> exact ⟨hoffset, hstart, hdue⟩
  have hschedule : applySchedule existing (incomingStatus existing u) (applyStatusChange existing u nowIso) =
      .ok (applyStatusChange existing u nowIso) := by
    simp [applySchedule, incomingStatus_of_status hu, hreference, resolveRelativeStartUpdates, hdates, Except.map,
      applyDueDate]
  rw [applyTaskUpdates, hschedule]
  cases nextOccurrence existing u nowIso clock uuid <;> rfl

theorem applyStatusChange_of_same {existing : Task} {u : TaskUpdates} {status : String}
    (hsame : existing.status = some (.str status)) (hu : u.status = some (some (.str status)))
    (htext : u.textDirection = none) (nowIso : String) : applyStatusChange existing u nowIso = u := by
  simp [applyStatusChange, incomingStatus_of_status hu, hsame, dropTextDirection, htext]

theorem applyStatusChange_of_done {existing : Task} {u : TaskUpdates}
    (hchanged : existing.status ≠ some (.str "done")) (hu : u.status = some (some (.str "done")))
    (htext : u.textDirection = none) (nowIso : String) :
    applyStatusChange existing u nowIso =
      { u with
        completedAt := some (completionTime existing u nowIso)
        cancelledAt := some none
        isFocusedToday := some (some (.bool false))
        focusOrder := clearedFocusOrder existing u } := by
  simp [applyStatusChange, incomingStatus_of_status hu, Ne.symm hchanged, dropTextDirection, htext, hu]

theorem applyStatusChange_of_archived {existing : Task} {u : TaskUpdates}
    (hchanged : existing.status ≠ some (.str "archived")) (hu : u.status = some (some (.str "archived")))
    (htext : u.textDirection = none) (nowIso : String) :
    applyStatusChange existing u nowIso =
      { u with
        completedAt := some (archiveCompletionTime existing u nowIso)
        cancelledAt := some (explicitCancelledAt u)
        isFocusedToday := some (some (.bool false))
        focusOrder := clearedFocusOrder existing u } := by
  simp [applyStatusChange, incomingStatus_of_status hu, Ne.symm hchanged, dropTextDirection, htext, hu]

omit [LocalCalendar] in
/-- A field that a patch clears where it is marked. -/
theorem getD_cleared {α : Type} (marked : Bool) (value : Option α) :
    (if marked = true then some none else none).getD value = if marked = true then none else value := by
  cases marked <;> rfl

theorem patchedTask_normalized (existing : Task) (action : TaskAction) (nowIso : String) :
    patchedTask existing (stampUpdates existing (normalizedStatusUpdates existing action)) nowIso =
      clearedByPatch existing action.status (completedTask existing action nowIso) := by
  unfold completedTask patchedTask
  by_cases hsame : existing.status = some (.str action.status)
  · rw [applyStatusChange_of_same hsame rfl rfl, applyStatusChange_of_same hsame rfl rfl]
    cases action <;>
      simp [spreadTask, stampUpdates, statusUpdates, normalizedStatusUpdates, boardUpdates, cancelledUpdates,
        normalizeTaskLifecycleFields, clearedByPatch, hsame, TaskAction.status, isTaskFinished, getD_cleared]
  · cases action with
    | complete =>
      have hdone : existing.status ≠ some (.str "done") := hsame
      rw [applyStatusChange_of_done hdone rfl rfl, applyStatusChange_of_done hdone rfl rfl]
      simp [spreadTask, stampUpdates, statusUpdates, normalizedStatusUpdates, boardUpdates, cancelledUpdates,
        normalizeTaskLifecycleFields, clearedByPatch, hdone, TaskAction.status, isTaskFinished, getD_cleared,
        completionTime, explicitCompletedAt]
    | archive =>
      have harchived : existing.status ≠ some (.str "archived") := hsame
      have hnone : normalizeCancellationTimestamp none = none := rfl
      rw [applyStatusChange_of_archived harchived rfl rfl,
        applyStatusChange_of_archived harchived rfl rfl]
      simp [spreadTask, stampUpdates, statusUpdates, normalizedStatusUpdates, boardUpdates, cancelledUpdates,
        normalizeTaskLifecycleFields, clearedByPatch, harchived, TaskAction.status, isTaskFinished, getD_cleared,
        archiveCompletionTime, explicitCancelledAt, explicitCompletedAt, hnone]

end

/-! ### What the end of a write does not read -/

section
variable [Runtime]

def mapTasks (f : Task → Task) (data : AppData) : AppData := { data with tasks := data.tasks.map f }

/-- A change of tasks that neither the check nor the repair of a document sees. -/
structure Unread (f : Task → Task) : Prop where
  validateTask_eq : ∀ task, validateTask (f task) = validateTask task
  validateTaskContainer_eq : ∀ data task, validateTaskContainer data (f task) = validateTaskContainer data task
  id_eq : ∀ task, (f task).id = task.id
  deletedAt_eq : ∀ task, (f task).deletedAt = task.deletedAt
  areaId_eq : ∀ task, (f task).areaId = task.areaId
  repairTask_eq : ∀ index nowIso task, repairTask index nowIso (f task) = f (repairTask index nowIso task)

variable {f : Task → Task}

theorem validateAppData_mapTasks (hf : Unread f) (maxItemsPerCollection : Nat) (data : AppData) :
    validateAppData maxItemsPerCollection (mapTasks f data) = validateAppData maxItemsPerCollection data := by
  have htasks : (data.tasks.map f).findSome? validateTask = data.tasks.findSome? validateTask := by
    rw [List.findSome?_map]
    exact congrArg (List.findSome? · data.tasks) (funext hf.validateTask_eq)
  have hcontainers : (data.tasks.map f).findSome? (validateTaskContainer data) =
      data.tasks.findSome? (validateTaskContainer data) := by
    rw [List.findSome?_map]
    exact congrArg (List.findSome? · data.tasks) (funext (hf.validateTaskContainer_eq data))
  have hareas : ((data.tasks.map f).findSome? fun task =>
      validateAreaReference (activeIds data.areas) "task" task.id task.deletedAt task.areaId) =
      data.tasks.findSome? fun task =>
        validateAreaReference (activeIds data.areas) "task" task.id task.deletedAt task.areaId := by
    rw [List.findSome?_map]
    simp only [Function.comp_def, hf.id_eq, hf.deletedAt_eq, hf.areaId_eq]
  have hlimits : validateLimits maxItemsPerCollection (mapTasks f data) =
      validateLimits maxItemsPerCollection data := by
    simp [validateLimits, mapTasks]
  have hdata : validateTaskContainer (mapTasks f data) = validateTaskContainer data := rfl
  rw [validateAppData, validateAppData, hlimits, hdata]
  show (validateLimits maxItemsPerCollection data).or (((data.tasks.map f).findSome? validateTask).or _) = _
  rw [htasks]
  simp only [mapTasks, hcontainers, hareas]

theorem repairMergedSyncReferences_mapTasks (hf : Unread f) (data : AppData) (nowIso : String) :
    repairMergedSyncReferences (mapTasks f data) nowIso = mapTasks f (repairMergedSyncReferences data nowIso) := by
  have htasks : (data.tasks.map f).map (repairTask (repairIndex data nowIso) nowIso) =
      (data.tasks.map (repairTask (repairIndex data nowIso) nowIso)).map f := by
    rw [List.map_map, List.map_map]
    exact List.map_congr_left fun task _ => hf.repairTask_eq _ nowIso task
  have hindex : repairIndex (mapTasks f data) nowIso = repairIndex data nowIso := rfl
  simp only [repairMergedSyncReferences, hindex]
  simp only [mapTasks, htasks]

theorem finalizeCloudDataForWrite_mapTasks (hf : Unread f) (config : CloudRuntimeConfig) (data : AppData)
    (nowIso : String) (reject : Bool) :
    finalizeCloudDataForWrite config (mapTasks f data) nowIso reject =
      (finalizeCloudDataForWrite config data nowIso reject).map (mapTasks f) := by
  simp only [finalizeCloudDataForWrite, validateAppData_mapTasks hf, repairMergedSyncReferences_mapTasks hf]
  cases if reject = true then validateAppData config.maxItemsPerCollection data else none with
  | some error => rfl
  | none =>
    dsimp only
    cases validateAppData config.maxItemsPerCollection (repairMergedSyncReferences data nowIso) <;> rfl

omit [Runtime] in
theorem repairTask_clearedByPatch (existing : Task) (status : String) (index : RepairIndex) (nowIso : String)
    (task : Task) : repairTask index nowIso (clearedByPatch existing status task) =
      clearedByPatch existing status (repairTask index nowIso task) := by
  unfold repairTask
  dsimp only
  rw [apply_ite (clearedByPatch existing status)]
  rfl

omit [Runtime] in
/-- The repair writes neither of these fields. -/
theorem repairTask_keeps (index : RepairIndex) (nowIso : String) (task : Task) :
    (repairTask index nowIso task).id = task.id ∧ (repairTask index nowIso task).boardOrder = task.boardOrder ∧
      (repairTask index nowIso task).projectArchivedAt = task.projectArchivedAt := by
  unfold repairTask
  dsimp only
  exact ⟨(apply_ite (fun task : Task => task.id) _ _ _).trans (ite_self _),
    (apply_ite Task.boardOrder _ _ _).trans (ite_self _),
    (apply_ite Task.projectArchivedAt _ _ _).trans (ite_self _)⟩

/-- What the patch clears is not read. -/
theorem clearedByPatch_unread (existing : Task) (status : String) :
    Unread (clearedById existing status) := by
  unfold clearedById
  constructor
  · intro task
    split_ifs <;> rfl
  · intro data task
    split_ifs <;> rfl
  · intro task
    split_ifs <;> rfl
  · intro task
    split_ifs <;> rfl
  · intro task
    split_ifs <;> rfl
  · intro index nowIso task
    rw [(repairTask_keeps index nowIso task).1]
    split_ifs
    · exact repairTask_clearedByPatch existing status index nowIso task
    · rfl

end

/-! ### The documents -/

/-- In a list of distinct keys, writing over one member is writing over those of its key. -/
theorem set_eq_map {α : Type} {key : α → String} {l : List α} (hnodup : (l.map key).Nodup) {idx : Nat} {a : α}
    (hidx : l[idx]? = some a) (b : α) : l.set idx b = l.map fun x => if key x == key a then b else x := by
  induction l generalizing idx with
  | nil => simp at hidx
  | cons x l ih =>
    rw [List.map_cons, List.nodup_cons] at hnodup
    cases idx with
    | zero =>
      obtain rfl : x = a := by simpa using hidx
      have hrest : (l.map fun y => if key y == key x then b else y) = l := by
        conv_rhs => rw [← List.map_id l]
        apply List.map_congr_left
        intro y hy
        have hne : key y ≠ key x := fun heq => hnodup.1 (heq ▸ List.mem_map_of_mem hy)
        simp [hne]
      rw [List.set_cons_zero, List.map_cons, if_pos (beq_self_eq_true _), hrest]
    | succ idx =>
      have hidx' : l[idx]? = some a := by simpa using hidx
      have hne : key x ≠ key a := fun heq =>
        hnodup.1 (heq ▸ List.mem_map_of_mem (List.mem_of_getElem? hidx'))
      simp [ih hnodup.2 hidx', hne]

section
variable [LocalCalendar] {config : CloudRuntimeConfig} {action : TaskAction} {taskId : String} {data : AppData}
  {existing : Task} {nowIso : String} {clock : Int} {uuid : Nat → String}

/-- The tasks of a document with one in the place of those of its id. -/
def putTask (task : Task) (tasks : List Task) : List Task :=
  tasks.map fun other => if other.id == task.id then task else other

/-- The document before its references are repaired. -/
def completedData (data : AppData) (existing : Task) (action : TaskAction) (nowIso : String) (next : Option Task) :
    AppData :=
  { data with tasks := pushFollowUp next existing (putTask (completedTask existing action nowIso) data.tasks) }

theorem completedTask_keeps (existing : Task) (action : TaskAction) (nowIso : String) :
    (completedTask existing action nowIso).id = existing.id ∧
      (completedTask existing action nowIso).deletedAt = existing.deletedAt ∧
      (completedTask existing action nowIso).projectId = existing.projectId ∧
      (completedTask existing action nowIso).order = existing.order ∧
      (completedTask existing action nowIso).orderNum = existing.orderNum ∧
      (completedTask existing action nowIso).boardOrder = existing.boardOrder ∧
      (completedTask existing action nowIso).projectArchivedAt = existing.projectArchivedAt := by
  unfold completedTask patchedTask applyStatusChange dropTextDirection
  dsimp only
  split_ifs <;> exact ⟨rfl, rfl, rfl, rfl, rfl, rfl, rfl⟩

theorem postTaskAction_eq (hfind : data.tasks.find? (isLiveTask taskId) = some existing)
    (hids : (data.tasks.map fun task => task.id).Nodup) :
    postTaskAction config action taskId data nowIso clock uuid =
      (nextOccurrence existing (stampUpdates existing (statusUpdates action.status)) nowIso clock uuid).map fun next =>
        finalizeTaskWrite config (completedData data existing action nowIso next) nowIso
          (completedTask existing action nowIso) := by
  obtain ⟨idx, hidx, hget⟩ := Option.bind_eq_some_iff.1 (List.find?_eq_bind_findIdx?_getElem?.symm.trans hfind)
  have hset : data.tasks.set idx (completedTask existing action nowIso) =
      putTask (completedTask existing action nowIso) data.tasks := by
    rw [putTask, (completedTask_keeps existing action nowIso).1]
    exact set_eq_map hids hget _
  have happly := applyTaskUpdates_of_dateless existing (stampUpdates existing (statusUpdates action.status)) action
    rfl rfl rfl rfl nowIso clock uuid
  have hupdates : ({ status := some (some (.str action.status)) } : TaskUpdates) = statusUpdates action.status := rfl
  rw [postTaskAction, hidx, hfind]
  dsimp only
  rw [hupdates, happly]
  cases nextOccurrence existing (stampUpdates existing (statusUpdates action.status)) nowIso clock uuid with
  | error e => rfl
  | ok next =>
    show Except.ok _ = Except.ok _
    simp only [completedData, ← hset]
    rfl

/-- The next occurrence has an id that was generated for it. -/
theorem followUp_id_ne (hfind : data.tasks.find? (isLiveTask taskId) = some existing)
    (hfresh : ∀ k, uuid k ≠ taskId) {u : TaskUpdates} {next : Option Task}
    (h : nextOccurrence existing u nowIso clock uuid = .ok next) :
    ∀ task, next = some task → task.id ≠ existing.id := by
  rintro task rfl
  have hlive := List.find?_some hfind
  simp only [isLiveTask, Bool.and_eq_true, beq_iff_eq] at hlive
  unfold nextOccurrence at h
  dsimp only at h
  split_ifs at h with hcompletes
  · obtain ⟨r, dates, offset, rfl⟩ := createNextRecurringTask_some h
    rw [hlive.1]
    exact hfresh _
  · cases h

/-- The orders of a project are those of its tasks, whatever else is written. -/
theorem getProjectOrderIndex_putTask {tasks : List Task} (hids : (tasks.map fun task => task.id).Nodup)
    (hmem : existing ∈ tasks) :
    Import.getProjectOrderIndex (putTask (completedTask existing action nowIso) tasks) =
      Import.getProjectOrderIndex tasks := by
  obtain ⟨hid, hdeleted, hproject, horder, horderNum, -, -⟩ := completedTask_keeps existing action nowIso
  rw [Import.getProjectOrderIndex, Import.getProjectOrderIndex, putTask, List.foldl_map]
  apply List.foldl_ext
  intro index task htask
  by_cases hsame : task.id = existing.id
  · obtain rfl := List.inj_on_of_nodup_map hids htask hmem hsame
    simp [hid, hdeleted, hproject, Import.getTaskOrder, horder, horderNum]
  · simp [hid, hsame]

theorem patchEntity_eq (hids : (data.tasks.map fun task => task.id).Nodup) (hmem : existing ∈ data.tasks)
    {next : Option Task} (hnext : ∀ task, next = some task → task.id ≠ existing.id) :
    patchEntity (normalizedStatusUpdates existing action) existing data nowIso
        { updatedTask := clearedByPatch existing action.status (completedTask existing action nowIso)
          nextRecurringTask := next } =
      mapTasks (clearedById existing action.status)
        (completedData data existing action nowIso next) := by
  have hactionable : requestsActionable (normalizedStatusUpdates existing action) = false := by
    simp [requestsActionable, normalizedStatusUpdates, boardUpdates, cancelledUpdates, statusUpdates,
      isTaskFinished_action]
  have hid := (completedTask_keeps existing action nowIso).1
  have hput : (putTask (completedTask existing action nowIso) data.tasks).map
      (clearedById existing action.status) =
      data.tasks.map fun task =>
        if task.id == existing.id then clearedByPatch existing action.status (completedTask existing action nowIso)
        else task := by
    rw [putTask, List.map_map]
    apply List.map_congr_left
    intro task _
    by_cases hsame : task.id = existing.id
    · simp [hid, hsame, clearedById_of_id hid]
    · simp [hid, hsame, clearedById_of_ne hsame]
  rw [patchEntity, applyTaskProjectReactivationTransition_of_not_actionable hactionable]
  cases next with
  | none => simp only [mapTasks, completedData, pushFollowUp, hput]
  | some next =>
    have hne : next.id ≠ existing.id := hnext next rfl
    have hstamp : (stampRecurringFollowUp next existing data.tasks).id ≠ existing.id := hne
    have hfollow : stampRecurringFollowUp next existing (putTask (completedTask existing action nowIso) data.tasks) =
        stampRecurringFollowUp next existing data.tasks := by
      rw [stampRecurringFollowUp, stampRecurringFollowUp, getNextProjectOrder, getNextProjectOrder,
        getProjectOrderIndex_putTask hids hmem]
    simp only [mapTasks, completedData, pushFollowUp, List.map_append, hput, hfollow]
    simp [hstamp, clearedById_of_ne hstamp]

/-- What a write would leave, without what the patch clears. -/
def RouteResult.mapData (f : Task → Task) : RouteResult → RouteResult
  | .error message status => .error message status
  | .written document task => .written (mapTasks f document) task

theorem refusePatch_status_only (u : TaskUpdates) (hu : u.isFocusedToday = some (some (.bool false))) :
    refusePatch config (statusUpdates action.status) u existing data = none := by
  have hstatus : action.status ∈ taskStatusValues := by cases action <;> decide +kernel
  simp [refusePatch, statusUpdates, hu, hstatus, Json.asStr?, Store.isTrue]

theorem storedAfter_patchTask (hfind : data.tasks.find? (isLiveTask taskId) = some existing)
    (hids : (data.tasks.map fun task => task.id).Nodup) (hfresh : ∀ k, uuid k ≠ taskId) :
    storedAfter data (patchTask config (statusUpdates action.status) taskId data nowIso clock uuid) =
      storedAfter data ((postTaskAction config action taskId data nowIso clock uuid).map
        (RouteResult.mapData (clearedById existing action.status))) := by
  have hmem : existing ∈ data.tasks := List.mem_of_find?_eq_some hfind
  rw [postTaskAction_eq hfind hids, patchTask, hfind]
  dsimp only
  rw [normalizeTaskUpdate_status_only, refusePatch_status_only _ rfl]
  have happly := applyTaskUpdates_of_dateless existing
    (stampUpdates existing (normalizedStatusUpdates existing action)) action rfl rfl rfl rfl nowIso clock uuid
  rw [happly, nextOccurrence_status_only, patchedTask_normalized]
  cases hnext : nextOccurrence existing (stampUpdates existing (statusUpdates action.status)) nowIso clock uuid with
  | error e => rfl
  | ok next =>
    have hne := followUp_id_ne hfind hfresh hnext
    show storedAfter data (.ok (finalizeTaskWrite config _ nowIso _)) =
      storedAfter data (.ok (RouteResult.mapData _ (finalizeTaskWrite config _ nowIso _)))
    rw [patchEntity_eq hids hmem hne, finalizeTaskWrite, finalizeTaskWrite,
      finalizeCloudDataForWrite_mapTasks (clearedByPatch_unread existing action.status)]
    cases finalizeCloudDataForWrite config (completedData data existing action nowIso next) nowIso true <;> rfl

omit [LocalCalendar] in
theorem clearedByPatch_eq_self_iff {status : String} {task : Task} (hboard : task.boardOrder = existing.boardOrder)
    (hmarker : task.projectArchivedAt = existing.projectArchivedAt) :
    clearedByPatch existing status task = task ↔ HasNothingToClear existing status := by
  constructor
  · intro heq
    constructor
    · by_cases hsame : existing.status = some (.str status)
      · exact .inl hsame
      · have hcleared := congrArg Task.boardOrder heq
        rw [clearedByPatch, if_neg hsame, hboard] at hcleared
        exact .inr hcleared.symm
    · by_contra hmarked
      rw [Bool.not_eq_false] at hmarked
      have hcleared : (if truthy existing.projectArchivedAt = true then none else task.projectArchivedAt) =
          task.projectArchivedAt := congrArg Task.projectArchivedAt heq
      rw [if_pos hmarked, hmarker] at hcleared
      rw [← hcleared] at hmarked
      cases hmarked
  · rintro ⟨hkept, hunmarked⟩
    have hplace : (if existing.status = some (.str status) then task.boardOrder else none) = task.boardOrder := by
      rcases hkept with hsame | hnone
      · rw [if_pos hsame]
      · rw [hboard, hnone, ite_self]
    simp [clearedByPatch, hunmarked, hplace]

theorem finalizeCloudDataForWrite_eq {reject : Bool} {finalized : AppData}
    (h : finalizeCloudDataForWrite config data nowIso reject = .ok finalized) :
    finalized = repairMergedSyncReferences data nowIso := by
  unfold finalizeCloudDataForWrite at h
  dsimp only at h
  split at h
  · cases h
  · split at h
    · cases h
    · exact (Except.ok.inj h).symm

theorem finalizeTaskWrite_eq {updated answer : Task} {document : AppData}
    (h : finalizeTaskWrite config data nowIso updated = .written document answer) :
    document = repairMergedSyncReferences data nowIso := by
  unfold finalizeTaskWrite at h
  split at h
  · cases h
  · rename_i finalized hfinalized
    obtain ⟨rfl, -⟩ := RouteResult.written.inj h
    exact finalizeCloudDataForWrite_eq hfinalized

/-- The document before the repair has one task of the id. -/
theorem mem_completedData_tasks (action : TaskAction) (nowIso : String) (hmem : existing ∈ data.tasks)
    {next : Option Task}
    (hnext : ∀ task, next = some task → task.id ≠ existing.id) :
    completedTask existing action nowIso ∈ (completedData data existing action nowIso next).tasks ∧
      ∀ task ∈ (completedData data existing action nowIso next).tasks, task.id = existing.id →
        task = completedTask existing action nowIso := by
  have hid := (completedTask_keeps existing action nowIso).1
  have hput : completedTask existing action nowIso ∈ putTask (completedTask existing action nowIso) data.tasks :=
    List.mem_map.2 ⟨existing, hmem, by simp [hid]⟩
  have honly : ∀ task ∈ putTask (completedTask existing action nowIso) data.tasks, task.id = existing.id →
      task = completedTask existing action nowIso := by
    intro task htask hsame
    obtain ⟨other, -, rfl⟩ := List.mem_map.1 htask
    split_ifs with hother
    · rfl
    · rw [if_neg hother] at hsame
      exact absurd (hsame.trans hid.symm) (by simpa using hother)
  cases next with
  | none => exact ⟨hput, honly⟩
  | some next =>
    refine ⟨List.mem_append_left _ hput, ?_⟩
    intro task htask hsame
    rcases List.mem_append.1 htask with hold | hnew
    · exact honly task hold hsame
    · obtain rfl := List.mem_singleton.1 hnew
      exact absurd hsame (hnext next rfl)

/-- Where the action writes, the document has one task of the id, with its place on the board and its marker. -/
theorem written_tasks (hfind : data.tasks.find? (isLiveTask taskId) = some existing)
    (hids : (data.tasks.map fun task => task.id).Nodup) (hfresh : ∀ k, uuid k ≠ taskId) {document : AppData}
    {answer : Task} (h : postTaskAction config action taskId data nowIso clock uuid = .ok (.written document answer)) :
    ∃ written ∈ document.tasks, written.id = existing.id ∧ written.boardOrder = existing.boardOrder ∧
      written.projectArchivedAt = existing.projectArchivedAt ∧
      ∀ task ∈ document.tasks, task.id = existing.id → task = written := by
  rw [postTaskAction_eq hfind hids] at h
  obtain ⟨next, hnext, hwrite⟩ := map_eq_ok h
  obtain rfl := finalizeTaskWrite_eq hwrite
  obtain ⟨hmem, honly⟩ := mem_completedData_tasks action nowIso
    (List.mem_of_find?_eq_some hfind) (followUp_id_ne hfind hfresh hnext)
  have hrepair (task : Task) := repairTask_keeps (repairIndex (completedData data existing action nowIso next) nowIso)
    nowIso task
  obtain ⟨hid, -, -, -, -, hboard, hmarker⟩ := completedTask_keeps existing action nowIso
  refine ⟨_, List.mem_map_of_mem hmem, (hrepair _).1.trans hid, (hrepair _).2.1.trans hboard,
    (hrepair _).2.2.trans hmarker, ?_⟩
  intro task htask hsame
  obtain ⟨original, horiginal, rfl⟩ := List.mem_map.1 htask
  rw [honly original horiginal ((hrepair original).1.symm.trans hsame)]

/-- The patch to the status leaves the document that the action leaves, exactly where the action writes none or the
task has nothing that the patch clears. -/
theorem patch_stores_as_action_iff (hfind : data.tasks.find? (isLiveTask taskId) = some existing)
    (hids : (data.tasks.map fun task => task.id).Nodup) (hfresh : ∀ k, uuid k ≠ taskId) :
    storedAfter data (patchTask config (statusUpdates action.status) taskId data nowIso clock uuid) =
        storedAfter data (postTaskAction config action taskId data nowIso clock uuid) ↔
      ((∃ document answer, postTaskAction config action taskId data nowIso clock uuid =
        .ok (.written document answer)) → HasNothingToClear existing action.status) := by
  rw [storedAfter_patchTask hfind hids hfresh]
  cases hpost : postTaskAction config action taskId data nowIso clock uuid with
  | error e => simp [Except.map, storedAfter]
  | ok result =>
    cases result with
    | error message status => simp [Except.map, storedAfter, RouteResult.mapData]
    | written document answer =>
      obtain ⟨written, hwritten, hid, hboard, hmarker, honly⟩ := written_tasks hfind hids hfresh hpost
      have hwrites : (∃ d a, Except.ok (ε := JsError) (RouteResult.written document answer) = .ok (.written d a)) :=
        ⟨document, answer, rfl⟩
      rw [← clearedByPatch_eq_self_iff hboard hmarker]
      show mapTasks _ document = document ↔ _
      constructor
      · intro heq _
        have htasks : document.tasks.map (clearedById existing action.status) = document.tasks :=
          congrArg AppData.tasks heq
        have hcleared := List.map_inj_left.mp (htasks.trans (List.map_id _).symm) written hwritten
        rwa [clearedById_of_id hid] at hcleared
      · intro hclear
        have hkept := hclear hwrites
        have htasks : document.tasks.map (clearedById existing action.status) = document.tasks := by
          conv_rhs => rw [← List.map_id document.tasks]
          apply List.map_congr_left
          intro task htask
          by_cases hsame : task.id = existing.id
          · rw [clearedById_of_id hsame, honly task htask hsame, hkept, id]
          · rw [clearedById_of_ne hsame, id]
        simp only [mapTasks, htasks]

end

/-! ### A task on the board -/

section
attribute [local instance] utcCalendar

/-- A next action with a place of its own on the board. -/
def boardTask : Task where
  id := "5a0d2f2e-7d5c-4f4e-9a53-1f2b8c1d7e90"
  title := some (.str "Call the plumber")
  status := some (.str "next")
  createdAt := some (.str "2026-03-01T09:00:00.000Z")
  updatedAt := some (.str "2026-03-01T09:00:00.000Z")
  boardOrder := some (.num 2)

def boardDocument : AppData where
  tasks := [boardTask]
  projects := []
  sections := []
  areas := []
  people := none
  settings :=
    ⟨⟨none, none, none, none, none, none, none, none, none, none, none, none, none, none, none, none⟩, []⟩

def generatedId (_ : Nat) : String := "0c7e3f55-88a4-4a52-b6f2-93d1f1c0aa17"

theorem patch_stores_as_action_iff_board :
    storedAfter boardDocument (patchTask {} (statusUpdates TaskAction.complete.status) boardTask.id boardDocument
        "2026-03-02T09:00:00.000Z" 1772442000000 generatedId) =
      storedAfter boardDocument (postTaskAction {} .complete boardTask.id boardDocument
        "2026-03-02T09:00:00.000Z" 1772442000000 generatedId) ↔
      ((∃ document answer, postTaskAction {} .complete boardTask.id boardDocument "2026-03-02T09:00:00.000Z"
        1772442000000 generatedId = .ok (.written document answer)) →
          HasNothingToClear boardTask TaskAction.complete.status) :=
  patch_stores_as_action_iff (by decide +kernel) (by decide +kernel)
    fun _ => show generatedId 0 ≠ boardTask.id by decide +kernel

/-- The action completes the task and keeps its place on the board, the patch takes it. -/
theorem complete_keeps_boardOrder :
    ((storedAfter boardDocument (postTaskAction {} .complete boardTask.id boardDocument "2026-03-02T09:00:00.000Z"
        1772442000000 generatedId)).tasks.map fun task => (task.status, task.boardOrder)) =
      [(some (.str "done"), some (.num 2))] ∧
    ((storedAfter boardDocument (patchTask {} (statusUpdates "done") boardTask.id boardDocument
        "2026-03-02T09:00:00.000Z" 1772442000000 generatedId)).tasks.map fun task => (task.status, task.boardOrder)) =
      [(some (.str "done"), none)] := by
  constructor <;> decide +kernel

end

end Mindwtr.Cloud
