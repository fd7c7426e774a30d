import Mindwtr.Store.TaskUpdate

/-!
# The lifecycle of a task under updates

A finished task has the one time that says how it was finished and is in no list of the day; an unfinished one
has neither time; a task in Today is not in the inbox. Any patch keeps this, through `normalizeTaskUpdate` and
`applyTaskUpdates` (`updatedTask_lifecycle`). A status that changes takes the task's place on the board with it,
except where the patch dates a completion back and the task files itself away
(`update_meets_lifecycle_iff`): that step comes after the one that looks at the board.
-/

namespace Mindwtr.Store

open Mindwtr.Js Mindwtr.Sync

/-- What `||` gives for three values is given again where it stands in the first place. -/
theorem orElse_orElse_idem (a b c : Option Json) :
    orElse (orElse (orElse (orElse a b) c) b) c = orElse (orElse a b) c := by
  by_cases ha : truthy a = true
  · simp [orElse, ha]
  · by_cases hb : truthy b = true
    · simp [orElse, ha, hb]
    · by_cases hc : truthy c = true <;> simp [orElse, ha, hb, hc]

/-! ### The normal form of the lifecycle fields -/

section
variable [Runtime]

theorem truthy_normalizeCancellationTimestamp (v : Option Json) :
    truthy (normalizeCancellationTimestamp v) = (normalizeCancellationTimestamp v).isSome := by
  unfold normalizeCancellationTimestamp
  split
  · rename_i s
    split_ifs with h
    · have hne : s ≠ "" := by
        rintro rfl
        exact absurd h.1 (by decide +kernel)
      simpa [Json.truthy] using hne
    · rfl
  · rfl

@[simp] theorem normalizeCancellationTimestamp_none : normalizeCancellationTimestamp none = none := rfl

theorem normalizeCancellationTimestamp_idem (v : Option Json) :
    normalizeCancellationTimestamp (normalizeCancellationTimestamp v) = normalizeCancellationTimestamp v := by
  cases h : normalizeCancellationTimestamp v with
  | none => rfl
  | some w =>
    have hv : v = some w := by
      unfold normalizeCancellationTimestamp at h
      split at h
      · split_ifs at h with hpattern
        exact h
      · cases h
    rw [hv] at h
    exact h

theorem normalizeTaskLifecycleFields_idem (t : Task) :
    normalizeTaskLifecycleFields (normalizeTaskLifecycleFields t) = normalizeTaskLifecycleFields t := by
  by_cases harchived : t.status = some (.str "archived")
  · cases hcancel : normalizeCancellationTimestamp t.cancelledAt with
    | none =>
      simp [normalizeTaskLifecycleFields, harchived, hcancel, isTaskFinished, orElse_orElse_idem]
    | some v =>
      have hidem := normalizeCancellationTimestamp_idem t.cancelledAt
      have htruthy := truthy_normalizeCancellationTimestamp t.cancelledAt
      rw [hcancel] at hidem htruthy
      simp [normalizeTaskLifecycleFields, harchived, hcancel, isTaskFinished, hidem, htruthy]
  · by_cases hdone : t.status = some (.str "done")
    · simp [normalizeTaskLifecycleFields, hdone, isTaskFinished, orElse_orElse_idem]
    · simp [normalizeTaskLifecycleFields, harchived, hdone, isTaskFinished]

end

/-! ### The invariant -/

section
variable [LocalCalendar]

structure LifecycleInvariant (t : Task) : Prop where
  done_completed : t.status = some (.str "done") → truthy t.completedAt = true ∧ t.cancelledAt = none
  archived_ended : t.status = some (.str "archived") →
    (truthy t.completedAt = true ∧ t.cancelledAt = none) ∨
      (t.completedAt = none ∧ (normalizeCancellationTimestamp t.cancelledAt).isSome = true)
  finished_unfocused : isTaskFinished t.status = true → isTrue t.isFocusedToday = false ∧ t.focusOrder = none
  unfinished_open : isTaskFinished t.status = false → t.completedAt = none ∧ t.cancelledAt = none
  focused_clarified : isTrue t.isFocusedToday = true → t.status ≠ some (.str "inbox")

/-- What is claimed of an update of `task`. -/
structure MeetsLifecycle (task : Task) (updates : TaskUpdates) (r : AppliedUpdate) : Prop where
  invariant : LifecycleInvariant r.updatedTask
  board : r.updatedTask.status ≠ task.status → updates.boardOrder = none → r.updatedTask.boardOrder = none
  fixed : normalizeTaskLifecycleFields r.updatedTask = r.updatedTask
  followUp : ∀ next, r.nextRecurringTask = some next → normalizeTaskLifecycleFields next = next

def cancels (updates : TaskUpdates) : Bool :=
  updates.cancelledAt.any fun v => (normalizeCancellationTimestamp v).isSome

/-- The patch dates the completion of a done task back beyond the archive window, without a status of its own. -/
def filesAway (task : Task) (updates : TaskUpdates) (context : UpdateContext) (clock : Int) : Bool :=
  let nowMs := context.nowMs.getD clock
  context.settings.any fun settings =>
    task.status == some (.str "done") && updates.completedAt.isSome &&
      (updates.status == some task.status || (updates.status.isNone && !cancels updates)) &&
      shouldAutoArchiveCompletedTask (stampedTask task updates nowMs) settings nowMs

section
variable {t : Task}

@[simp] theorem normalizeTaskLifecycleFields_status :
    (normalizeTaskLifecycleFields t).status = t.status := rfl

@[simp] theorem normalizeTaskLifecycleFields_boardOrder :
    (normalizeTaskLifecycleFields t).boardOrder = t.boardOrder := rfl

/-- Only the rule for the inbox has to be seen to beforehand. -/
theorem lifecycle_normalized (hstamp : truthy t.updatedAt = true)
    (hfocus : isTrue t.isFocusedToday = true → t.status ≠ some (.str "inbox")) :
    LifecycleInvariant (normalizeTaskLifecycleFields t) where
  done_completed h := by
    have hdone : t.status = some (.str "done") := h
    by_cases hcompleted : truthy t.completedAt = true
    · simp [normalizeTaskLifecycleFields, hdone, isTaskFinished, orElse, hcompleted]
    · simp [normalizeTaskLifecycleFields, hdone, isTaskFinished, orElse, hcompleted, hstamp]
  archived_ended h := by
    have harchived : t.status = some (.str "archived") := h
    have htruthy := truthy_normalizeCancellationTimestamp t.cancelledAt
    cases hcancel : normalizeCancellationTimestamp t.cancelledAt with
    | none =>
      refine .inl ?_
      by_cases hcompleted : truthy t.completedAt = true
      · simp [normalizeTaskLifecycleFields, harchived, hcancel, isTaskFinished, orElse, hcompleted]
      · simp [normalizeTaskLifecycleFields, harchived, hcancel, isTaskFinished, orElse, hcompleted, hstamp]
    | some v =>
      refine .inr ?_
      have hidem := normalizeCancellationTimestamp_idem t.cancelledAt
      rw [hcancel] at htruthy hidem
      simp [normalizeTaskLifecycleFields, harchived, hcancel, htruthy, hidem]
  finished_unfocused h := by
    have hfinished : isTaskFinished t.status = true := h
    simp [normalizeTaskLifecycleFields, hfinished, isTrue]
  unfinished_open h := by
    have hopen : isTaskFinished t.status = false := h
    have harchived : t.status ≠ some (.str "archived") := by
      intro hstatus
      rw [hstatus] at hopen
      exact absurd hopen (by decide +kernel)
    simp [normalizeTaskLifecycleFields, hopen, harchived]
  focused_clarified h := by
    by_cases hfinished : isTaskFinished t.status = true
    · simp [normalizeTaskLifecycleFields, hfinished, isTrue] at h
    · apply hfocus
      simpa [normalizeTaskLifecycleFields, hfinished] using h

end

/-- A task that follows another one is as its load would leave it. -/
theorem recurringTask_fixed (task : Task) (r : StepRule) (dates : ScheduleDates) (offset : Option Json)
    (completedAtIso : String) (previousStatus : Option Json) (uuid : Nat → String) :
    normalizeTaskLifecycleFields (recurringTask task r dates offset completedAtIso previousStatus uuid) =
      recurringTask task r dates offset completedAtIso previousStatus uuid := by
  have hopen := not_finished_nextStatus previousStatus
  have harchived : nextStatus previousStatus ≠ some (.str "archived") := by
    intro hstatus
    rw [hstatus] at hopen
    exact absurd hopen (by decide +kernel)
  simp [normalizeTaskLifecycleFields, recurringTask, hopen, harchived]

end

/-! ### What the steps of a normalization leave -/

/-- `v` has the status of `u`, and what the archive window and the board read. -/
structure SameCore (u v : TaskUpdates) : Prop where
  status : v.status = u.status
  completedAt : v.completedAt = u.completedAt
  deletedAt : v.deletedAt = u.deletedAt
  boardOrder : v.boardOrder = u.boardOrder

theorem SameCore.trans {u v w : TaskUpdates} (huv : SameCore u v) (hvw : SameCore v w) : SameCore u w where
  status := hvw.status.trans huv.status
  completedAt := hvw.completedAt.trans huv.completedAt
  deletedAt := hvw.deletedAt.trans huv.deletedAt
  boardOrder := hvw.boardOrder.trans huv.boardOrder

theorem clearCancelledAt_core (task : Task) (u : TaskUpdates) : SameCore u (clearCancelledAt task u) := by
  unfold clearCancelledAt
  split <;> exact ⟨rfl, rfl, rfl, rfl⟩

theorem normalizeOrderUpdate_core (u : TaskUpdates) : SameCore u (normalizeOrderUpdate u) := by
  unfold normalizeOrderUpdate
  split <;> exact ⟨rfl, rfl, rfl, rfl⟩

/-! ### The star -/

/-- After the patch `u` a task in Today is not in the inbox. -/
def Settled (task : Task) (u : TaskUpdates) : Prop :=
  isTrue (u.isFocusedToday.getD task.isFocusedToday) = true → u.status.getD task.status ≠ some (.str "inbox")

theorem settleStar_settled {task : Task} {updates u : TaskUpdates}
    (htask : isTrue task.isFocusedToday = true → task.status ≠ some (.str "inbox"))
    (hstatus : u.status = updates.status ∨ u.status = some (some (.str "archived"))) :
    Settled task (settleStar task updates u) := by
  unfold settleStar
  split_ifs with hdemoted hfocused hpromoted
  · intro hstar
    exact absurd hstar (by simp [isTrue])
  · intro hstar
    exact absurd hstar hfocused
  · intro _
    simp
  · -- nothing was written: the star was there already, or the status names no inbox
    intro hstar hinbox
    rcases hstatus with hsame | harchived
    · by_cases hbefore : isTrue task.isFocusedToday = true
      · have hclarified := htask hbefore
        cases hu : u.status with
        | none => exact hclarified (by simpa [hu] using hinbox)
        | some status =>
          apply hdemoted
          have hnow : status = some (.str "inbox") := by simpa [hu] using hinbox
          simp [statusBecomingInbox, starTurningOn, ← hsame, hu, hnow, hclarified, hbefore]
      · apply hpromoted
        cases hf : u.isFocusedToday with
        | none => exact absurd (by simpa [hf] using hstar) hbefore
        | some focus =>
          have hturning : starTurningOn task u = true := by
            simpa [starTurningOn, hf, hbefore] using hstar
          simp [hturning, ← hsame, hinbox]
    · simp [harchived] at hinbox

theorem settleStar_same (task : Task) (updates u : TaskUpdates) :
    (settleStar task updates u).completedAt = u.completedAt ∧ (settleStar task updates u).deletedAt = u.deletedAt ∧
      (settleStar task updates u).boardOrder = u.boardOrder := by
  unfold settleStar
  split_ifs <;> exact ⟨rfl, rfl, rfl⟩

/-- A done task is not promoted. -/
theorem settleStar_status_of_done {task : Task} {updates : TaskUpdates} (u : TaskUpdates)
    (hdone : task.status = some (.str "done")) (hstatus : updates.status = none ∨ updates.status = some task.status) :
    (settleStar task updates u).status = u.status := by
  have hinbox : updates.status.getD task.status = some (.str "done") := by
    rcases hstatus with h | h <;> simp [h, hdone]
  unfold settleStar
  split_ifs with hdemoted hfocused hpromoted
  · rfl
  · rfl
  · rw [hinbox] at hpromoted
    simp [startPromotingInbox, hdone] at hpromoted
  · rfl

/-! ### The board -/

theorem clearBoardOrder_keeps (task : Task) (updates u : TaskUpdates) :
    (clearBoardOrder task updates u).status = u.status ∧
      (clearBoardOrder task updates u).isFocusedToday = u.isFocusedToday ∧
      (clearBoardOrder task updates u).completedAt = u.completedAt ∧
      (clearBoardOrder task updates u).deletedAt = u.deletedAt := by
  unfold clearBoardOrder
  split <;> exact ⟨rfl, rfl, rfl, rfl⟩

theorem clearBoardOrder_clears {task : Task} {updates u : TaskUpdates}
    (hchanged : u.status.getD task.status ≠ task.status) (hboard : updates.boardOrder = none) :
    (clearBoardOrder task updates u).boardOrder = some none := by
  cases hu : u.status with
  | none => exact absurd (by simp [hu]) hchanged
  | some status =>
    have hne : status ≠ task.status := by simpa [hu] using hchanged
    simp [clearBoardOrder, hu, hne, hboard]

theorem clearBoardOrder_of_same {task : Task} {updates u : TaskUpdates}
    (hsame : u.status.getD task.status = task.status) :
    (clearBoardOrder task updates u).boardOrder = u.boardOrder := by
  cases hu : u.status with
  | none => simp [clearBoardOrder, hu]
  | some status =>
    have heq : status = task.status := by simpa [hu] using hsame
    simp [clearBoardOrder, hu, heq]

theorem clearFocusOrder_keeps (task : Task) (updates u : TaskUpdates) :
    SameCore u (clearFocusOrder task updates u) ∧
      (clearFocusOrder task updates u).isFocusedToday = u.isFocusedToday := by
  unfold clearFocusOrder
  split <;> exact ⟨⟨rfl, rfl, rfl, rfl⟩, rfl⟩

theorem clearArchiveMarker_keeps (task : Task) (u : TaskUpdates) :
    SameCore u (clearArchiveMarker task u) ∧ (clearArchiveMarker task u).isFocusedToday = u.isFocusedToday := by
  unfold clearArchiveMarker
  split <;> exact ⟨⟨rfl, rfl, rfl, rfl⟩, rfl⟩

theorem unstarFinished_core (task : Task) (updates u : TaskUpdates) : SameCore u (unstarFinished task updates u) := by
  unfold unstarFinished
  split <;> exact ⟨rfl, rfl, rfl, rfl⟩

theorem unstarFinished_settled {task : Task} {u : TaskUpdates} (updates : TaskUpdates) (h : Settled task u) :
    Settled task (unstarFinished task updates u) := by
  unfold unstarFinished
  split
  · intro hstar
    exact absurd hstar (by simp [isTrue])
  · exact h

theorem clearArchiveMarker_settled (task : Task) (u : TaskUpdates) :
    Settled task (clearArchiveMarker task u) ↔ Settled task u := by
  obtain ⟨hcore, hfocus⟩ := clearArchiveMarker_keeps task u
  rw [Settled, Settled, hcore.status, hfocus]

/-- A status that changes is the one the patch names. -/
theorem status_of_incomingStatus_ne (task : Task) (u : TaskUpdates)
    (h : incomingStatus task u ≠ task.status) :
    u.status = some (incomingStatus task u) := by
  cases hu : u.status with
  | none => exact absurd (by simp [incomingStatus, hu, coalesce, isNullish]) h
  | some status =>
    unfold incomingStatus at h ⊢
    rw [hu] at h ⊢
    unfold coalesce at h ⊢
    split_ifs at h ⊢ with hnullish
    · exact absurd rfl h
    · rfl

theorem dropTextDirection_core (u : TaskUpdates) :
    SameCore u (dropTextDirection u) ∧ (dropTextDirection u).isFocusedToday = u.isFocusedToday := by
  unfold dropTextDirection
  split <;> exact ⟨⟨rfl, rfl, rfl, rfl⟩, rfl⟩

/-! ### The patch before the archive window -/

section
variable [LocalCalendar]

theorem normalizeRecurrenceUpdate_core (task : Task) (u : TaskUpdates) :
    SameCore u (normalizeRecurrenceUpdate task u) := by
  unfold normalizeRecurrenceUpdate
  split <;> exact ⟨rfl, rfl, rfl, rfl⟩

theorem unstarDeferred_core (task : Task) (updates u : TaskUpdates) (clock : Int) :
    SameCore u (unstarDeferred task updates u clock) := by
  unfold unstarDeferred
  dsimp only
  split <;> exact ⟨rfl, rfl, rfl, rfl⟩

theorem normalizeFields_core (task : Task) (updates : TaskUpdates) (clock : Int) :
    SameCore (normalizeCancelledAt updates) (normalizeFields task updates clock) :=
  (clearCancelledAt_core task _).trans <| (normalizeRecurrenceUpdate_core task _).trans <|
    (normalizeOrderUpdate_core _).trans (unstarDeferred_core task updates _ clock)

/-- A cancellation archives the task where the patch names no status. -/
theorem normalizeCancelledAt_status (updates : TaskUpdates) :
    (normalizeCancelledAt updates).status =
      if updates.status.isNone && cancels updates then some (some (.str "archived")) else updates.status := by
  unfold normalizeCancelledAt cancels
  cases hcancel : updates.cancelledAt with
  | none => simp
  | some v =>
    dsimp only
    rw [truthy_normalizeCancellationTimestamp, Bool.and_comm]
    rfl

theorem normalizeCancelledAt_same (updates : TaskUpdates) :
    (normalizeCancelledAt updates).completedAt = updates.completedAt ∧
      (normalizeCancelledAt updates).deletedAt = updates.deletedAt ∧
      (normalizeCancelledAt updates).boardOrder = updates.boardOrder := by
  unfold normalizeCancelledAt
  split <;> exact ⟨rfl, rfl, rfl⟩

/-- The status of the patch, or the archive where it cancels the task. -/
theorem normalizeFields_status (task : Task) (updates : TaskUpdates) (clock : Int) :
    (normalizeFields task updates clock).status = updates.status ∨
      (normalizeFields task updates clock).status = some (some (.str "archived")) := by
  rw [(normalizeFields_core task updates clock).status, normalizeCancelledAt_status]
  split
  · exact .inr rfl
  · exact .inl rfl

/-- The patch before the archive window is looked at. -/
def boardedUpdate (task : Task) (updates : TaskUpdates) (clock : Int) : TaskUpdates :=
  clearFocusOrder task updates
    (clearBoardOrder task updates (settleStar task updates (normalizeFields task updates clock)))

section
variable {task : Task} {updates : TaskUpdates} {context : UpdateContext} {clock : Int}

theorem boardedUpdate_settled (updates : TaskUpdates) (clock : Int)
    (htask : isTrue task.isFocusedToday = true → task.status ≠ some (.str "inbox")) :
    Settled task (boardedUpdate task updates clock) := by
  have hsettled := settleStar_settled htask (normalizeFields_status task updates clock)
  obtain ⟨hstatus, hfocus, -, -⟩ :=
    clearBoardOrder_keeps task updates (settleStar task updates (normalizeFields task updates clock))
  obtain ⟨hcore, hfocus'⟩ := clearFocusOrder_keeps task updates
    (clearBoardOrder task updates (settleStar task updates (normalizeFields task updates clock)))
  unfold Settled at hsettled ⊢
  rw [boardedUpdate, hcore.status, hfocus', hstatus, hfocus]
  exact hsettled

theorem boardedUpdate_status : (boardedUpdate task updates clock).status =
    (settleStar task updates (normalizeFields task updates clock)).status := by
  rw [boardedUpdate, (clearFocusOrder_keeps _ _ _).1.status, (clearBoardOrder_keeps _ _ _).1]

theorem boardedUpdate_dates (task : Task) (updates : TaskUpdates) (clock : Int) :
    (boardedUpdate task updates clock).completedAt = updates.completedAt ∧
      (boardedUpdate task updates clock).deletedAt = updates.deletedAt := by
  obtain ⟨hcompleted, hdeleted, -⟩ := settleStar_same task updates (normalizeFields task updates clock)
  obtain ⟨hcompleted', hdeleted', -⟩ := normalizeCancelledAt_same updates
  have hcore := normalizeFields_core task updates clock
  obtain ⟨-, -, hboard, hboard'⟩ :=
    clearBoardOrder_keeps task updates (settleStar task updates (normalizeFields task updates clock))
  constructor
  · rw [boardedUpdate, (clearFocusOrder_keeps _ _ _).1.completedAt, hboard, hcompleted, hcore.completedAt, hcompleted']
  · rw [boardedUpdate, (clearFocusOrder_keeps _ _ _).1.deletedAt, hboard', hdeleted, hcore.deletedAt, hdeleted']

theorem boardedUpdate_cleared
    (hchanged : (boardedUpdate task updates clock).status.getD task.status ≠ task.status)
    (hboard : updates.boardOrder = none) : (boardedUpdate task updates clock).boardOrder = some none := by
  rw [boardedUpdate_status] at hchanged
  rw [boardedUpdate, (clearFocusOrder_keeps _ _ _).1.boardOrder]
  exact clearBoardOrder_clears hchanged hboard

theorem boardedUpdate_kept
    (hsame : (boardedUpdate task updates clock).status.getD task.status = task.status) :
    (boardedUpdate task updates clock).boardOrder = updates.boardOrder := by
  rw [boardedUpdate_status] at hsame
  rw [boardedUpdate, (clearFocusOrder_keeps _ _ _).1.boardOrder, clearBoardOrder_of_same hsame,
    (settleStar_same _ _ _).2.2, (normalizeFields_core _ _ _).boardOrder, (normalizeCancelledAt_same _).2.2]

/-! ### The archive window -/

/-- The fields the window depends on. -/
theorem shouldAutoArchiveCompletedTask_congr {a b : Task} (settings : Json) (nowMs : Int)
    (hdeleted : a.deletedAt = b.deletedAt) (hstatus : a.status = b.status) (hcompleted : a.completedAt = b.completedAt)
    (hupdated : a.updatedAt = b.updatedAt) :
    shouldAutoArchiveCompletedTask a settings nowMs = shouldAutoArchiveCompletedTask b settings nowMs := by
  simp only [shouldAutoArchiveCompletedTask, hdeleted, hstatus, hcompleted, hupdated]

theorem shouldAutoArchiveCompletedTask_done {t : Task} {settings : Json} {nowMs : Int}
    (h : shouldAutoArchiveCompletedTask t settings nowMs = true) : t.status = some (.str "done") := by
  simp only [shouldAutoArchiveCompletedTask, Bool.and_eq_true, beq_iff_eq] at h
  exact h.1.1.2

theorem archivesEdit_iff {u : TaskUpdates} : archivesEdit task updates u context clock = true ↔
    ∃ settings, context.settings = some settings ∧ updates.completedAt.isSome = true ∧
      (updates.status = none ∨ updates.status = some task.status) ∧ task.status = some (.str "done") ∧
      shouldAutoArchiveCompletedTask (stampedTask task u (context.nowMs.getD clock)) settings
        (context.nowMs.getD clock) = true := by
  simp only [archivesEdit, Option.any_eq_true, Bool.and_eq_true, Bool.or_eq_true, Option.isNone_iff_eq_none,
    beq_iff_eq, and_assoc]

theorem filesAway_iff : filesAway task updates context clock = true ↔
    ∃ settings, context.settings = some settings ∧ task.status = some (.str "done") ∧
      updates.completedAt.isSome = true ∧
      (updates.status = some task.status ∨ updates.status = none ∧ cancels updates = false) ∧
      shouldAutoArchiveCompletedTask (stampedTask task updates (context.nowMs.getD clock)) settings
        (context.nowMs.getD clock) = true := by
  simp only [filesAway, Option.any_eq_true, Bool.and_eq_true, Bool.or_eq_true, Option.isNone_iff_eq_none,
    beq_iff_eq, and_assoc, Bool.not_eq_true']

/-- Of a done task the window reads in the normalized patch what it reads in the patch itself. -/
theorem shouldAutoArchive_boardedUpdate (settings : Json) (nowMs : Int)
    (hstatus : (boardedUpdate task updates clock).status = updates.status) :
    shouldAutoArchiveCompletedTask (stampedTask task (boardedUpdate task updates clock) nowMs) settings nowMs =
      shouldAutoArchiveCompletedTask (stampedTask task updates nowMs) settings nowMs := by
  obtain ⟨hcompleted, hdeleted⟩ := boardedUpdate_dates task updates clock
  apply shouldAutoArchiveCompletedTask_congr
  · simp [stampedTask, spreadTask, hdeleted]
  · simp [stampedTask, spreadTask, hstatus]
  · simp [stampedTask, spreadTask, hcompleted]
  · rfl

theorem boardedUpdate_status_of_done (clock : Int) (hdone : task.status = some (.str "done"))
    (hstatus : updates.status = none ∨ updates.status = some task.status) :
    (boardedUpdate task updates clock).status =
      if updates.status.isNone && cancels updates then some (some (.str "archived")) else updates.status := by
  rw [boardedUpdate_status, settleStar_status_of_done _ hdone hstatus, (normalizeFields_core _ _ _).status,
    normalizeCancelledAt_status]

theorem archivesEdit_boardedUpdate :
    archivesEdit task updates (boardedUpdate task updates clock) context clock =
      filesAway task updates context clock := by
  rw [Bool.eq_iff_iff, archivesEdit_iff, filesAway_iff]
  constructor
  · rintro ⟨settings, hsettings, hcompleted, hstatus, hdone, hwindow⟩
    have hboarded := boardedUpdate_status_of_done clock hdone hstatus
    by_cases hcancels : (updates.status.isNone && cancels updates) = true
    · -- a cancellation has archived the task, and the window is for done ones
      rw [if_pos hcancels] at hboarded
      have hafter := shouldAutoArchiveCompletedTask_done hwindow
      simp [stampedTask, spreadTask, hboarded] at hafter
    · rw [if_neg hcancels] at hboarded
      rw [shouldAutoArchive_boardedUpdate settings _ hboarded] at hwindow
      refine ⟨settings, hsettings, hdone, hcompleted, ?_, hwindow⟩
      rcases hstatus with hnone | hsame
      · exact .inr ⟨hnone, by simpa [hnone] using hcancels⟩
      · exact .inl hsame
  · rintro ⟨settings, hsettings, hdone, hcompleted, hstatus, hwindow⟩
    have hstatus' : updates.status = none ∨ updates.status = some task.status := by
      rcases hstatus with hsame | ⟨hnone, -⟩
      · exact .inr hsame
      · exact .inl hnone
    have hboarded := boardedUpdate_status_of_done clock hdone hstatus'
    have hcancels : ¬(updates.status.isNone && cancels updates) = true := by
      rcases hstatus with hsame | ⟨-, hcancels⟩
      · simp [hsame]
      · simp [hcancels]
    rw [if_neg hcancels] at hboarded
    rw [← shouldAutoArchive_boardedUpdate settings _ hboarded] at hwindow
    exact ⟨settings, hsettings, hcompleted, hstatus', hdone, hwindow⟩

/-! ### The normalized patch -/

theorem autoArchive_settled {u : TaskUpdates} (updates : TaskUpdates) (context : UpdateContext) (clock : Int)
    (h : Settled task u) :
    Settled task (autoArchive task updates u context clock) := by
  unfold autoArchive
  split
  · intro hstar
    exact absurd hstar (by simp [isTrue])
  · exact h

/-- What comes after the archive window leaves status and board as they are. -/
theorem normalizeTaskUpdate_core :
    SameCore (autoArchive task updates (boardedUpdate task updates clock) context clock)
      (normalizeTaskUpdate task updates context clock) :=
  (unstarFinished_core _ _ _).trans (clearArchiveMarker_keeps _ _).1

theorem normalizeTaskUpdate_settled
    (htask : isTrue task.isFocusedToday = true → task.status ≠ some (.str "inbox")) :
    Settled task (normalizeTaskUpdate task updates context clock) := by
  have hboarded := boardedUpdate_settled updates clock htask
  have hsettled := unstarFinished_settled updates (autoArchive_settled updates context clock hboarded)
  exact (clearArchiveMarker_settled _ _).2 hsettled

theorem normalizeTaskUpdate_board (haway : filesAway task updates context clock = false)
    (hchanged : (normalizeTaskUpdate task updates context clock).status.getD task.status ≠ task.status)
    (hboard : updates.boardOrder = none) :
    (normalizeTaskUpdate task updates context clock).boardOrder = some none := by
  have hkept : autoArchive task updates (boardedUpdate task updates clock) context clock =
      boardedUpdate task updates clock := by
    rw [autoArchive, archivesEdit_boardedUpdate, haway]
    rfl
  rw [normalizeTaskUpdate_core.status, hkept] at hchanged
  rw [normalizeTaskUpdate_core.boardOrder, hkept]
  exact boardedUpdate_cleared hchanged hboard

/-- A task that is filed away keeps its place on the board. -/
theorem normalizeTaskUpdate_filesAway (haway : filesAway task updates context clock = true) :
    task.status = some (.str "done") ∧
      (normalizeTaskUpdate task updates context clock).status = some (some (.str "archived")) ∧
      (normalizeTaskUpdate task updates context clock).boardOrder = updates.boardOrder := by
  have hwindow : archivesEdit task updates (boardedUpdate task updates clock) context clock = true := by
    rw [archivesEdit_boardedUpdate, haway]
  have hdone : task.status = some (.str "done") := by
    obtain ⟨-, -, hdone, -⟩ := filesAway_iff.1 haway
    exact hdone
  refine ⟨hdone, ?_, ?_⟩
  · rw [normalizeTaskUpdate_core.status, autoArchive, hwindow]
    rfl
  · rw [normalizeTaskUpdate_core.boardOrder, autoArchive, hwindow]
    apply boardedUpdate_kept
    obtain ⟨settings, -, -, -, -, hafter⟩ := archivesEdit_iff.1 hwindow
    have hafter := shouldAutoArchiveCompletedTask_done hafter
    rw [hdone]
    simpa [stampedTask, spreadTask, hdone] using hafter

end

/-! ### The applied patch -/

section
variable {task : Task} {u v : TaskUpdates} {now : String}

theorem applyStatusChange_status : (applyStatusChange task u now).status = u.status := by
  have hnamed := status_of_incomingStatus_ne task u
  unfold applyStatusChange
  dsimp only
  split_ifs with hdone harchived hopened
  · rw [Bool.and_eq_true, bne_iff_ne] at hdone
    exact (hnamed hdone.1).symm
  · rw [Bool.and_eq_true, bne_iff_ne] at harchived
    exact (hnamed harchived.1).symm
  · rw [Bool.and_eq_true, Bool.and_eq_true, bne_iff_ne] at hopened
    exact (hnamed hopened.1.1).symm
  · exact (dropTextDirection_core u).1.status

theorem applyStatusChange_boardOrder : (applyStatusChange task u now).boardOrder = u.boardOrder := by
  unfold applyStatusChange
  dsimp only
  split_ifs <;> exact (dropTextDirection_core u).1.boardOrder

theorem applyStatusChange_settled (now : String) (h : Settled task u) :
    Settled task (applyStatusChange task u now) := by
  intro hstar
  rw [applyStatusChange_status]
  apply h
  unfold applyStatusChange at hstar
  dsimp only at hstar
  split_ifs at hstar with hdone harchived hopened
  · exact absurd hstar (by simp [isTrue])
  · exact absurd hstar (by simp [isTrue])
  · simpa [(dropTextDirection_core u).2] using hstar
  · simpa [(dropTextDirection_core u).2] using hstar

theorem startAtOffset_keeps {dueDate offset : Option Json} (h : startAtOffset u dueDate offset = .ok v) :
    v.status = u.status ∧ v.isFocusedToday = u.isFocusedToday ∧ v.boardOrder = u.boardOrder := by
  unfold startAtOffset at h
  obtain ⟨start, -, h⟩ := bind_eq_ok h
  cases start <;> obtain rfl := Except.ok.inj h <;> exact ⟨rfl, rfl, rfl⟩

theorem resolveRelativeStartUpdates_keeps (h : resolveRelativeStartUpdates task u = .ok v) :
    v.status = u.status ∧ v.isFocusedToday = u.isFocusedToday ∧ v.boardOrder = u.boardOrder := by
  unfold resolveRelativeStartUpdates at h
  split at h
  · dsimp only at h
    split at h
    · obtain rfl := Except.ok.inj h
      exact ⟨rfl, rfl, rfl⟩
    · exact startAtOffset_keeps h
  · split at h
    · obtain rfl := Except.ok.inj h
      exact ⟨rfl, rfl, rfl⟩
    · dsimp only at h
      split at h
      · split at h
        · exact startAtOffset_keeps h
        · obtain rfl := Except.ok.inj h
          exact ⟨rfl, rfl, rfl⟩
      · obtain rfl := Except.ok.inj h
        exact ⟨rfl, rfl, rfl⟩

theorem applyDueDate_keeps (task : Task) (u : TaskUpdates) :
    (applyDueDate task u).status = u.status ∧ (applyDueDate task u).isFocusedToday = u.isFocusedToday ∧
      (applyDueDate task u).boardOrder = u.boardOrder := by
  unfold applyDueDate
  split <;> exact ⟨rfl, rfl, rfl⟩

/-- Besides the schedule only a reference loses anything, and it loses both star and board. -/
theorem applySchedule_keeps {incoming : Option Json} (h : applySchedule task incoming u = .ok v) :
    (v.status = u.status ∧ v.isFocusedToday = u.isFocusedToday ∧ v.boardOrder = u.boardOrder) ∨
      (incoming = some (.str "reference") ∧ v.status = some (some (.str "reference")) ∧
        v.boardOrder = some none) := by
  unfold applySchedule at h
  split at h
  · rename_i hreference
    obtain rfl := Except.ok.inj h
    exact .inr ⟨hreference, rfl, rfl⟩
  · obtain ⟨resolved, hresolved, rfl⟩ := map_eq_ok h
    obtain ⟨hstatus, hfocus, hboard⟩ := applyDueDate_keeps task resolved
    obtain ⟨hstatus', hfocus', hboard'⟩ := resolveRelativeStartUpdates_keeps hresolved
    exact .inl ⟨hstatus.trans hstatus', hfocus.trans hfocus', hboard.trans hboard'⟩

end

section
variable {task : Task} {u : TaskUpdates} {now : String} {clock : Int} {uuid : Nat → String} {r : AppliedUpdate}

/-- An applied patch writes the status it names, or keeps a task that is a reference one. -/
structure Applies (task : Task) (u : TaskUpdates) (now : String) (r : AppliedUpdate) : Prop where
  lifecycle : ∃ updated : Task, r.updatedTask = normalizeTaskLifecycleFields updated ∧
    updated.updatedAt = some (.str now) ∧
    (isTrue updated.isFocusedToday = true → updated.status ≠ some (.str "inbox"))
  board : (r.updatedTask.status = u.status.getD task.status ∧
      r.updatedTask.boardOrder = u.boardOrder.getD task.boardOrder) ∨
    (incomingStatus task u = some (.str "reference") ∧ r.updatedTask.boardOrder = none)
  followUp : ∀ next, r.nextRecurringTask = some next → normalizeTaskLifecycleFields next = next

theorem applyTaskUpdates_applies (hsettled : Settled task u)
    (h : applyTaskUpdates task u now clock uuid = .ok r) : Applies task u now r := by
  unfold applyTaskUpdates at h
  obtain ⟨next, hnext, h⟩ := bind_eq_ok h
  obtain ⟨final, hfinal, h⟩ := bind_eq_ok h
  obtain rfl := Except.ok.inj h
  have hkeeps := applySchedule_keeps hfinal
  constructor
  · refine ⟨_, rfl, rfl, ?_⟩
    rcases hkeeps with ⟨hstatus, hfocus, -⟩ | ⟨-, hstatus, -⟩
    · have hstar := applyStatusChange_settled now hsettled
      simpa [Settled, spreadTask, hstatus, hfocus] using hstar
    · simp [spreadTask, hstatus]
  · rcases hkeeps with ⟨hstatus, -, hboard⟩ | ⟨hreference, -, hboard⟩
    · exact .inl ⟨by simp [spreadTask, hstatus, applyStatusChange_status],
        by simp [spreadTask, hboard, applyStatusChange_boardOrder]⟩
    · exact .inr ⟨hreference, by simp [spreadTask, hboard]⟩
  · rintro following rfl
    unfold nextOccurrence at hnext
    dsimp only at hnext
    split at hnext
    · obtain ⟨rule, dates, offset, rfl⟩ := createNextRecurringTask_some hnext
      exact recurringTask_fixed _ _ _ _ _ _ _
    · cases hnext

end

/-! ### Updates keep the lifecycle -/

section
variable {task : Task} {updates : TaskUpdates} {context : UpdateContext} {now : String} {clock later : Int}
  {uuid : Nat → String} {r : AppliedUpdate}

/-- Every patch leaves a task in its lifecycle, and so is the task that follows it. -/
theorem updatedTask_lifecycle (htask : LifecycleInvariant task) (hnow : now ≠ "")
    (h : applyTaskUpdates task (normalizeTaskUpdate task updates context clock) now later uuid = .ok r) :
    LifecycleInvariant r.updatedTask ∧ normalizeTaskLifecycleFields r.updatedTask = r.updatedTask ∧
      ∀ next, r.nextRecurringTask = some next → normalizeTaskLifecycleFields next = next := by
  have happlies := applyTaskUpdates_applies (normalizeTaskUpdate_settled htask.focused_clarified) h
  obtain ⟨updated, hupdated, hstamp, hfocus⟩ := happlies.lifecycle
  refine ⟨?_, ?_, happlies.followUp⟩
  · rw [hupdated]
    apply lifecycle_normalized _ hfocus
    rw [hstamp]
    simpa [Json.truthy] using hnow
  · rw [hupdated, normalizeTaskLifecycleFields_idem]

/-- The board is right exactly where the task is not filed away from a place it had on it. -/
theorem update_meets_lifecycle_iff (htask : LifecycleInvariant task) (hnow : now ≠ "")
    (h : applyTaskUpdates task (normalizeTaskUpdate task updates context clock) now later uuid = .ok r) :
    MeetsLifecycle task updates r ↔
      ¬(filesAway task updates context clock = true ∧ updates.boardOrder = none ∧ task.boardOrder ≠ none) := by
  have happlies := applyTaskUpdates_applies (normalizeTaskUpdate_settled htask.focused_clarified) h
  constructor
  · rintro hmeets ⟨haway, hunset, hplaced⟩
    obtain ⟨hdone, harchived, hboard⟩ := normalizeTaskUpdate_filesAway haway
    have hincoming : incomingStatus task (normalizeTaskUpdate task updates context clock) =
        some (.str "archived") := by
      simp [incomingStatus, harchived, coalesce, isNullish]
    rcases happlies.board with ⟨hstatus, hkept⟩ | ⟨hreference, -⟩
    · rw [harchived] at hstatus
      rw [hboard, hunset] at hkept
      have hcleared := hmeets.board (by simp [hstatus, hdone]) hunset
      exact hplaced (hkept.symm.trans hcleared)
    · rw [hincoming] at hreference
      simp at hreference
  · intro hcondition
    obtain ⟨hinvariant, hfixed, hfollow⟩ := updatedTask_lifecycle htask hnow h
    refine ⟨hinvariant, ?_, hfixed, hfollow⟩
    intro hchanged hunset
    rcases happlies.board with ⟨hstatus, hkept⟩ | ⟨-, hnone⟩
    · by_cases haway : filesAway task updates context clock = true
      · have hunplaced : task.boardOrder = none := by
          by_contra hplaced
          exact hcondition ⟨haway, hunset, hplaced⟩
        rw [hkept, (normalizeTaskUpdate_filesAway haway).2.2, hunset, hunplaced]
        rfl
      · rw [hstatus] at hchanged
        rw [hkept, normalizeTaskUpdate_board (Bool.eq_false_iff.mpr haway) hchanged hunset]
        rfl
    · exact hnone

end

end

/-! ### A completion that is dated back -/

attribute [local instance] utcCalendar

def laundry : Task where
  id := "laundry"
  title := some (.str "Laundry")
  status := some (.str "done")
  completedAt := some (.str "2026-03-01T09:00:00.000Z")
  boardOrder := some (.num 3)
  isFocusedToday := some (.bool false)
  createdAt := some (.str "2026-02-01T09:00:00.000Z")
  updatedAt := some (.str "2026-03-01T09:00:00.000Z")
  rev := some (.num 4)
  revBy := some (.str "phone")
  deletedAt := none

def backdate : TaskUpdates := { completedAt := some (some (.str "2026-01-15T09:00:00.000Z")) }

def archiveWindow : UpdateContext := { settings := some (.obj []), nowMs := some 1772442000000 }

/-- The task after the patch: in the archive, where it still has its place on the board. -/
def backdated : AppliedUpdate where
  updatedTask := { laundry with
    status := some (.str "archived")
    completedAt := some (.str "2026-01-15T09:00:00.000Z")
    updatedAt := some (.str "2026-03-02T09:00:00.000Z") }
  nextRecurringTask := none

theorem laundry_lifecycle : LifecycleInvariant laundry := by
  constructor <;> decide +kernel

theorem laundry_backdated :
    applyTaskUpdates laundry (normalizeTaskUpdate laundry backdate archiveWindow 0) "2026-03-02T09:00:00.000Z" 0
      toString = .ok backdated := by
  decide +kernel

theorem filed_away_from_the_board :
    ¬∀ (task : Task) (updates : TaskUpdates) (context : UpdateContext) (now : String) (clock later : Int)
      (uuid : Nat → String) (r : AppliedUpdate), LifecycleInvariant task → now ≠ "" →
      applyTaskUpdates task (normalizeTaskUpdate task updates context clock) now later uuid = .ok r →
      MeetsLifecycle task updates r := by
  intro hclaim
  have hmeets := hclaim laundry backdate archiveWindow _ 0 0 _ _ laundry_lifecycle (by decide) laundry_backdated
  have hcleared := hmeets.board (by decide +kernel) rfl
  exact absurd hcleared (by decide +kernel)

def retitle : TaskUpdates := { title := some (some (.str "Fold laundry")) }

def retitled : AppliedUpdate where
  updatedTask := { laundry with
    title := some (.str "Fold laundry")
    updatedAt := some (.str "2026-03-02T09:00:00.000Z") }
  nextRecurringTask := none

/-- A patch of the title is no such patch. -/
theorem update_meets_lifecycle_iff_retitled : MeetsLifecycle laundry retitle retitled ↔
    ¬(filesAway laundry retitle archiveWindow 0 = true ∧ retitle.boardOrder = none ∧ laundry.boardOrder ≠ none) :=
  @update_meets_lifecycle_iff utcCalendar laundry retitle archiveWindow "2026-03-02T09:00:00.000Z" 0 0 toString
    retitled laundry_lifecycle (by decide) (by decide +kernel)

end Mindwtr.Store
