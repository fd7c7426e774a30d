import Mindwtr.Calendar.PushRun

/-!
# The push of one task

What `syncCalendarPushTask` and the removals do to the stores of their task. Between two of them every event
is named by the entry of its task (`Accounted`). A write that fails may lose the entry of an event that was
just made; where that never happens (`KeepsNew`), a push leaves every event accounted for, however it ends.
Where moreover nothing fails and the user deletes nothing (`Faultless`), the entry and the events are exactly
what the push is for.
-/

namespace Mindwtr.Calendar

open Mindwtr.Js Mindwtr.Sync Mindwtr.Store Mindwtr.Lib Attempt

variable {Details : Type}

structure Accounted (taskId : String) (s : TaskStores Details) : Prop where
  own : ∀ entry, s.entry = some entry → entry.taskId = taskId
  named : ∀ i event, s.events i = some event →
    ∃ entry, s.entry = some entry ∧ entry.calendarEventId = i ∧ event.calendarId = entry.calendarId

/-- One event with the details of the task in the target calendar, which its entry names. -/
def Pushed (target : String) (details : Task → Details) (task : Task) (s : TaskStores Details) : Prop :=
  ∃ i, s = ⟨some ⟨task.id, i, target⟩, Function.update (fun _ => none) i (some ⟨target, details task⟩)⟩

/-- Neither an entry nor an event. -/
def Unpushed (s : TaskStores Details) : Prop := s = {}

/-- A write of an entry that fails is about an event that the entry names already. -/
def KeepsNew (op : PushCall) (choice : PushChoice) (s : TaskStores Details) : Prop :=
  ∀ entry, op = .upsertSyncEntry entry → choice.outcome = .fails →
    s.entry.map (·.calendarEventId) = some entry.calendarEventId

section
variable {taskId : String} {s : TaskStores Details}

theorem Accounted.deleteEvents (h : Accounted taskId s) (deleted : List Nat) : Accounted taskId (s.deleteEvents deleted) := by
  refine ⟨h.own, fun i event hevent => ?_⟩
  simp only [TaskStores.deleteEvents] at hevent ⊢
  split_ifs at hevent
  exact h.named i event hevent

theorem Accounted.events_eq_none (h : Accounted taskId s) (hentry : s.entry = none) (i : Nat) : s.events i = none := by
  cases hevent : s.events i with
  | none => rfl
  | some event =>
    obtain ⟨entry, hsome, -⟩ := h.named i event hevent
    rw [hentry] at hsome
    cases hsome

theorem Accounted.unpushed (h : Accounted taskId s) (hentry : s.entry = none) : Unpushed s := by
  obtain ⟨entry, events⟩ := s
  obtain rfl : entry = none := hentry
  obtain rfl : events = fun _ => none := funext fun i => h.events_eq_none rfl i
  rfl

theorem Unpushed.accounted (h : Unpushed s) : Accounted taskId s := by
  obtain rfl := h
  constructor
  · intro entry hentry
    cases hentry
  · intro i event hevent
    cases hevent

end

section
variable {target : String} {details : Task → Details} {ok : (op : PushCall) → PushChoice → TaskStores Details → Prop}

/-- Every call is answered, and the user deletes nothing. -/
def Faultless (target : String) (details : Task → Details)
    (ok : (op : PushCall) → PushChoice → TaskStores Details → Prop) : Prop :=
  ∀ op choice s, ok op choice s → choice.deleted = [] ∧ (pushPort target details op choice s).1.isOk = true

variable {s : TaskStores Details} {R : TaskStores Details → Prop}

/-! ### The calls -/

/-- A call that fails is a fault. -/
theorem not_faultless (target : String) (details : Task → Details) {op : PushCall} {choice : PushChoice} (hok : ok op choice s)
    (h : (pushPort target details op choice s).1.isOk = false) : ¬Faultless target details ok := by
  intro hfaultless
  have := (hfaultless op choice s hok).2
  rw [h] at this
  cases this

theorem createEvent_ends {task : Task} {Q : Nat → TaskStores Details → Prop}
    (hfail : ∀ deleted, ¬Faultless target details ok → R (s.deleteEvents deleted))
    (hok : ∀ deleted i, (Faultless target details ok → deleted = []) →
      Q i { s.deleteEvents deleted with
        events := Function.update (s.deleteEvents deleted).events i (some ⟨target, details task⟩) }) :
    Ends (pushPort target details) ok Q R (await (.createEvent task)) s := by
  refine ends_call (PushCall.createEvent task) fun choice hchoice => ?_
  have hfault := not_faultless target details hchoice
  have hdeleted := fun hfaultless : Faultless target details ok => (hfaultless _ choice s hchoice).1
  simp only [pushPort] at hfault ⊢
  split_ifs at hfault ⊢ with h
  · exact hfail choice.deleted (hfault rfl)
  · exact hok choice.deleted choice.eventId hdeleted

theorem updateEvent_ends {entry : CalendarSyncEntry} {task : Task} {Q : Option Nat → TaskStores Details → Prop}
    (hfail : ∀ deleted, ¬Faultless target details ok → R (s.deleteEvents deleted))
    (hmissing : ∀ deleted, (s.deleteEvents deleted).events entry.calendarEventId = none → Q none (s.deleteEvents deleted))
    (hok : ∀ deleted event, (Faultless target details ok → deleted = []) →
      (s.deleteEvents deleted).events entry.calendarEventId = some event →
      Q (some entry.calendarEventId) { s.deleteEvents deleted with
        events := Function.update (s.deleteEvents deleted).events entry.calendarEventId
          (some { event with details := details task }) }) :
    Ends (pushPort target details) ok Q R (await (.updateEvent entry task)) s := by
  refine ends_call (PushCall.updateEvent entry task) fun choice hchoice => ?_
  have hfault := not_faultless target details hchoice
  have hdeleted := fun hfaultless : Faultless target details ok => (hfaultless _ choice s hchoice).1
  simp only [pushPort] at hfault ⊢
  split_ifs at hfault ⊢ with h
  · exact hfail choice.deleted (hfault rfl)
  · cases hevent : (s.deleteEvents choice.deleted).events entry.calendarEventId with
    | none => exact hmissing choice.deleted hevent
    | some event => exact hok choice.deleted event hdeleted hevent

theorem deleteEvent_ends {entry : CalendarSyncEntry} {Q : Unit → TaskStores Details → Prop}
    (hfail : ∀ deleted, ¬Faultless target details ok → R (s.deleteEvents deleted))
    (hok : ∀ deleted, Q () ((s.deleteEvents deleted).deleteEvents [entry.calendarEventId])) :
    Ends (pushPort target details) ok Q R (await (.deleteEvent entry)) s := by
  refine ends_call (PushCall.deleteEvent entry) fun choice hchoice => ?_
  have hfault := not_faultless target details hchoice
  simp only [pushPort] at hfault ⊢
  split_ifs at hfault ⊢ with h
  · exact hfail choice.deleted (hfault rfl)
  · exact hok choice.deleted

theorem getSyncEntry_ends {taskId : String} {Q : Option CalendarSyncEntry → TaskStores Details → Prop}
    (hfail : ∀ deleted, ¬Faultless target details ok → R (s.deleteEvents deleted))
    (hok : ∀ deleted, Q s.entry (s.deleteEvents deleted)) :
    Ends (pushPort target details) ok Q R (await (.getSyncEntry taskId)) s := by
  refine ends_call (PushCall.getSyncEntry taskId) fun choice hchoice => ?_
  have hfault := not_faultless target details hchoice
  simp only [pushPort] at hfault ⊢
  split_ifs at hfault ⊢ with h
  · exact hfail choice.deleted (hfault rfl)
  · exact hok choice.deleted

theorem deleteSyncEntry_ends {taskId : String} {Q : Unit → TaskStores Details → Prop}
    (hfail : ∀ deleted, ¬Faultless target details ok → R (s.deleteEvents deleted))
    (hlate : ∀ deleted, ¬Faultless target details ok → R { s.deleteEvents deleted with entry := none })
    (hok : ∀ deleted, Q () { s.deleteEvents deleted with entry := none }) :
    Ends (pushPort target details) ok Q R (await (.deleteSyncEntry taskId)) s := by
  refine ends_call (PushCall.deleteSyncEntry taskId) fun choice hchoice => ?_
  have hfault := not_faultless target details hchoice
  cases houtcome : choice.outcome with
  | succeeds =>
    simp only [pushPort, houtcome, writeEntry]
    exact hok choice.deleted
  | fails =>
    simp only [pushPort, houtcome, writeEntry] at hfault ⊢
    exact hfail choice.deleted (hfault rfl)
  | failsLate =>
    simp only [pushPort, houtcome, writeEntry] at hfault ⊢
    exact hlate choice.deleted (hfault rfl)

variable (hkeeps : ∀ op choice s, ok op choice s → KeepsNew op choice s)

include hkeeps in
theorem upsertSyncEntry_ends {entry : CalendarSyncEntry} {Q : Unit → TaskStores Details → Prop}
    (hfail : ∀ deleted, s.entry.map (·.calendarEventId) = some entry.calendarEventId →
      ¬Faultless target details ok → R (s.deleteEvents deleted))
    (hlate : ∀ deleted, ¬Faultless target details ok → R { s.deleteEvents deleted with entry := some entry })
    (hok : ∀ deleted, (Faultless target details ok → deleted = []) → Q () { s.deleteEvents deleted with entry := some entry }) :
    Ends (pushPort target details) ok Q R (await (.upsertSyncEntry entry)) s := by
  refine ends_call (PushCall.upsertSyncEntry entry) fun choice hchoice => ?_
  have hfault := not_faultless target details hchoice
  have hdeleted := fun hfaultless : Faultless target details ok => (hfaultless _ choice s hchoice).1
  cases houtcome : choice.outcome with
  | succeeds =>
    simp only [pushPort, houtcome, writeEntry]
    exact hok choice.deleted hdeleted
  | fails =>
    simp only [pushPort, houtcome, writeEntry] at hfault ⊢
    exact hfail choice.deleted (hkeeps _ _ _ hchoice entry rfl houtcome) (hfault rfl)
  | failsLate =>
    simp only [pushPort, houtcome, writeEntry] at hfault ⊢
    exact hlate choice.deleted (hfault rfl)

/-! ### The jobs -/

/-- A job of a task ends with its events accounted for, and with what it is for where nothing goes wrong. -/
def EndsWith {A : Type} (target : String) (details : Task → Details)
    (ok : (op : PushCall) → PushChoice → TaskStores Details → Prop) (taskId : String)
    (aim : TaskStores Details → Prop) (x : Push A) (s : TaskStores Details) : Prop :=
  Ends (pushPort target details) ok (fun _ s => Accounted taskId s ∧ (Faultless target details ok → aim s))
    (fun s => Accounted taskId s ∧ ¬Faultless target details ok) x s

/-- A call, then the rest of a job. -/
theorem endsWith_bind {A B : Type} {taskId : String} {aim : TaskStores Details → Prop} {x : Push A} {f : A → Push B}
    (h : Ends (pushPort target details) ok (fun a s => EndsWith target details ok taskId aim (f a) s)
      (fun s => Accounted taskId s ∧ ¬Faultless target details ok) x s) :
    EndsWith target details ok taskId aim (x >>= f) s := ends_bind h fun _ _ hf => hf

variable {task : Task}

include hkeeps in
/-- The entry of a task names the only event that there is, or one that is gone. -/
theorem upsertSyncEntry_endsWith {i : Nat}
    (hentry : ∀ entry, s.entry = some entry → entry.taskId = task.id ∧ entry.calendarEventId = i ∧ entry.calendarId = target)
    (hevents : ∀ j event, s.events j = some event → j = i ∧ event = ⟨target, details task⟩)
    (hmade : Faultless target details ok → s.events i = some ⟨target, details task⟩) :
    EndsWith target details ok task.id (Pushed target details task) (await (.upsertSyncEntry ⟨task.id, i, target⟩)) s := by
  have hwritten : ∀ deleted, Accounted task.id { s.deleteEvents deleted with entry := some ⟨task.id, i, target⟩ } := by
    intro deleted
    constructor
    · rintro entry hsome
      obtain rfl := Option.some.inj hsome
      rfl
    · intro j event hevent
      simp only [TaskStores.deleteEvents] at hevent
      split_ifs at hevent
      obtain ⟨rfl, rfl⟩ := hevents j event hevent
      exact ⟨_, rfl, rfl, rfl⟩
  refine upsertSyncEntry_ends hkeeps ?_ (fun deleted hfault => ⟨hwritten deleted, hfault⟩) ?_
  · intro deleted hnamed hfault
    obtain ⟨entry, hsome, hid⟩ := Option.map_eq_some_iff.1 hnamed
    refine ⟨Accounted.deleteEvents ?_ deleted, hfault⟩
    constructor
    · intro entry' hsome'
      exact (hentry entry' hsome').1
    · intro j event hevent
      obtain ⟨rfl, rfl⟩ := hevents j event hevent
      exact ⟨entry, hsome, hid, (hentry entry hsome).2.2.symm⟩
  · intro deleted hdeleted
    refine ⟨hwritten deleted, fun hfaultless => ⟨i, ?_⟩⟩
    obtain rfl := hdeleted hfaultless
    simp only [TaskStores.deleteEvents, List.not_mem_nil, if_false]
    congr 1
    funext j
    rw [Function.update_apply]
    split_ifs with hj
    · rw [hj, hmade hfaultless]
    · cases hevent : s.events j with
      | none => rfl
      | some event => exact absurd (hevents j event hevent).1 hj

include hkeeps in
/-- The entry that names the new event is written before anything else is done about the task. -/
theorem createCalendarEvent_endsWith (h : Accounted task.id s) (hentry : s.entry = none) :
    EndsWith target details ok task.id (Pushed target details task) (createCalendarEvent target task) s := by
  obtain rfl := h.unpushed hentry
  refine endsWith_bind (createEvent_ends (fun deleted hfault => ⟨h.deleteEvents deleted, hfault⟩) fun deleted i hdeleted => ?_)
  refine upsertSyncEntry_endsWith hkeeps ?_ ?_ ?_
  · intro entry hsome
    cases hsome
  · intro j event hevent
    simp only [TaskStores.deleteEvents, ite_self, Function.update_apply] at hevent
    split_ifs at hevent with hj
    exact ⟨hj, (Option.some.inj hevent).symm⟩
  · intro hfaultless
    exact Function.update_self _ _ _

theorem unpushed_forgotten (hnone : ∀ i, s.events i = none) :
    Unpushed { s with entry := none } := by
  have hfun : s.events = fun _ => none := funext hnone
  simp only [Unpushed, hfun]

/-- An entry goes once its event has gone. -/
theorem deleteSyncEntry_endsWith {A : Type} {taskId id : String} {aim : TaskStores Details → Prop} {f : Unit → Push A}
    (h : Accounted taskId s) (hnone : ∀ i, s.events i = none)
    (hf : ∀ t, Unpushed t → EndsWith target details ok taskId aim (f ()) t) :
    EndsWith target details ok taskId aim (await (.deleteSyncEntry id) >>= f) s := by
  have hforgotten : ∀ again, Unpushed { s.deleteEvents again with entry := none } := by
    intro again
    refine unpushed_forgotten fun i => ?_
    simp only [TaskStores.deleteEvents, hnone, ite_self]
  refine endsWith_bind (deleteSyncEntry_ends (fun again hfault => ⟨h.deleteEvents again, hfault⟩) ?_ ?_)
  · intro again hfault
    exact ⟨(hforgotten again).accounted, hfault⟩
  · intro again
    exact hf _ (hforgotten again)

theorem removeCalendarEntry_endsWith {A : Type} {taskId : String} {aim : TaskStores Details → Prop} {f : Unit → Push A}
    {entry : CalendarSyncEntry} (h : Accounted taskId s) (hentry : s.entry = some entry)
    (hf : ∀ t, Unpushed t → EndsWith target details ok taskId aim (f ()) t) :
    EndsWith target details ok taskId aim (removeCalendarEntry entry >>= f) s := by
  rw [removeCalendarEntry, bind_assoc]
  refine endsWith_bind (deleteEvent_ends (fun deleted hfault => ⟨h.deleteEvents deleted, hfault⟩) fun deleted => ?_)
  refine deleteSyncEntry_endsWith ((h.deleteEvents deleted).deleteEvents [entry.calendarEventId]) (fun i => ?_) hf
  cases hevent : ((s.deleteEvents deleted).deleteEvents [entry.calendarEventId]).events i with
  | none => rfl
  | some event =>
    exfalso
    simp only [TaskStores.deleteEvents, List.mem_singleton] at hevent
    split_ifs at hevent with hi
    obtain ⟨entry', hsome, hid, -⟩ := h.named i event hevent
    obtain rfl := Option.some.inj (hentry.symm.trans hsome)
    exact hi hid.symm

include hkeeps in
theorem syncCalendarPushEntry_endsWith (h : Accounted task.id s) :
    EndsWith target details ok task.id (Pushed target details task) (syncCalendarPushEntry target task s.entry) s := by
  cases hentry : s.entry with
  | none => exact createCalendarEvent_endsWith hkeeps h hentry
  | some existing =>
    by_cases htarget : existing.calendarId = target
    · rw [syncCalendarPushEntry, if_pos htarget]
      refine endsWith_bind (updateEvent_ends (fun deleted hfault => ⟨h.deleteEvents deleted, hfault⟩) ?_ ?_)
      · intro deleted hmissing
        refine deleteSyncEntry_endsWith (h.deleteEvents deleted) (fun i => ?_) fun t ht => ?_
        · cases hevent : (s.deleteEvents deleted).events i with
          | none => rfl
          | some event =>
            obtain ⟨entry, hsome, rfl, -⟩ := (h.deleteEvents deleted).named i event hevent
            obtain rfl := Option.some.inj (hentry.symm.trans hsome)
            rw [hmissing] at hevent
            cases hevent
        · exact createCalendarEvent_endsWith hkeeps ht.accounted (by rw [ht])
      · intro deleted event hdeleted hevent
        have hkept := h.deleteEvents deleted
        have hcalendar : ∀ i other, (s.deleteEvents deleted).events i = some other →
            i = existing.calendarEventId ∧ other.calendarId = target := by
          intro i other hother
          obtain ⟨entry, hsome, rfl, hid⟩ := hkept.named i other hother
          obtain rfl := Option.some.inj (hentry.symm.trans hsome)
          exact ⟨rfl, hid.trans htarget⟩
        have hupdated : ({ event with details := details task } : CalendarEvent Details) = ⟨target, details task⟩ := by
          rw [← (hcalendar _ event hevent).2]
        refine upsertSyncEntry_endsWith hkeeps ?_ ?_ ?_
        · intro entry hsome
          obtain rfl := Option.some.inj (hentry.symm.trans hsome)
          exact ⟨h.own existing hentry, rfl, htarget⟩
        · intro j other hother
          simp only [Function.update_apply] at hother
          split_ifs at hother with hj
          · exact ⟨hj, hupdated ▸ (Option.some.inj hother).symm⟩
          · exact absurd (hcalendar j other hother).1 hj
        · intro hfaultless
          rw [← hupdated]
          exact Function.update_self _ _ _
    · rw [syncCalendarPushEntry, if_neg htarget]
      exact removeCalendarEntry_endsWith h hentry fun t ht =>
        createCalendarEvent_endsWith hkeeps ht.accounted (by rw [ht])

/-- Nothing follows the removal. -/
theorem removeCalendarEntry_endsWith_unpushed {taskId : String} {entry : CalendarSyncEntry} (h : Accounted taskId s)
    (hentry : s.entry = some entry) : EndsWith target details ok taskId Unpushed (removeCalendarEntry entry) s := by
  rw [← bind_pure (removeCalendarEntry entry)]
  refine removeCalendarEntry_endsWith h hentry fun t ht => ?_
  exact ends_pure ⟨ht.accounted, fun _ => ht⟩

/-- A lookup answers with the entry of the task. -/
def LooksUp (target : String) (details : Task → Details)
    (ok : (op : PushCall) → PushChoice → TaskStores Details → Prop)
    (getSyncEntry : String → Push (Option CalendarSyncEntry)) (taskId : String) (s : TaskStores Details) : Prop :=
  Ends (pushPort target details) ok (fun entry s => Accounted taskId s ∧ s.entry = entry)
    (fun s => Accounted taskId s ∧ ¬Faultless target details ok) (getSyncEntry taskId) s

theorem looksUp_store {taskId : String} (h : Accounted taskId s) :
    LooksUp target details ok (fun id => await (.getSyncEntry id)) taskId s :=
  getSyncEntry_ends (fun deleted hfault => ⟨h.deleteEvents deleted, hfault⟩) fun deleted => ⟨h.deleteEvents deleted, rfl⟩

theorem looksUp_inventory {taskId : String} {inventory : String → Option CalendarSyncEntry} (h : Accounted taskId s)
    (hentry : s.entry = inventory taskId) : LooksUp target details ok (fun id => pure (inventory id)) taskId s :=
  ends_pure ⟨h, hentry⟩

variable {getSyncEntry : String → Push (Option CalendarSyncEntry)}

theorem removeCalendarTask_endsWith {taskId : String} (h : LooksUp target details ok getSyncEntry taskId s) :
    EndsWith target details ok taskId Unpushed (removeCalendarTask getSyncEntry taskId) s := by
  refine ends_bind h ?_
  rintro (_ | entry) t ⟨haccounted, hentry⟩
  · have hunpushed := haccounted.unpushed hentry
    exact ends_pure ⟨haccounted, fun _ => hunpushed⟩
  · exact removeCalendarEntry_endsWith_unpushed haccounted hentry

/-- What a sync of the task is for. -/
def Synced (target : String) (details : Task → Details) (task : Task) (s : TaskStores Details) : Prop :=
  if shouldRemoveCalendarPushTask task then Unpushed s else Pushed target details task s

include hkeeps in
theorem syncCalendarPushTask_endsWith (h : LooksUp target details ok getSyncEntry task.id s) :
    EndsWith target details ok task.id (Synced target details task) (syncCalendarPushTask target getSyncEntry task) s := by
  unfold syncCalendarPushTask Synced
  split_ifs with hremove
  · exact removeCalendarTask_endsWith h
  · refine ends_bind h ?_
    rintro entry t ⟨haccounted, rfl⟩
    exact syncCalendarPushEntry_endsWith hkeeps haccounted

end
end Mindwtr.Calendar
