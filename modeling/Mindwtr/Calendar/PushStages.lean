import Mindwtr.Calendar.PushTask

/-!
# The stages of a push run

What holds between the stages of a run, for any reading of what each stage is for (`Stages`): a run that is
idle, has read the entries, or has synced its tasks. `Stages.Sound` has what each stage owes to the next one,
and `Stages.holds_of_reaches` takes it to whole histories, whatever the workers do in between.
-/

namespace Mindwtr.Calendar

open Mindwtr.Js Mindwtr.Sync Mindwtr.Store Mindwtr.Lib

abbrev AllStores (Details : Type) := String → TaskStores Details

/-- A step of a history where calls are settled as `callOk` says; a quiet one only carries on with the run. -/
structure Admits [LocalCalendar] {Details : Type}
    (callOk : String → (op : PushCall) → PushChoice → TaskStores Details → Prop) (quiet : Prop) (s : PushSystem Details)
    (e : PushEvent) : Prop where
  settles : ∀ run pool w, s.run = some run → run.phase.pool? = some pool → e = .worker w →
    WorkerPool.Settles (callOk run.target) (s.stores, pool) w
  /-- Nothing but the run changes the stores, and every read of the entries is answered. -/
  undisturbed : quiet → e ≠ .inventory false ∧ (∀ id deleted, e ≠ .userDeletes id deleted) ∧
    ∀ id deleted, e ≠ .worker (.disturb id deleted)
  unstarted : quiet →
    (∀ tasks target nowIso clock concurrency, e ≠ .startFull tasks target nowIso clock concurrency) ∧
    ∀ taskIds tasksById target nowIso clock concurrency, e ≠ .startPartial taskIds tasksById target nowIso clock concurrency
  /-- The tasks that a run pushes have distinct ids. -/
  distinctFull : ∀ tasks target nowIso clock concurrency calendarTasks,
    e = .startFull tasks target nowIso clock concurrency →
      expandCalendarTasks tasks nowIso clock = .ok calendarTasks → (calendarTasks.map (·.id)).Nodup
  distinctPartial : ∀ taskIds tasksById target nowIso clock concurrency targets removedIds,
    e = .startPartial taskIds tasksById target nowIso clock concurrency →
      partialTargets taskIds tasksById nowIso clock = .ok (targets, removedIds) → (targets.map (·.id)).Nodup

structure Stages (Details : Type) where
  details : Task → Details
  /-- The ways in which calls may be settled, where new events go to the calendar `target`. -/
  callOk : String → (op : PushCall) → PushChoice → TaskStores Details → Prop
  /-- Nothing but the run changes the stores, and every read of the entries is answered. -/
  quiet : Prop
  idle : List String → AllStores Details → Prop
  reading : String → List Task → List String → AllStores Details → Prop
  synced : String → AfterSync → List String → AllStores Details → Prop

namespace Stages

variable {Details : Type} (S : Stages Details)

/-- The workers will leave the stores as `post` says, whatever is deleted meanwhile. -/
def Pending (target : String) (pool : PushPool) (post : AllStores Details → Prop) (stores : AllStores Details) : Prop :=
  ∃ Ready Done : String → TaskStores Details → Prop,
    (¬S.quiet → ∀ id s deleted, Ready id s → Ready id (s.deleteEvents deleted)) ∧
    (¬S.quiet → ∀ id s deleted, Done id s → Done id (s.deleteEvents deleted)) ∧
    WorkerPool.Inv (pushPort target S.details) (S.callOk target) Ready Done stores pool ∧
    ∀ after : AllStores Details, (∀ id, Done id (after id)) → post after

def PhaseHolds (target : String) (phase : PushPhase) (known : List String) (stores : AllStores Details) : Prop :=
  match phase with
  | .reading calendarTasks => S.reading target calendarTasks known stores
  | .syncing _ pool next => S.Pending target pool (S.synced target next known) stores
  | .reviewing _ _ active => S.synced target (.findStale active) known stores
  | .removing _ _ _ pool => S.Pending target pool (S.idle known) stores

def Holds (s : PushSystem Details) : Prop :=
  match s.run with
  | none => S.idle s.known s.stores
  | some run => S.PhaseHolds run.target run.phase s.known s.stores

/-- What each stage owes to the next one. -/
structure Sound [LocalCalendar] : Prop where
  deleteIdle : ¬S.quiet → ∀ known stores id deleted, S.idle known stores →
    S.idle known (Function.update stores id ((stores id).deleteEvents deleted))
  deleteReading : ¬S.quiet → ∀ target calendarTasks known stores id deleted, S.reading target calendarTasks known stores →
    S.reading target calendarTasks known (Function.update stores id ((stores id).deleteEvents deleted))
  deleteSynced : ¬S.quiet → ∀ target next known stores id deleted, S.synced target next known stores →
    S.synced target next known (Function.update stores id ((stores id).deleteEvents deleted))
  abortReading : ¬S.quiet → ∀ target calendarTasks known stores, S.reading target calendarTasks known stores →
    S.idle known stores
  abortReview : ¬S.quiet → ∀ target next known stores, S.synced target next known stores → S.idle known stores
  startFull : ¬S.quiet → ∀ target calendarTasks known stores, (calendarTasks.map (·.id)).Nodup → S.idle known stores →
    S.reading target calendarTasks (known ++ calendarTasks.map (·.id)).dedup stores
  startPartial : ¬S.quiet → ∀ taskIds tasksById nowIso clock target targets removedIds known stores,
    partialTargets taskIds tasksById nowIso clock = .ok (targets, removedIds) → (targets.map (·.id)).Nodup →
      S.idle known stores →
        S.Pending target (syncPool target (fun id => await (.getSyncEntry id)) targets)
          (S.synced target (.remove removedIds) (known ++ targets.map (·.id) ++ removedIds).dedup) stores
  read : ∀ target calendarTasks known stores, S.reading target calendarTasks known stores →
    S.Pending target (syncPool target (fun id => pure (entryOf (allSyncEntries known stores) id)) calendarTasks)
      (S.synced target (.findStale (activeTaskIds calendarTasks)) known) stores
  review : ∀ target active known stores, S.synced target (.findStale active) known stores →
    S.Pending target (removeEntryPool (findStale active (allSyncEntries known stores))) (S.idle known) stores
  remove : ∀ target removedIds known stores, S.synced target (.remove removedIds) known stores →
    S.Pending target (removeTaskPool removedIds) (S.idle known) stores

variable {S}

/-- The workers go on with what is pending. -/
theorem Pending.workers [LocalCalendar] {s : PushSystem Details} {target : String} {concurrency : Nat}
    {pool pool' : PushPool} {post : AllStores Details → Prop} {w : WorkerEvent String PushChoice (List Nat)}
    {stores' : AllStores Details} (h : S.Pending target pool post s.stores)
    (hsettles : WorkerPool.Settles (S.callOk target) (s.stores, pool) w) (hadmits : Admits S.callOk S.quiet s (.worker w))
    (hstep : s.workers S.details target concurrency pool w = some (stores', pool')) :
    S.Pending target pool' post stores' := by
  obtain ⟨Ready, Done, hready, hdone, hinv, hpost⟩ := h
  refine ⟨Ready, Done, hready, hdone, ?_, hpost⟩
  have hloud : ∀ id deleted, w = .disturb id deleted → ¬S.quiet := by
    rintro id deleted rfl hquiet
    exact (hadmits.undisturbed hquiet).2.2 id deleted rfl
  exact @WorkerPool.Inv.step _ _ _ _ _ _ _ _ _ _ _ _ _ _ (s.stores, pool) (stores', pool') _ _ hinv hsettles
    (fun id deleted hw => hready (hloud id deleted hw) id _ deleted)
    (fun id deleted hw => hdone (hloud id deleted hw) id _ deleted) hstep

theorem Pending.over {target : String} {pool : PushPool} {post : AllStores Details → Prop} {stores : AllStores Details}
    (h : S.Pending target pool post stores) (hover : pool.IsOver = true) : post stores := by
  obtain ⟨Ready, Done, -, -, hinv, hpost⟩ := h
  exact hpost stores (hinv.done hover)

theorem Sound.step [LocalCalendar] (hS : S.Sound) {s t : PushSystem Details} {e : PushEvent} (h : S.Holds s)
    (hadmits : Admits S.callOk S.quiet s e) (hstep : s.step S.details e = some t) : S.Holds t := by
  obtain ⟨stores, known, run, result⟩ := s
  rcases run with _ | ⟨target, concurrency, phase⟩
  · cases e with
    | startFull tasks target nowIso clock concurrency =>
      have hloud : ¬S.quiet := fun hquiet => (hadmits.unstarted hquiet).1 _ _ _ _ _ rfl
      simp only [PushSystem.step] at hstep
      split at hstep
      · obtain rfl := Option.some.inj hstep
        exact h
      · rename_i calendarTasks hexpand
        obtain rfl := Option.some.inj hstep
        exact hS.startFull hloud target calendarTasks known stores (hadmits.distinctFull _ _ _ _ _ _ rfl hexpand) h
    | startPartial taskIds tasksById target nowIso clock concurrency =>
      have hloud : ¬S.quiet := fun hquiet => (hadmits.unstarted hquiet).2 _ _ _ _ _ _ rfl
      simp only [PushSystem.step] at hstep
      split at hstep
      · obtain rfl := Option.some.inj hstep
        exact h
      · rename_i targets removedIds htargets
        obtain rfl := Option.some.inj hstep
        exact hS.startPartial hloud _ _ _ _ target targets removedIds known stores htargets
          (hadmits.distinctPartial _ _ _ _ _ _ _ _ rfl htargets) h
    | userDeletes id deleted =>
      have hloud : ¬S.quiet := fun hquiet => (hadmits.undisturbed hquiet).2.1 id deleted rfl
      obtain rfl := Option.some.inj hstep
      exact hS.deleteIdle hloud known stores id deleted h
    | _ => cases hstep
  · cases phase with
    | reading calendarTasks =>
      cases e with
      | inventory answers =>
        cases answers with
        | false =>
          have hloud : ¬S.quiet := fun hquiet => (hadmits.undisturbed hquiet).1 rfl
          obtain rfl := Option.some.inj hstep
          exact hS.abortReading hloud target calendarTasks known stores h
        | true =>
          obtain rfl := Option.some.inj hstep
          exact hS.read target calendarTasks known stores h
      | userDeletes id deleted =>
        have hloud : ¬S.quiet := fun hquiet => (hadmits.undisturbed hquiet).2.1 id deleted rfl
        obtain rfl := Option.some.inj hstep
        exact hS.deleteReading hloud target calendarTasks known stores id deleted h
      | _ => cases hstep
    | syncing total pool next =>
      cases e with
      | worker w =>
        obtain ⟨⟨stores', pool'⟩, hworkers, rfl⟩ := Option.map_eq_some_iff.1 hstep
        have hsettles := hadmits.settles ⟨target, concurrency, .syncing total pool next⟩ pool w rfl rfl rfl
        exact Pending.workers h hsettles hadmits hworkers
      | settled =>
        simp only [PushSystem.step] at hstep
        split_ifs at hstep with hover
        have hsynced := h.over (by simpa using hover)
        cases next with
        | findStale active =>
          obtain rfl := Option.some.inj hstep
          exact hsynced
        | remove removedIds =>
          obtain rfl := Option.some.inj hstep
          exact hS.remove target removedIds known stores hsynced
      | _ => cases hstep
    | reviewing total failed active =>
      cases e with
      | inventory answers =>
        cases answers with
        | false =>
          have hloud : ¬S.quiet := fun hquiet => (hadmits.undisturbed hquiet).1 rfl
          obtain rfl := Option.some.inj hstep
          exact hS.abortReview hloud target (.findStale active) known stores h
        | true =>
          obtain rfl := Option.some.inj hstep
          exact hS.review target active known stores h
      | userDeletes id deleted =>
        have hloud : ¬S.quiet := fun hquiet => (hadmits.undisturbed hquiet).2.1 id deleted rfl
        obtain rfl := Option.some.inj hstep
        exact hS.deleteSynced hloud target (.findStale active) known stores id deleted h
      | _ => cases hstep
    | removing total failed removed pool =>
      cases e with
      | worker w =>
        obtain ⟨⟨stores', pool'⟩, hworkers, rfl⟩ := Option.map_eq_some_iff.1 hstep
        have hsettles := hadmits.settles ⟨target, concurrency, .removing total failed removed pool⟩ pool w rfl rfl rfl
        exact Pending.workers h hsettles hadmits hworkers
      | settled =>
        simp only [PushSystem.step] at hstep
        split_ifs at hstep with hover
        obtain rfl := Option.some.inj hstep
        exact h.over (by simpa using hover)
      | _ => cases hstep

theorem Sound.holds_of_reaches [LocalCalendar] (hS : S.Sound) {s t : PushSystem Details} (h : S.Holds s)
    (hrun : Reaches (PushSystem.step S.details) (Admits S.callOk S.quiet) s t) : S.Holds t :=
  hrun.invariant h fun _ _ _ hholds hadmits hstep => hS.step hholds hadmits hstep

end Stages
end Mindwtr.Calendar
