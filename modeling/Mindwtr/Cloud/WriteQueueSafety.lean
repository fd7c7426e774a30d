import Mindwtr.Cloud.WriteQueue

/-!
# Writes of one namespace come one after another

The lock keeps the handlers apart, whatever process they run in, and the queue of a process keeps their order
(`InOrder`). What a handler loads is then the document as it stands (`ReadsAs`), from the cache or from the file, and
the document is what the handlers that published make of it one after another (`writes_serialise`), in every run in
which no document is published while a load outside the queue is between reading the file and asking for its identity.

That load puts the old document into the cache under the identity of the new one. The next handler of its process
loads it and writes over the new document (`torn_read_loses_write`).
-/

namespace Mindwtr.Cloud

open Mindwtr.Lib

section
variable {Process Request Doc Identity : Type}

/-! ### Single processes -/

def SyncCall.isLocked : SyncCall Doc → Bool
  | .reading locked => locked
  | .remembering locked _ => locked
  | .written _ => true

/-- What the lock means for one process. -/
structure HoldsLock (lock : Option Process) (p : Process) (proc : ServerProcess Request Doc Identity) : Prop where
  handling : proc.phase.isHandling = true → lock = some p
  call : ∀ call, proc.call = some call → call.isLocked = true → proc.phase.isHandling = true

/-- The document, as it is read at some time. -/
def ReadsAs (handlers : Handlers Request Doc) (file : Stamped Identity Doc) (doc : Doc) : Prop :=
  ∃ now, doc = storedData handlers now file

/-- What one process has of the document is the document. -/
structure ReadsCurrent (handlers : Handlers Request Doc) (file : Stamped Identity Doc)
    (proc : ServerProcess Request Doc Identity) : Prop where
  parsed : Stamped.Coherent (fun value doc => ∃ now, doc = handlers.readBack now value) file proc.parsed
  remembering : ∀ locked doc, proc.call = some (.remembering locked doc) → ReadsAs handlers file doc
  written : ∀ doc, proc.call = some (.written doc) → ReadsAs handlers file doc
  loaded : ∀ doc, proc.phase = .handling (some doc) → ReadsAs handlers file doc

variable {handlers : Handlers Request Doc} {file : Stamped Identity Doc} {proc : ServerProcess Request Doc Identity}

theorem isHandling_loaded (locked : Bool) (doc : Doc) :
    (proc.loaded locked doc).phase.isHandling = proc.phase.isHandling := by
  unfold ServerProcess.loaded
  split_ifs with h
  · rw [Bool.and_eq_true] at h
    exact h.2.symm
  · rfl

theorem queue_loaded (locked : Bool) (doc : Doc) : (proc.loaded locked doc).queue = proc.queue := by
  unfold ServerProcess.loaded
  split_ifs <;> rfl

theorem ReadsCurrent.ofLoaded (h : ReadsCurrent handlers file proc) {doc : Doc} (hdoc : ReadsAs handlers file doc)
    (locked : Bool) : ReadsCurrent handlers file (proc.loaded locked doc) := by
  unfold ServerProcess.loaded
  split_ifs
  · refine ⟨h.parsed, h.remembering, h.written, ?_⟩
    intro doc' hdoc'
    obtain rfl := Option.some.inj (RunPhase.handling.inj hdoc')
    exact hdoc
  · exact h

theorem coherent_keep_stored {doc : Doc} (h : ReadsAs handlers file doc) :
    Stamped.Coherent (fun value doc => ∃ now, doc = handlers.readBack now value) file (file.keep doc) := by
  obtain ⟨now, hdoc⟩ := h
  apply Stamped.coherent_keep
  intro e he
  refine ⟨now, ?_⟩
  rw [hdoc, storedData, he]

theorem readsAs_of_lookup [DecidableEq Identity] (h : ReadsCurrent handlers file proc) {doc : Doc}
    (hfound : file.lookup proc.parsed = some doc) : ReadsAs handlers file doc := by
  obtain ⟨e, he, now, hdoc⟩ := h.parsed.hit hfound
  refine ⟨now, ?_⟩
  rw [storedData, he, hdoc]

theorem storedData_put {r : Request} {doc written : Doc} (h : handlers.apply r doc = some written)
    (identity : Identity) (now : Nat) : storedData handlers now (file.put identity written) = written :=
  handlers.readBack_apply r doc written h now

/-- A process that makes no use of the document now is not surprised by another one. -/
theorem ReadsCurrent.put (h : ReadsCurrent handlers file proc) {identity : Identity} (hfresh : identity ∉ file.used)
    (written : Doc) (hphase : proc.phase.isHandling = false)
    (hcall : ∀ call, proc.call = some call → ∃ locked, call = .reading locked) :
    ReadsCurrent handlers (file.put identity written) proc where
  parsed := h.parsed.put hfresh written
  remembering locked doc hdoc := by
    obtain ⟨locked', hreading⟩ := hcall _ hdoc
    cases hreading
  written doc hdoc := by
    obtain ⟨locked', hreading⟩ := hcall _ hdoc
    cases hreading
  loaded doc hdoc := by
    rw [hdoc] at hphase
    cases hphase

theorem holdsLock_idle {lock : Option Process} {p : Process} (hphase : proc.phase.isHandling = false)
    (hcall : proc.call = none) : HoldsLock lock p proc where
  handling hhandling := by
    rw [hphase] at hhandling
    cases hhandling
  call call hc := by
    rw [hcall] at hc
    cases hc

def LockInv (s : CloudStore Process Request Doc Identity) : Prop := ∀ p, HoldsLock s.lock p (s.process p)

/-- Two handlers never run at once. -/
theorem LockInv.exclusive {s : CloudStore Process Request Doc Identity} (hinv : LockInv s) {p q : Process}
    (hp : (s.process p).phase.isHandling = true) (hq : (s.process q).phase.isHandling = true) : p = q :=
  Option.some.inj (((hinv p).handling hp).symm.trans ((hinv q).handling hq))

/-- The document that handlers make one after another. -/
def replay (handlers : Handlers Request Doc) (doc : Doc) (requests : List Request) : Option Doc :=
  requests.foldlM (fun doc r => handlers.apply r doc) doc

theorem replay_append {doc doc' written : Doc} {requests : List Request} {r : Request}
    (h : replay handlers doc requests = some doc') (happly : handlers.apply r doc' = some written) :
    replay handlers doc (requests ++ [r]) = some written := by
  rw [replay, List.foldlM_append]
  simp only [replay] at h
  rw [h]
  simpa using happly

/-- The calls of the processes that do not hold the lock. -/
theorem reading_of_notHandling {s : CloudStore Process Request Doc Identity} (hlock : LockInv s) {q : Process}
    (hphase : (s.process q).phase.isHandling = false)
    (htorn : ∀ doc, (s.process q).call ≠ some (.remembering false doc)) :
    ∀ call, (s.process q).call = some call → ∃ locked, call = .reading locked := by
  intro call hcall
  have hnotLocked : call.isLocked ≠ true := by
    intro hlocked
    rw [(hlock q).call call hcall hlocked] at hphase
    cases hphase
  cases call with
  | reading locked => exact ⟨locked, rfl⟩
  | remembering locked doc =>
    cases locked with
    | true => exact absurd rfl hnotLocked
    | false => exact absurd hcall (htorn doc)
  | written doc => exact absurd rfl hnotLocked

/-- The handler that runs. -/
def ServerProcess.running (proc : ServerProcess Request Doc Identity) : List Request :=
  if proc.phase.isHandling then proc.queue.take 1 else []

/-- The queue holds the last requests of a process, and its handlers began in their order. -/
def InOrder (requested started : List Request) (proc : ServerProcess Request Doc Identity) : Prop :=
  ∃ gone, requested = gone ++ proc.queue ∧ started.Sublist (gone ++ proc.running)

theorem InOrder.congr {requested started : List Request} {proc' : ServerProcess Request Doc Identity}
    (h : InOrder requested started proc) (hqueue : proc'.queue = proc.queue)
    (hphase : proc'.phase.isHandling = proc.phase.isHandling) : InOrder requested started proc' := by
  obtain ⟨gone, hrequested, hstarted⟩ := h
  refine ⟨gone, hqueue ▸ hrequested, ?_⟩
  rwa [ServerProcess.running, hqueue, hphase]

/-- The oldest run settles. -/
theorem InOrder.pop {requested started : List Request} {r : Request} {rest : List Request}
    (h : InOrder requested started proc) (hqueue : proc.queue = r :: rest) :
    InOrder requested started { proc with queue := rest, phase := .queued } := by
  obtain ⟨gone, hrequested, hstarted⟩ := h
  refine ⟨gone ++ [r], by simp [hrequested, hqueue], ?_⟩
  have hrunning : proc.running.Sublist [r] := by
    unfold ServerProcess.running
    split_ifs
    · simp [hqueue]
    · simp
  simpa [ServerProcess.running, RunPhase.isHandling] using hstarted.trans (hrunning.append_left gone)

theorem InOrder.sublist {requested started : List Request} (h : InOrder requested started proc) :
    started.Sublist requested := by
  obtain ⟨gone, hrequested, hstarted⟩ := h
  have hrunning : proc.running.Sublist proc.queue := by
    unfold ServerProcess.running
    split_ifs
    · exact List.take_sublist 1 proc.queue
    · exact List.nil_sublist _
  rw [hrequested]
  exact hstarted.trans (hrunning.append_left gone)

/-! ### Steps -/

/-- What a step of one process may do to it alone. -/
inductive ProcessMove (handlers : Handlers Request Doc) (file : Stamped Identity Doc) (aborted : List Request)
    [DecidableEq Identity] (proc : ServerProcess Request Doc Identity) : ServerProcess Request Doc Identity → Prop
  | dropped {r : Request} {rest : List Request} : proc.queue = r :: rest → proc.phase = .queued → r ∈ aborted →
      ProcessMove handlers file aborted proc { proc with queue := rest }
  | began {r : Request} {rest : List Request} : proc.queue = r :: rest → proc.phase = .queued → proc.call = none →
      ProcessMove handlers file aborted proc { proc with phase := .polling }
  | gaveUp {r : Request} {rest : List Request} : proc.queue = r :: rest → proc.phase = .polling →
      proc.call = none → ProcessMove handlers file aborted proc { proc with queue := rest, phase := .queued }
  | hit {locked : Bool} {doc : Doc} : proc.call = none → file.lookup proc.parsed = some doc →
      ProcessMove handlers file aborted proc (proc.loaded locked doc)
  | missed {locked : Bool} : proc.call = none → (locked = true → proc.phase.isHandling = true) →
      ProcessMove handlers file aborted proc { proc with call := some (.reading locked) }
  | read {locked : Bool} {doc : Doc} : proc.call = some (.reading locked) → ReadsAs handlers file doc →
      ProcessMove handlers file aborted proc { proc with call := some (.remembering locked doc) }
  | readFailed {locked : Bool} : proc.call = some (.reading locked) →
      ProcessMove handlers file aborted proc { proc with call := none }
  | remembered {locked : Bool} {doc : Doc} : proc.call = some (.remembering locked doc) →
      ProcessMove handlers file aborted proc
        { proc.loaded locked doc with call := none, parsed := file.keep doc }
  | readDirect {doc : Doc} : proc.phase.isHandling = true → ReadsAs handlers file doc →
      ProcessMove handlers file aborted proc { proc with phase := .handling (some doc) }
  | rememberedWrite {doc : Doc} : proc.call = some (.written doc) →
      ProcessMove handlers file aborted proc { proc with call := none, parsed := file.keep doc }
  | writeFailed : proc.phase.isHandling = true →
      ProcessMove handlers file aborted proc { proc with call := none, parsed := none }
  | forgot : ProcessMove handlers file aborted proc { proc with parsed := none }

@[simp] theorem process_setProcess [DecidableEq Process] (s : CloudStore Process Request Doc Identity) (p q : Process)
    (proc : ServerProcess Request Doc Identity) :
    (s.setProcess p proc).process q = if q = p then proc else s.process q := by
  by_cases h : q = p
  · subst h
    simp [CloudStore.setProcess]
  · simp [CloudStore.setProcess, h]

theorem HoldsLock.move [DecidableEq Identity] {lock : Option Process} {p : Process} {aborted : List Request}
    {proc' : ServerProcess Request Doc Identity} (h : HoldsLock lock p proc)
    (hmove : ProcessMove handlers file aborted proc proc') : HoldsLock lock p proc' := by
  obtain ⟨hlock, hcall⟩ := h
  cases hmove with
  | dropped hqueue hphase _ => exact ⟨hlock, hcall⟩
  | began _ _ hnone => exact holdsLock_idle rfl hnone
  | gaveUp _ _ hnone => exact holdsLock_idle rfl hnone
  | @hit locked doc hnone _ =>
    refine ⟨fun hhandling => hlock ((isHandling_loaded locked doc).symm.trans hhandling), ?_⟩
    intro call hc
    unfold ServerProcess.loaded at hc
    split_ifs at hc
    · simp [hnone] at hc
    · simp [hnone] at hc
  | missed hnone hhandling =>
    refine ⟨hlock, ?_⟩
    intro call hc hlocked
    obtain rfl := Option.some.inj hc
    exact hhandling hlocked
  | read hreading _ =>
    refine ⟨hlock, ?_⟩
    intro call hc hlocked
    obtain rfl := Option.some.inj hc
    exact hcall _ hreading hlocked
  | readFailed => exact ⟨hlock, nofun⟩
  | @remembered locked doc hremembering =>
    exact ⟨fun hhandling => hlock ((isHandling_loaded locked doc).symm.trans hhandling), nofun⟩
  | readDirect hhandling _ => exact ⟨fun _ => hlock hhandling, fun call hc _ => rfl⟩
  | rememberedWrite => exact ⟨hlock, nofun⟩
  | writeFailed => exact ⟨hlock, nofun⟩
  | forgot => exact ⟨hlock, hcall⟩

theorem ReadsCurrent.move [DecidableEq Identity] {aborted : List Request} {proc' : ServerProcess Request Doc Identity}
    (h : ReadsCurrent handlers file proc) (hmove : ProcessMove handlers file aborted proc proc') :
    ReadsCurrent handlers file proc' := by
  cases hmove with
  | dropped => exact ⟨h.parsed, h.remembering, h.written, h.loaded⟩
  | began => exact ⟨h.parsed, h.remembering, h.written, nofun⟩
  | gaveUp => exact ⟨h.parsed, h.remembering, h.written, nofun⟩
  | hit _ hfound => exact h.ofLoaded (readsAs_of_lookup h hfound) _
  | missed => exact ⟨h.parsed, nofun, nofun, h.loaded⟩
  | @read locked doc _ hread =>
    refine ⟨h.parsed, ?_, nofun, h.loaded⟩
    intro locked' doc' hdoc'
    obtain ⟨-, rfl⟩ := SyncCall.remembering.inj (Option.some.inj hdoc')
    exact hread
  | readFailed => exact ⟨h.parsed, nofun, nofun, h.loaded⟩
  | @remembered locked doc hremembering =>
    have hdoc := h.remembering locked doc hremembering
    exact ⟨coherent_keep_stored hdoc, nofun, nofun, (h.ofLoaded hdoc locked).loaded⟩
  | @readDirect doc _ hread =>
    refine ⟨h.parsed, h.remembering, h.written, ?_⟩
    intro doc' hdoc'
    obtain rfl := Option.some.inj (RunPhase.handling.inj hdoc')
    exact hread
  | rememberedWrite hwritten =>
    exact ⟨coherent_keep_stored (h.written _ hwritten), nofun, nofun,
      h.loaded⟩
  | writeFailed =>
    exact ⟨Stamped.coherent_none, nofun, nofun, h.loaded⟩
  | forgot => exact ⟨Stamped.coherent_none, h.remembering, h.written, h.loaded⟩

theorem InOrder.move [DecidableEq Identity] {requested started aborted : List Request}
    {proc' : ServerProcess Request Doc Identity} (h : InOrder requested started proc)
    (hmove : ProcessMove handlers file aborted proc proc') : InOrder requested started proc' := by
  cases hmove with
  | @dropped r rest hqueue hphase =>
    have hpop := h.pop hqueue
    exact hpop.congr rfl (by simp only [hphase])
  | began _ hphase => exact h.congr rfl (by rw [hphase]; rfl)
  | gaveUp hqueue => exact h.pop hqueue
  | hit => exact h.congr (queue_loaded _ _) (isHandling_loaded _ _)
  | missed => exact h.congr rfl rfl
  | read => exact h.congr rfl rfl
  | readFailed => exact h.congr rfl rfl
  | @remembered locked doc => exact h.congr (queue_loaded locked doc) (isHandling_loaded locked doc)
  | readDirect hhandling _ => exact h.congr rfl hhandling.symm
  | rememberedWrite => exact h.congr rfl rfl
  | writeFailed => exact h.congr rfl rfl
  | forgot => exact h.congr rfl rfl

variable [DecidableEq Process] [DecidableEq Identity]

inductive CloudMove (handlers : Handlers Request Doc) (s : CloudStore Process Request Doc Identity) :
    CloudEvent Process Request Identity → CloudStore Process Request Doc Identity → Prop
  | process {e : CloudEvent Process Request Identity} {p : Process} {proc : ServerProcess Request Doc Identity} :
      ProcessMove handlers s.file s.aborted (s.process p) proc → CloudMove handlers s e (s.setProcess p proc)
  | request {p : Process} {r : Request} : r ∉ s.requested.map Prod.snd →
      CloudMove handlers s (.request p r)
        { s.setProcess p { s.process p with queue := (s.process p).queue ++ [r] } with
          requested := s.requested ++ [(p, r)] }
  | abort {r : Request} : CloudMove handlers s (.abort r) { s with aborted := r :: s.aborted }
  | takeLock {p : Process} {r : Request} {rest : List Request} : (s.process p).queue = r :: rest →
      (s.process p).phase = .polling → (s.process p).call = none → s.lock = none → r ∉ s.aborted →
      CloudMove handlers s (.takeLock p)
        { s.setProcess p { s.process p with phase := .handling none } with
          lock := some p
          started := s.started ++ [(p, r)] }
  | publish {p : Process} {identity : Identity} {r : Request} {rest : List Request} {doc written : Doc} :
      (s.process p).queue = r :: rest → (s.process p).phase = .handling (some doc) → (s.process p).call = none →
      handlers.apply r doc = some written → identity ∉ s.file.used →
      CloudMove handlers s (.publish p identity)
        { s.setProcess p { s.process p with phase := .handling none, call := some (.written written) } with
          file := s.file.put identity written
          published := s.published ++ [r] }
  | settle {p : Process} {r : Request} {rest : List Request} {loaded : Option Doc} :
      (s.process p).queue = r :: rest → (s.process p).phase = .handling loaded → (s.process p).call = none →
      CloudMove handlers s (.settle p)
        { s.setProcess p { s.process p with queue := rest, phase := .queued } with lock := none }

theorem cloudMove_of_step [DecidableEq Request] {s t : CloudStore Process Request Doc Identity}
    {e : CloudEvent Process Request Identity} (h : cloudStep handlers s e = some t) : CloudMove handlers s e t := by
  cases e with
  | request p r =>
    simp only [cloudStep] at h
    split_ifs at h with hnew
    obtain rfl := Option.some.inj h
    exact .request hnew
  | abort r =>
    obtain rfl := Option.some.inj h
    exact .abort
  | beginRun p =>
    simp only [cloudStep] at h
    split at h
    · rename_i r rest hqueue hphase hcall
      split_ifs at h with haborted
      · obtain rfl := Option.some.inj h
        exact .process (.dropped hqueue hphase haborted)
      · obtain rfl := Option.some.inj h
        exact .process (.began hqueue hphase hcall)
    · cases h
  | takeLock p =>
    simp only [cloudStep] at h
    split at h
    · rename_i r rest hqueue hphase hcall hlock
      split_ifs at h with haborted
      obtain rfl := Option.some.inj h
      exact .takeLock hqueue hphase hcall hlock haborted
    · cases h
  | giveUp p =>
    simp only [cloudStep] at h
    split at h
    · rename_i r rest hqueue hphase hcall
      obtain rfl := Option.some.inj h
      exact .process (.gaveUp hqueue hphase hcall)
    · cases h
  | load p locked =>
    simp only [cloudStep] at h
    split_ifs at h with hguard
    rw [Bool.or_eq_true, not_or, Bool.not_eq_true, Option.isSome_eq_false_iff, Option.isNone_iff_eq_none,
      Bool.not_eq_true] at hguard
    split at h
    · rename_i doc hfound
      obtain rfl := Option.some.inj h
      exact .process (.hit hguard.1 hfound)
    · obtain rfl := Option.some.inj h
      refine .process (.missed hguard.1 ?_)
      rintro rfl
      simpa using hguard.2
  | readFile p now =>
    simp only [cloudStep] at h
    split at h
    · rename_i locked hcall
      obtain rfl := Option.some.inj h
      exact .process (.read hcall ⟨now, rfl⟩)
    · cases h
  | readFails p =>
    simp only [cloudStep] at h
    split at h
    · rename_i locked hcall
      obtain rfl := Option.some.inj h
      exact .process (.readFailed hcall)
    · cases h
  | remember p =>
    simp only [cloudStep] at h
    split at h
    · rename_i locked doc hcall
      obtain rfl := Option.some.inj h
      exact .process (.remembered hcall)
    · cases h
  | readDirect p now =>
    simp only [cloudStep] at h
    split at h
    · rename_i loaded hphase hcall
      obtain rfl := Option.some.inj h
      exact .process (.readDirect (by rw [hphase]; rfl) ⟨now, rfl⟩)
    · cases h
  | publish p identity =>
    simp only [cloudStep] at h
    split at h
    · rename_i r rest doc hqueue hphase hcall
      split at h
      · rename_i written happly
        split_ifs at h with hfresh
        obtain rfl := Option.some.inj h
        exact .publish hqueue hphase hcall happly hfresh
      · cases h
    · cases h
  | rememberWrite p =>
    simp only [cloudStep] at h
    split at h
    · rename_i doc hcall
      obtain rfl := Option.some.inj h
      exact .process (.rememberedWrite hcall)
    · cases h
  | writeFails p =>
    simp only [cloudStep] at h
    split at h
    · obtain rfl := Option.some.inj h
      exact .process .forgot
    · rename_i loaded doc hphase hcall
      obtain rfl := Option.some.inj h
      exact .process (.writeFailed (by rw [hphase]; rfl))
    · cases h
  | settle p =>
    simp only [cloudStep] at h
    split at h
    · rename_i r rest loaded hqueue hphase hcall
      obtain rfl := Option.some.inj h
      exact .settle hqueue hphase hcall
    · cases h
  | forget p =>
    obtain rfl := Option.some.inj h
    exact .process .forgot

/-! ### The lock -/

theorem lockInv_step {s t : CloudStore Process Request Doc Identity} {e : CloudEvent Process Request Identity}
    (hinv : LockInv s) (hmove : CloudMove handlers s e t) : LockInv t := by
  intro q
  cases hmove with
  | @process e p proc hmove =>
    rw [process_setProcess]
    split_ifs with hq
    · subst hq
      exact (hinv q).move hmove
    · exact hinv q
  | @request p r =>
    have hq := hinv q
    simp only [process_setProcess]
    split_ifs with hqp
    · subst hqp
      exact ⟨hq.handling, hq.call⟩
    · exact hq
  | abort => exact hinv q
  | @takeLock p r rest hqueue hphase hcall hfree =>
    simp only [process_setProcess]
    split_ifs with hqp
    · subst hqp
      exact ⟨fun _ => rfl, fun _ _ _ => rfl⟩
    · refine ⟨?_, (hinv q).call⟩
      intro hhandling
      have hlock := (hinv q).handling hhandling
      rw [hfree] at hlock
      cases hlock
  | @publish p identity r rest doc written hqueue hphase =>
    simp only [process_setProcess]
    split_ifs with hqp
    · subst hqp
      have hlock := (hinv q).handling (by rw [hphase]; rfl)
      exact ⟨fun _ => hlock, fun _ _ _ => rfl⟩
    · exact ⟨(hinv q).handling, (hinv q).call⟩
  | @settle p r rest loaded hqueue hphase hcall =>
    simp only [process_setProcess]
    split_ifs with hqp
    · subst hqp
      exact holdsLock_idle rfl hcall
    · have hholder := (hinv p).handling (by rw [hphase]; rfl)
      refine ⟨?_, (hinv q).call⟩
      intro hhandling
      have hlock := (hinv q).handling hhandling
      rw [hholder] at hlock
      exact absurd (Option.some.inj hlock).symm hqp

/-! ### The document -/

/-- A document is published only while no load outside the queue is between reading the file and asking for its
identity. -/
def NoTornLoad (s : CloudStore Process Request Doc Identity) : CloudEvent Process Request Identity → Prop
  | .publish _ _ => ∀ q doc, (s.process q).call ≠ some (.remembering false doc)
  | _ => True

structure DataInv (handlers : Handlers Request Doc) (file : Stamped Identity Doc)
    (s : CloudStore Process Request Doc Identity) : Prop where
  reads : ∀ p, ReadsCurrent handlers s.file (s.process p)
  replayed : ∀ doc, ReadsAs handlers s.file doc →
    ∃ first, ReadsAs handlers file first ∧ replay handlers first s.published = some doc

theorem dataInv_step {s t : CloudStore Process Request Doc Identity} {e : CloudEvent Process Request Identity}
    {file : Stamped Identity Doc} (hinv : DataInv handlers file s) (hlock : LockInv s) (hok : NoTornLoad s e)
    (hmove : CloudMove handlers s e t) : DataInv handlers file t := by
  obtain ⟨hreads, hreplayed⟩ := hinv
  cases hmove with
  | @process e p proc hmove =>
    refine ⟨?_, hreplayed⟩
    intro q
    rw [process_setProcess]
    split_ifs with hq
    · subst hq
      exact (hreads q).move hmove
    · exact hreads q
  | @request p r =>
    refine ⟨?_, hreplayed⟩
    intro q
    have hq := hreads q
    simp only [process_setProcess]
    split_ifs with hqp
    · subst hqp
      exact ⟨hq.parsed, hq.remembering, hq.written, hq.loaded⟩
    · exact hq
  | abort => exact ⟨hreads, hreplayed⟩
  | @takeLock p r rest hqueue hphase hcall =>
    refine ⟨?_, hreplayed⟩
    intro q
    have hq := hreads q
    simp only [process_setProcess]
    split_ifs with hqp
    · subst hqp
      exact ⟨hq.parsed, hq.remembering, hq.written, nofun⟩
    · exact ⟨hq.parsed, hq.remembering, hq.written, hq.loaded⟩
  | @publish p identity r rest doc written hqueue hphase hcall happly hfresh =>
    have hstored : ∀ now, storedData handlers now (s.file.put identity written) = written :=
      storedData_put happly identity
    have hdoc := (hreads p).loaded doc hphase
    refine ⟨?_, ?_⟩
    · intro q
      simp only [process_setProcess]
      split_ifs with hqp
      · subst hqp
        refine ⟨(hreads q).parsed.put hfresh written, nofun, ?_, nofun⟩
        intro doc' hdoc'
        refine ⟨0, ?_⟩
        rw [hstored, SyncCall.written.inj (Option.some.inj hdoc')]
      · have hother : (s.process q).phase.isHandling = false := by
          rw [← Bool.not_eq_true]
          intro hhandling
          exact hqp (hlock.exclusive hhandling (by rw [hphase]; rfl))
        exact (hreads q).put hfresh written hother (reading_of_notHandling hlock hother (hok q))
    · rintro doc' ⟨now, rfl⟩
      obtain ⟨first, hfirst, hreplay⟩ := hreplayed doc hdoc
      refine ⟨first, hfirst, ?_⟩
      rw [hstored]
      exact replay_append hreplay happly
  | @settle p r rest loaded hqueue hphase hcall =>
    refine ⟨?_, hreplayed⟩
    intro q
    have hq := hreads q
    simp only [process_setProcess]
    split_ifs with hqp
    · subst hqp
      exact ⟨hq.parsed, hq.remembering, hq.written, nofun⟩
    · exact ⟨hq.parsed, hq.remembering, hq.written, hq.loaded⟩

/-! ### The order -/

def requestsOf (p : Process) (pairs : List (Process × Request)) : List Request :=
  (pairs.filter fun e => e.1 = p).map Prod.snd

theorem requestsOf_append (p q : Process) (r : Request) (pairs : List (Process × Request)) :
    requestsOf q (pairs ++ [(p, r)]) = if q = p then requestsOf q pairs ++ [r] else requestsOf q pairs := by
  by_cases h : q = p
  · simp [requestsOf, h]
  · simp [requestsOf, h, Ne.symm h]

def OrderInv (s : CloudStore Process Request Doc Identity) : Prop :=
  ∀ p, InOrder (requestsOf p s.requested) (requestsOf p s.started) (s.process p)

theorem orderInv_step {s t : CloudStore Process Request Doc Identity} {e : CloudEvent Process Request Identity}
    (hinv : OrderInv s) (hmove : CloudMove handlers s e t) : OrderInv t := by
  intro q
  have hq := hinv q
  cases hmove with
  | @process e p proc hmove =>
    rw [process_setProcess]
    split_ifs with hqp
    · subst hqp
      exact hq.move hmove
    · exact hq
  | @request p r =>
    simp only [process_setProcess, requestsOf_append]
    split_ifs with hqp
    · subst hqp
      obtain ⟨gone, hrequested, hstarted⟩ := hq
      refine ⟨gone, by simp [hrequested], hstarted.trans ?_⟩
      apply List.Sublist.append_left
      unfold ServerProcess.running
      split_ifs
      · exact ((List.prefix_append _ _).take 1).sublist
      · simp
    · exact hq
  | abort => exact hq
  | @takeLock p r rest hqueue hphase =>
    simp only [process_setProcess, requestsOf_append]
    split_ifs with hqp
    · subst hqp
      obtain ⟨gone, hrequested, hstarted⟩ := hq
      have hidle : (s.process q).running = [] := by simp [ServerProcess.running, hphase, RunPhase.isHandling]
      rw [hidle, List.append_nil] at hstarted
      refine ⟨gone, hrequested, ?_⟩
      simpa [ServerProcess.running, RunPhase.isHandling, hqueue] using hstarted.append (List.Sublist.refl [r])
    · exact hq
  | @publish p identity r rest doc written hqueue hphase =>
    simp only [process_setProcess]
    split_ifs with hqp
    · subst hqp
      exact hq.congr rfl (by rw [hphase]; rfl)
    · exact hq
  | @settle p r rest loaded hqueue =>
    simp only [process_setProcess]
    split_ifs with hqp
    · subst hqp
      exact hq.pop hqueue
    · exact hq

/-! ### Aborted requests -/

/-- The signal of a request was aborted before its handler began. -/
def AbortedEarly (s : CloudStore Process Request Doc Identity) (r : Request) : Prop :=
  r ∈ s.aborted ∧ r ∉ s.started.map Prod.snd

theorem abortedEarly_step {s t : CloudStore Process Request Doc Identity} {e : CloudEvent Process Request Identity}
    {r : Request} (h : AbortedEarly s r) (hmove : CloudMove handlers s e t) : AbortedEarly t r := by
  obtain ⟨haborted, hstarted⟩ := h
  cases hmove with
  | process => exact ⟨haborted, hstarted⟩
  | request => exact ⟨haborted, hstarted⟩
  | abort => exact ⟨List.mem_cons_of_mem _ haborted, hstarted⟩
  | @takeLock p r' rest _ _ _ _ hlive =>
    refine ⟨haborted, ?_⟩
    have hother : r ≠ r' := by
      rintro rfl
      exact hlive haborted
    simpa [hother] using hstarted
  | publish => exact ⟨haborted, hstarted⟩
  | settle => exact ⟨haborted, hstarted⟩

variable [DecidableEq Request]

/-- The oldest run of a queue makes room when its request was aborted, whatever the lock and the other processes do. -/
theorem aborted_makesRoom {s : CloudStore Process Request Doc Identity} {p : Process} {r : Request}
    {rest : List Request} (hqueue : (s.process p).queue = r :: rest) (haborted : r ∈ s.aborted)
    (hphase : (s.process p).phase.isHandling = false) (hcall : (s.process p).call = none) :
    ∃ e t, cloudStep handlers s e = some t ∧ NoTornLoad s e ∧ (t.process p).queue = rest ∧
      (t.process p).phase = .queued ∧ t.file = s.file ∧ ∀ q, q ≠ p → t.process q = s.process q := by
  cases hstands : (s.process p).phase with
  | queued =>
    refine ⟨.beginRun p, s.setProcess p { s.process p with queue := rest }, ?_, trivial, ?_, ?_, rfl, ?_⟩
    · simp [cloudStep, hqueue, hstands, hcall, haborted]
    · simp
    · simpa using hstands
    · intro q hq
      simp [hq]
  | polling =>
    refine ⟨.giveUp p, s.setProcess p { s.process p with queue := rest, phase := .queued }, ?_, trivial, ?_, ?_,
      rfl, ?_⟩
    · simp [cloudStep, hqueue, hstands, hcall]
    · simp
    · simp
    · intro q hq
      simp [hq]
  | handling loaded =>
    rw [hstands] at hphase
    cases hphase

/-! ### Runs -/

/-- The server is one store whose handlers run one at a time. -/
structure Serialised (handlers : Handlers Request Doc) (file : Stamped Identity Doc)
    (s : CloudStore Process Request Doc Identity) : Prop where
  exclusive : ∀ p q, (s.process p).phase.isHandling = true → (s.process q).phase.isHandling = true → p = q
  ordered : ∀ p, (requestsOf p s.started).Sublist (requestsOf p s.requested)
  /-- What a handler has loaded is the document that was published last. -/
  loaded : ∀ p doc, (s.process p).phase = .handling (some doc) → ReadsAs handlers s.file doc
  /-- The document is what the handlers that published make of the first one, one after another. -/
  final : ∀ doc, ReadsAs handlers s.file doc →
    ∃ first, ReadsAs handlers file first ∧ replay handlers first s.published = some doc

theorem inv_of_reaches {file : Stamped Identity Doc} {s : CloudStore Process Request Doc Identity}
    (h : Reaches (cloudStep handlers) NoTornLoad { file } s) :
    LockInv s ∧ DataInv handlers file s ∧ OrderInv s := by
  refine h.invariant (P := fun s => LockInv s ∧ DataInv handlers file s ∧ OrderInv s) ?_ ?_
  · refine ⟨fun p => holdsLock_idle rfl rfl, ⟨fun p => ⟨Stamped.coherent_none, nofun, nofun, nofun⟩, ?_⟩, ?_⟩
    · exact fun doc hdoc => ⟨doc, hdoc, rfl⟩
    intro p
    exact ⟨[], rfl, List.Sublist.refl []⟩
  · rintro a e b ⟨hlock, hdata, horder⟩ hok hstep
    have hmove := cloudMove_of_step hstep
    exact ⟨lockInv_step hlock hmove, dataInv_step hdata hlock hok hmove, orderInv_step horder hmove⟩

/-- In a run without torn loads the writes of a namespace serialise. In any run a request that was aborted in the queue
never runs and does not hold up the queue. -/
theorem writes_serialise {file : Stamped Identity Doc} {s : CloudStore Process Request Doc Identity}
    (h : Reaches (cloudStep handlers) NoTornLoad { file } s) :
    Serialised handlers file s ∧
    (∀ r, AbortedEarly s r → ∀ t, Reaches (cloudStep handlers) (fun _ _ => True) s t → AbortedEarly t r) ∧
    ∀ p r rest, (s.process p).queue = r :: rest → AbortedEarly s r → (s.process p).phase.isHandling = false →
      (s.process p).call = none → ∃ e t, cloudStep handlers s e = some t ∧ NoTornLoad s e ∧
        (t.process p).queue = rest ∧ (t.process p).phase = .queued ∧ t.file = s.file ∧
        ∀ q, q ≠ p → t.process q = s.process q := by
  obtain ⟨hlock, hdata, horder⟩ := inv_of_reaches h
  refine ⟨?_, ?_, ?_⟩
  · exact {
      exclusive := fun p q hp hq => hlock.exclusive hp hq
      ordered := fun p => (horder p).sublist
      loaded := fun p doc hdoc => (hdata.reads p).loaded doc hdoc
      final := hdata.replayed }
  · intro r hr t ht
    exact ht.invariant hr fun a e b ha _ hstep => abortedEarly_step ha (cloudMove_of_step hstep)
  · intro p r rest hqueue haborted hphase hcall
    exact aborted_makesRoom hqueue haborted.1 hphase hcall

end

/-! ### Torn loads -/

/-- Each request adds its number. -/
def appends : Handlers Nat (List Nat) where
  apply r doc := some (doc ++ [r])
  createDefaultData := []
  readBack _ doc := doc
  readBack_apply _ _ _ _ _ := rfl

def emptyDocument : Stamped Nat (List Nat) where
  current := some (0, [])
  used := [0]
  mem_used := by simp

/-- A request of process `p` until its handler has loaded the document. -/
def loadOf (p : Bool) (r : Nat) : List (CloudEvent Bool Nat Nat) :=
  [.request p r, .beginRun p, .takeLock p, .load p true, .readFile p 0, .remember p]

theorem noTornLoad_loadOf {p : Bool} {r : Nat} {e : CloudEvent Bool Nat Nat} (h : e ∈ loadOf p r)
    (s : CloudStore Bool Nat (List Nat) Nat) : NoTornLoad s e := by
  simp only [loadOf, List.mem_cons, List.not_mem_nil, or_false] at h
  obtain rfl | rfl | rfl | rfl | rfl | rfl := h <;> trivial

/-- A write that is not torn. -/
theorem writes_serialise_one : ∃ s : CloudStore Bool Nat (List Nat) Nat,
    s.published = [1] ∧ Serialised appends emptyDocument s := by
  have hrun : (runEvents (cloudStep appends) { file := emptyDocument } (loadOf true 1)).any (fun s =>
      (s.process true).call.isNone && (s.process false).call.isNone &&
        (cloudStep appends s (.publish true 1)).any fun t => t.published = [1]) = true := by
    decide +kernel
  obtain ⟨s, hs, h⟩ := (Option.any_eq_true _ _).mp hrun
  simp only [Bool.and_eq_true, Option.isNone_iff_eq_none] at h
  obtain ⟨⟨htrue, hfalse⟩, h⟩ := h
  obtain ⟨t, ht, hpublished⟩ := (Option.any_eq_true _ _).mp h
  have hbefore : Reaches (cloudStep appends) NoTornLoad { file := emptyDocument } s := by
    apply reaches_of_runEvents _ hs
    intro before e after a heq _
    have he : e ∈ loadOf true 1 := by simp [heq]
    exact noTornLoad_loadOf he a
  have hok : NoTornLoad s (.publish true 1) := by
    intro q doc hcall
    cases q with
    | true => simp [htrue] at hcall
    | false => simp [hfalse] at hcall
  exact ⟨t, by simpa using hpublished, (writes_serialise (hbefore.step hok ht)).1⟩

/-- Process `false` reads the file for a search, process `true` publishes, and the search puts what it read into the
cache under the new identity. The next write of process `false` starts from there and the first one is lost. -/
theorem torn_read_loses_write : ∃ s : CloudStore Bool Nat (List Nat) Nat,
    Reaches (cloudStep appends) (fun _ _ => True) { file := emptyDocument } s ∧
    s.published = [1, 2] ∧ ReadsAs appends s.file [2] ∧
    ∀ first, ReadsAs appends emptyDocument first → replay appends first s.published ≠ some [2] := by
  have hrun : (runEvents (cloudStep appends) { file := emptyDocument }
      ([.load false false, .readFile false 0] ++ loadOf true 1 ++
        [.publish true 1, .rememberWrite true, .settle true, .remember false, .request false 2, .beginRun false,
          .takeLock false, .load false true, .publish false 2])).any
      (fun s => s.published = [1, 2] && storedData appends 0 s.file = [2]) = true := by
    decide +kernel
  obtain ⟨s, hs, hlost⟩ := reaches_of_any hrun
  simp only [Bool.and_eq_true, decide_eq_true_eq] at hlost
  obtain ⟨hpublished, hdocument⟩ := hlost
  refine ⟨s, hs, hpublished, ⟨0, hdocument.symm⟩, ?_⟩
  rintro first ⟨now, rfl⟩
  have hfirst : storedData appends now emptyDocument = [] := rfl
  rw [hpublished, hfirst]
  decide

end Mindwtr.Cloud
