import Mindwtr.Lib.System
import Mindwtr.Sync.Fence

/-!
# The fence excludes other writers

After `assertHeld` has returned, no other client acquires the fence before the time it was asked for,
unless the client itself asks to release it (`fence_excludes`). The argument follows the generation a
request was decided on: an acquisition decided on the record of a client is decided after that record's
safe deadline, a renewal writes a record whose deadline is not earlier, and a request that lands finds
exactly the generation it was decided on (`FenceInv`).

A lease id is minted for one call, so no two calls share it and the file does not hold it beforehand
(`Conforming`).
-/

namespace Mindwtr.Sync

open Mindwtr.Js Mindwtr.Lib FenceState

/-- Lease ids are minted for one call. -/
structure Conforming (file : Option FenceBytes) (options : Nat → AcquireFenceOptions) : Prop where
  distinct : ∀ c d, (options c).leaseId = (options d).leaseId → c = d
  fresh : ∀ record c, file = some (.text record) → record.leaseId ≠ (options c).leaseId

/-! ### Deadlines -/

theorem safeDeadline_le_expiresAt (r : FenceRecord) : safeDeadline r ≤ r.expiresAt := by
  unfold safeDeadline
  split
  · exact le_refl _
  · exact min_le_left _ _

theorem safeDeadline_record (o : AcquireFenceOptions) {x : Rat} (hx : 0 < x) (t : Rat) :
    safeDeadline (o.record x t) = min (t + o.ttl) (t + x * 3 + 5000) := by
  simp only [safeDeadline, abandonmentDeadline, AcquireFenceOptions.record, if_neg (not_le.2 hx),
    abandonedAfterMissedHeartbeats, abandonedJitterMarginMs]

theorem safeDeadline_record_zero (o : AcquireFenceOptions) (t : Rat) :
    safeDeadline (o.record 0 t) = t + o.ttl := by
  simp [safeDeadline, abandonmentDeadline, AcquireFenceOptions.record]

/-- A later record with no shorter heartbeat has no earlier deadline. -/
theorem safeDeadline_mono (o : AcquireFenceOptions) {x y t u : Rat} (hx : 0 ≤ x) (hxy : x ≤ y)
    (hpos : 0 < y → 0 < x) (htu : t ≤ u) : safeDeadline (o.record x t) ≤ safeDeadline (o.record y u) := by
  rcases hx.lt_or_eq with hx | rfl
  · have hy : 0 < y := lt_of_lt_of_le hx hxy
    rw [safeDeadline_record o hx, safeDeadline_record o hy]
    exact min_le_min (by linarith) (by linarith)
  · have hy : y = 0 := le_antisymm (not_lt.1 fun h => lt_irrefl _ (hpos h)) hxy
    rw [hy, safeDeadline_record_zero, safeDeadline_record_zero]
    linarith

/-! ### The invariant -/

/-- The record is one the client wrote on a read that was not later than now. -/
def WrittenBy (client : FenceClient) (now : Rat) (r : FenceRecord) : Prop :=
  client.options.valid = true ∧ ∃ x t, r = client.options.record x t ∧ t ≤ now ∧ 0 ≤ x ∧
    x ≤ client.advertisedHeartbeatMs ∧ (0 < client.advertisedHeartbeatMs → 0 < x)

/-- The request was decided on a generation with this record. -/
def SeenRecord (q : FenceRequest) (r : FenceRecord) : Prop :=
  ∃ f, q.seen = some f ∧ f.bytes = .text r

/-- What the decision behind a request guarantees. -/
def ActionJustified (s : FenceState) (q : FenceRequest) : FenceAction → Prop
  | .acquire r => WrittenBy (s.clients q.client) s.serverNowMs r ∧
      ∀ r' c, SeenRecord q r' → r'.leaseId = (s.clients c).options.leaseId →
        safeDeadline r' ≤ s.serverNowMs
  | .renew r => WrittenBy (s.clients q.client) s.serverNowMs r ∧
      ∃ r', SeenRecord q r' ∧ r'.leaseId = (s.clients q.client).options.leaseId ∧
        safeDeadline r' ≤ safeDeadline r
  | .remove => s.releaseAsked q.client = true ∧
      ∃ r', SeenRecord q r' ∧ r'.leaseId = (s.clients q.client).options.leaseId

structure RequestInv (s : FenceState) (q : FenceRequest) : Prop where
  seen_lt : ∀ f, q.seen = some f → f.version < s.nextVersion
  seen_eq : ∀ f g, q.seen = some f → s.file = some g → g.version = f.version → g = f
  justified : ActionJustified s q q.action

/-- While a promise runs, the file holds the lease of its client, and longer than promised. -/
def PromiseKept (s : FenceState) (p : FencePromise) : Prop :=
  s.releaseAsked p.client = false → s.serverNowMs < p.untilMs →
    ∃ f r, s.file = some f ∧ f.bytes = .text r ∧ r.leaseId = (s.clients p.client).options.leaseId ∧
      p.untilMs < safeDeadline r

structure FenceInv (s : FenceState) : Prop where
  distinct : ∀ c d, (s.clients c).options.leaseId = (s.clients d).options.leaseId → c = d
  advertised : ∀ c, (s.clients c).options.heartbeat ≤ (s.clients c).advertisedHeartbeatMs
  positive : ∀ c, 0 < (s.clients c).advertisedHeartbeatMs → 0 < (s.clients c).options.heartbeat
  started : ∀ c, (s.clients c).options.valid = true ∨
    (s.clients c).phase = .notStarted ∨ (s.clients c).phase = .failed
  version_lt : ∀ f, s.file = some f → f.version < s.nextVersion
  written : ∀ f r c, s.file = some f → f.bytes = .text r →
    r.leaseId = (s.clients c).options.leaseId → WrittenBy (s.clients c) s.serverNowMs r
  requests : ∀ id q, s.requests id = some q → RequestInv s q
  releasing : ∀ c, (s.clients c).phase = .releaseReading → s.releaseAsked c = true
  promises : ∀ p ∈ s.promises, PromiseKept s p

theorem heartbeat_nonneg {o : AcquireFenceOptions} (h : o.valid = true) : 0 ≤ o.heartbeat := by
  simp only [AcquireFenceOptions.valid, Bool.and_eq_true, decide_eq_true_eq] at h
  exact h.1.1.2.1

theorem fenceInv_init {file : Option FenceBytes} {options : Nat → AcquireFenceOptions}
    (h : Conforming file options) (now : Rat) : FenceInv (FenceState.init file now options) where
  distinct := h.distinct
  advertised _ := le_refl _
  positive _ h := h
  started _ := .inr (.inl rfl)
  version_lt f hf := by
    obtain ⟨bytes, -, rfl⟩ := Option.map_eq_some_iff.1 hf
    exact Nat.zero_lt_one
  written f r c hf hr hlease := by
    obtain ⟨bytes, hbytes, rfl⟩ := Option.map_eq_some_iff.1 hf
    exact absurd hlease (h.fresh r c (hbytes.trans (congrArg some hr)))
  requests id q hq := by cases hq
  releasing c hc := by cases hc
  promises p hp := by cases hp

/-! ### What a client does on its own -/

/-- Nothing but clients, the clock and the wish to release moved. -/
structure QuietStep (s t : FenceState) : Prop where
  file : t.file = s.file
  nextVersion : t.nextVersion = s.nextVersion
  clock : s.serverNowMs ≤ t.serverNowMs
  options : ∀ c, (t.clients c).options = (s.clients c).options
  advertised : ∀ c, (s.clients c).advertisedHeartbeatMs ≤ (t.clients c).advertisedHeartbeatMs
  positive : ∀ c, 0 < (t.clients c).advertisedHeartbeatMs → 0 < (s.clients c).advertisedHeartbeatMs
  asked : ∀ c, s.releaseAsked c = true → t.releaseAsked c = true

section
variable {s t : FenceState}

theorem WrittenBy.quiet {c : Nat} {r : FenceRecord} (h : WrittenBy (s.clients c) s.serverNowMs r)
    (hst : QuietStep s t) : WrittenBy (t.clients c) t.serverNowMs r := by
  obtain ⟨hv, x, u, rfl, hu, hx, hxa, hpos⟩ := h
  exact ⟨by rw [hst.options]; exact hv, x, u, by rw [hst.options], hu.trans hst.clock, hx, hxa.trans (hst.advertised c),
    fun hb => hpos (hst.positive c hb)⟩

theorem ActionJustified.quiet {q : FenceRequest} {a : FenceAction} (h : ActionJustified s q a)
    (hst : QuietStep s t) : ActionJustified t q a := by
  cases a with
  | acquire r =>
    refine ⟨h.1.quiet hst, fun r' c hseen hlease => ?_⟩
    rw [hst.options] at hlease
    exact (h.2 r' c hseen hlease).trans hst.clock
  | renew r =>
    obtain ⟨hwritten, r', hseen, hlease, hle⟩ := h
    exact ⟨hwritten.quiet hst, r', hseen, by rw [hst.options]; exact hlease, hle⟩
  | remove =>
    obtain ⟨hasked, r', hseen, hlease⟩ := h
    exact ⟨hst.asked _ hasked, r', hseen, by rw [hst.options]; exact hlease⟩

theorem RequestInv.quiet {q : FenceRequest} (h : RequestInv s q) (hst : QuietStep s t) :
    RequestInv t q where
  seen_lt f hf := by rw [hst.nextVersion]; exact h.seen_lt f hf
  seen_eq f g hf hg := by rw [hst.file] at hg; exact h.seen_eq f g hf hg
  justified := h.justified.quiet hst

theorem PromiseKept.quiet {p : FencePromise} (h : PromiseKept s p) (hst : QuietStep s t) :
    PromiseKept t p := by
  intro hasked hlt
  have hnot : s.releaseAsked p.client = false := by
    by_contra hne
    simp [hst.asked p.client (by simpa using hne)] at hasked
  obtain ⟨f, r, hf, hr, hlease, hdeadline⟩ := h hnot (lt_of_le_of_lt hst.clock hlt)
  exact ⟨f, r, by rw [hst.file]; exact hf, hr, by rw [hst.options]; exact hlease, hdeadline⟩

/-- A quiet step that sends nothing keeps the invariant. -/
theorem FenceInv.quiet (hs : FenceInv s) (hst : QuietStep s t)
    (hrequests : ∀ id q, t.requests id = some q → s.requests id = some q ∨ RequestInv t q)
    (hpromises : ∀ p ∈ t.promises, p ∈ s.promises ∨ PromiseKept t p)
    (hphase : ∀ c, (t.clients c).phase = .releaseReading → t.releaseAsked c = true)
    (hstarted : ∀ c, (t.clients c).options.valid = true ∨
      (t.clients c).phase = .notStarted ∨ (t.clients c).phase = .failed) : FenceInv t where
  distinct c d h := hs.distinct c d (by rwa [hst.options, hst.options] at h)
  advertised c := by rw [hst.options]; exact (hs.advertised c).trans (hst.advertised c)
  positive c h := by rw [hst.options]; exact hs.positive c (hst.positive c h)
  started := hstarted
  version_lt f hf := by
    rw [hst.nextVersion]
    exact hs.version_lt f (hst.file ▸ hf)
  written f r c hf hr hlease := by
    rw [hst.options] at hlease
    exact (hs.written f r c (hst.file ▸ hf) hr hlease).quiet hst
  requests id q hq := (hrequests id q hq).elim (fun h => (hs.requests id q h).quiet hst) fun h => h
  releasing := hphase
  promises p hp := (hpromises p hp).elim (fun h => (hs.promises p h).quiet hst) fun h => h

/-- A client's own move: its options stay, and the heartbeat it advertises may grow. -/
structure ClientMove (a b : FenceClient) : Prop where
  options : b.options = a.options
  advertised : a.advertisedHeartbeatMs ≤ b.advertisedHeartbeatMs
  positive : 0 < b.advertisedHeartbeatMs → 0 < a.advertisedHeartbeatMs

theorem quietStep_setClient {c : Nat} {b : FenceClient} (h : ClientMove (s.clients c) b) :
    QuietStep s (s.setClient c b) where
  file := rfl
  nextVersion := rfl
  clock := le_refl _
  options d := by
    by_cases hd : d = c
    · subst hd; simp [FenceState.setClient, h.options]
    · simp [FenceState.setClient, hd]
  advertised d := by
    by_cases hd : d = c
    · subst hd; simp [FenceState.setClient, h.advertised]
    · simp [FenceState.setClient, hd]
  positive d := by
    by_cases hd : d = c
    · subst hd; simpa [FenceState.setClient] using h.positive
    · simp [FenceState.setClient, hd]
  asked _ h := h

/-- The phase a client moves to is one its options and its wish to release allow. -/
def PhaseAllowed (s : FenceState) (c : Nat) (phase : FencePhase) : Prop :=
  (phase = .releaseReading → s.releaseAsked c = true) ∧
    ((s.clients c).options.valid = true ∨ phase = .notStarted ∨ phase = .failed)

theorem FenceInv.setClient (hs : FenceInv s) {c : Nat} {b : FenceClient}
    (h : ClientMove (s.clients c) b) (hphase : PhaseAllowed s c b.phase) : FenceInv (s.setClient c b) := by
  refine hs.quiet (quietStep_setClient h) (fun _ _ hq => .inl hq) (fun _ hp => .inl hp) ?_ ?_
  · intro d hd
    by_cases hdc : d = c
    · subst hdc
      exact hphase.1 (by simpa [FenceState.setClient] using hd)
    · exact hs.releasing d (by simpa [FenceState.setClient, hdc] using hd)
  · intro d
    by_cases hdc : d = c
    · subst hdc
      simpa [FenceState.setClient, h.options] using hphase.2
    · simpa [FenceState.setClient, hdc] using hs.started d

theorem FenceInv.setPhase (hs : FenceInv s) {c : Nat} {phase : FencePhase}
    (hphase : PhaseAllowed s c phase) : FenceInv (s.setPhase c phase) :=
  hs.setClient ⟨rfl, le_refl _, fun h => h⟩ hphase

/-- A client in the middle of an operation has valid options. -/
theorem FenceInv.valid (hs : FenceInv s) {c : Nat} (h : (s.clients c).phase ≠ .notStarted)
    (hf : (s.clients c).phase ≠ .failed) : (s.clients c).options.valid = true := by
  rcases hs.started c with hv | hn | hf'
  · exact hv
  · exact absurd hn h
  · exact absurd hf' hf

theorem FenceInv.fail (hs : FenceInv s) (c : Nat) : FenceInv (s.fail c) := by
  have hlease : ∀ phase, (s.clients c).phase = phase → phase ≠ .notStarted → phase ≠ .failed →
      FenceInv (s.setClient c { s.clients c with
        phase := .held
        lostError := (s.clients c).lostError || (s.clients c).background
        background := false }) := by
    rintro phase rfl hn hf
    exact hs.setClient ⟨rfl, le_refl _, fun h => h⟩ ⟨nofun, .inl (hs.valid hn hf)⟩
  unfold FenceState.fail
  dsimp only
  split
  · exact hs
  · exact hs
  · exact hs
  · exact hs.setPhase ⟨nofun, .inr (.inr rfl)⟩
  · exact hs.setPhase ⟨nofun, .inr (.inr rfl)⟩
  · exact hs.setPhase ⟨nofun, .inr (.inr rfl)⟩
  · rename_i hn hf hh _ _ _
    exact hlease _ rfl hn hf

theorem FenceInv.finish (hs : FenceInv s) {c : Nat} (hv : (s.clients c).options.valid = true) :
    FenceInv (s.finish c) :=
  hs.setClient ⟨rfl, le_refl _, fun h => h⟩ ⟨nofun, .inl hv⟩

theorem FenceInv.promise (hs : FenceInv s) {c : Nat} {horizon : Rat}
    (h : PromiseKept s ⟨c, s.serverNowMs + horizon⟩) : FenceInv (s.promise c horizon) := by
  have hst : QuietStep s (s.promise c horizon) :=
    ⟨rfl, rfl, le_refl _, fun _ => rfl, fun _ => le_refl _, fun _ h => h, fun _ h => h⟩
  refine hs.quiet hst (fun _ _ hq => .inl hq) ?_ hs.releasing hs.started
  intro p hp
  rcases List.mem_cons.1 hp with rfl | hp
  · exact .inr (h.quiet hst)
  · exact .inl hp

theorem FenceInv.send (hs : FenceInv s) {c : Nat} {action : FenceAction} {phase : Nat → FencePhase}
    (hphase : PhaseAllowed s c (phase s.nextRequest))
    (hjust : ActionJustified s ⟨c, s.file, action⟩ action) : FenceInv (s.send c action phase) := by
  have hset := hs.setPhase hphase
  have hst : QuietStep s (s.send c action phase) :=
    let h := quietStep_setClient (s := s) (c := c)
      (b := { s.clients c with phase := phase s.nextRequest }) ⟨rfl, le_refl _, fun h => h⟩
    ⟨h.file, h.nextVersion, h.clock, h.options, h.advertised, h.positive, h.asked⟩
  refine hs.quiet hst ?_ (fun _ hp => .inl hp) hset.releasing hset.started
  intro id q hq
  by_cases hid : id = s.nextRequest
  · subst hid
    obtain rfl : ⟨c, s.file, action⟩ = q := by simpa [FenceState.send] using hq
    refine .inr (RequestInv.quiet ⟨hs.version_lt, ?_, hjust⟩ hst)
    rintro f g hf hg -
    exact Option.some.inj (hg.symm.trans hf)
  · exact .inl (by simpa [FenceState.send, hid, FenceState.setPhase, FenceState.setClient] using hq)

/-! ### A request lands -/

/-- The server has taken the request but not applied it. -/
theorem FenceInv.taken (hs : FenceInv s) (id : Nat) (outcome : Bool) :
    FenceInv { s with
      requests := Function.update s.requests id none
      outcomes := Function.update s.outcomes id (some outcome) } := by
  refine hs.quiet ⟨rfl, rfl, le_refl _, fun _ => rfl, fun _ => le_refl _, fun _ h => h, fun _ h => h⟩
    ?_ (fun _ hp => .inl hp) hs.releasing hs.started
  intro id' q hq
  by_cases hid : id' = id
  · subst hid
    simp at hq
  · exact .inl (by simpa [hid] using hq)

/-- A request whose version is the current one was decided on the current file. -/
theorem RequestInv.seen_current {q : FenceRequest} (hq : RequestInv s q)
    (h : s.file.map (·.version) = q.expectedVersion) : q.seen = s.file := by
  unfold FenceRequest.expectedVersion at h
  cases hseen : q.seen with
  | none =>
    rw [hseen] at h
    exact (Option.map_eq_none_iff.1 h).symm
  | some f =>
    rw [hseen] at h
    obtain ⟨g, hg, hversion⟩ := Option.map_eq_some_iff.1 h
    rw [hg, hq.seen_eq f g hseen hg hversion]

/-- The lease of a promise that runs is not taken by an acquisition and not cut by a renewal. -/
theorem PromiseKept.written {p : FencePromise} {q : FenceRequest} {r : FenceRecord} {action : FenceAction}
    (hs : FenceInv s) (hp : PromiseKept s p) (hjust : ActionJustified s q action)
    (haction : action = .acquire r ∨ action = .renew r) (hseen : q.seen = s.file)
    (hasked : s.releaseAsked p.client = false) (hlt : s.serverNowMs < p.untilMs) :
    r.leaseId = (s.clients p.client).options.leaseId ∧ p.untilMs < safeDeadline r := by
  obtain ⟨f, r', hf, hr', hlease, hdeadline⟩ := hp hasked hlt
  rcases haction with rfl | rfl
  · have hle := hjust.2 r' p.client ⟨f, hseen.trans hf, hr'⟩ hlease
    exact absurd (lt_trans hlt hdeadline) (not_lt.2 hle)
  · obtain ⟨⟨-, x, t, hr, -⟩, r'', ⟨f', hf', hr''⟩, hlease', hle⟩ := hjust
    obtain rfl : f = f' := Option.some.inj (hf.symm.trans (hseen.symm.trans hf'))
    obtain rfl : r' = r'' := FenceBytes.text.inj (hr'.symm.trans hr'')
    have hclient := hs.distinct _ _ (hlease'.symm.trans hlease)
    refine ⟨?_, lt_of_lt_of_le hdeadline hle⟩
    rw [hr, ← hclient]
    rfl

/-- The file that a write leaves. -/
theorem FenceInv.write (hs : FenceInv s) {p : FenceRequest} {r : FenceRecord} {action : FenceAction}
    (haction : action = .acquire r ∨ action = .renew r) (hjust : ActionJustified s p action)
    (hseen : p.seen = s.file) :
    FenceInv { s with file := some ⟨.text r, s.nextVersion⟩, nextVersion := s.nextVersion + 1 } where
  distinct := hs.distinct
  advertised := hs.advertised
  positive := hs.positive
  started := hs.started
  version_lt f hf := by
    obtain rfl := Option.some.inj hf
    exact Nat.lt_succ_self _
  written f r' c hf hr hlease := by
    obtain rfl := Option.some.inj hf
    obtain rfl := FenceBytes.text.inj hr
    have hwritten : WrittenBy (s.clients p.client) s.serverNowMs r := by
      rcases haction with rfl | rfl
      · exact hjust.1
      · exact hjust.1
    have hc : p.client = c := by
      refine hs.distinct _ _ (Eq.trans ?_ hlease)
      obtain ⟨-, x, t, rfl, -⟩ := hwritten
      rfl
    exact hc ▸ hwritten
  requests id q hq := by
    have h := hs.requests id q hq
    refine ⟨fun f hf => Nat.lt_succ_of_lt (h.seen_lt f hf), ?_, h.justified⟩
    rintro f g hf hg hversion
    -- the new generation is one no request has seen
    obtain rfl := Option.some.inj hg
    have := h.seen_lt f hf
    simp only at hversion
    omega
  releasing := hs.releasing
  promises q hq hasked hlt := by
    obtain ⟨hlease, hdeadline⟩ :=
      PromiseKept.written hs (hs.promises q hq) hjust haction hseen hasked hlt
    exact ⟨_, r, rfl, rfl, hlease, hdeadline⟩

/-- A client removes its own lease only, after it has asked to. -/
theorem FenceInv.remove (hs : FenceInv s) {p : FenceRequest} (hjust : ActionJustified s p .remove)
    (hseen : p.seen = s.file) : FenceInv { s with file := none } where
  distinct := hs.distinct
  advertised := hs.advertised
  positive := hs.positive
  started := hs.started
  version_lt f hf := by cases hf
  written f r c hf := by cases hf
  requests id q hq := by
    have h := hs.requests id q hq
    exact ⟨h.seen_lt, fun _ _ _ hnone _ => (by cases hnone), h.justified⟩
  releasing := hs.releasing
  promises q hq hasked hlt := by
    obtain ⟨f, r, hf, hr, hlease, -⟩ := hs.promises q hq hasked hlt
    obtain ⟨hrelease, r', ⟨f', hf', hr'⟩, hlease'⟩ := hjust
    obtain rfl : f = f' := Option.some.inj (hf.symm.trans (hseen.symm.trans hf'))
    obtain rfl : r = r' := FenceBytes.text.inj (hr.symm.trans hr')
    have hclient := hs.distinct _ _ (hlease.symm.trans hlease')
    rw [hclient] at hasked
    simp [hrelease] at hasked

theorem FenceInv.land (hs : FenceInv s) {id : Nat} (h : s.land id = some t) : FenceInv t := by
  unfold FenceState.land at h
  split at h
  · cases h
  · rename_i q hq
    have hinv := hs.requests id q hq
    by_cases hversion : s.file.map (·.version) = q.expectedVersion
    · have hseen := hinv.seen_current hversion
      have htaken := hs.taken id true
      have hjust := hinv.justified
      cases haction : q.action with
      | acquire r =>
        simp only [haction, if_pos hversion, Option.some.injEq] at h hjust
        exact h ▸ htaken.write (.inl rfl) hjust hseen
      | renew r =>
        simp only [haction, if_pos hversion, Option.some.injEq] at h hjust
        exact h ▸ htaken.write (.inr rfl) hjust hseen
      | remove =>
        simp only [haction, if_pos hversion, Option.some.injEq] at h hjust
        exact h ▸ htaken.remove hjust hseen
    · simp only [if_neg hversion, Option.some.injEq] at h
      exact h ▸ hs.taken id false

/-- A renewal or a removal that finds another client's lease does nothing. -/
theorem FenceInv.land_other (hs : FenceInv s) {id : Nat} {q : FenceRequest} (hq : s.requests id = some q)
    (hland : s.land id = some t) (haction : ∀ r, q.action ≠ .acquire r) {f : FenceFile} {r : FenceRecord}
    (hf : s.file = some f) (hr : f.bytes = .text r)
    (hother : r.leaseId ≠ (s.clients q.client).options.leaseId) : t.file = s.file := by
  have hinv := hs.requests id q hq
  simp only [FenceState.land, hq] at hland
  split at hland
  · rename_i hversion
    have hseen := hinv.seen_current hversion
    have hown : ∃ r', SeenRecord q r' ∧ r'.leaseId = (s.clients q.client).options.leaseId := by
      have hjust := hinv.justified
      revert hjust
      cases hcase : q.action with
      | acquire r => exact absurd hcase (haction r)
      | renew r => exact fun ⟨_, r', hsaw, hlease, _⟩ => ⟨r', hsaw, hlease⟩
      | remove => exact fun ⟨_, r', hsaw, hlease⟩ => ⟨r', hsaw, hlease⟩
    obtain ⟨r', ⟨f', hf', hr'⟩, hlease⟩ := hown
    obtain rfl : f = f' := Option.some.inj (hf.symm.trans (hseen.symm.trans hf'))
    obtain rfl : r = r' := FenceBytes.text.inj (hr.symm.trans hr')
    exact absurd hlease hother
  · obtain rfl := Option.some.inj hland
    rfl

end

/-! ### Reads -/

theorem WrittenBy.expiresAt_le {client : FenceClient} {now : Rat} {r : FenceRecord}
    (h : WrittenBy client now r) : r.expiresAt ≤ now + maxTtlMs := by
  obtain ⟨hv, x, u, rfl, hu, -⟩ := h
  simp only [AcquireFenceOptions.valid, Bool.and_eq_true, decide_eq_true_eq] at hv
  have httl : client.options.ttl ≤ maxTtlMs := hv.1.1.1.2.2
  show u + client.options.ttl ≤ now + maxTtlMs
  linarith

/-- A lease that covers the horizon keeps the promise. -/
theorem promiseKept_of_remaining {s : FenceState} {c : Nat} {f : FenceFile} {r : FenceRecord} {horizon readAgeMs : Rat}
    (hage : 0 ≤ readAgeMs) (hf : s.file = some f) (hr : f.bytes = .text r)
    (hlease : r.leaseId = (s.clients c).options.leaseId)
    (h : ¬ getSafeAuthorityRemainingMs r s.serverNowMs - readAgeMs ≤ horizon) :
    PromiseKept s ⟨c, s.serverNowMs + horizon⟩ := by
  intro _ _
  refine ⟨f, r, hf, hr, hlease, ?_⟩
  simp only [getSafeAuthorityRemainingMs] at h
  show s.serverNowMs + horizon < safeDeadline r
  linarith

section
variable [Runtime] {s t : FenceState}

/-- A client's own record is read as it was written. -/
theorem FenceInv.parse_own (hs : FenceInv s) {f : FenceFile} {r : FenceRecord} {c : Nat}
    (hf : s.file = some f) (hparse : parseRecord f.bytes = some r)
    (hlease : r.leaseId = (s.clients c).options.leaseId) :
    f.bytes = .text r ∧ WrittenBy (s.clients c) s.serverNowMs r := by
  unfold parseRecord at hparse
  split at hparse
  · cases hparse
  · rename_i record hbytes
    split at hparse
    · obtain rfl := Option.some.inj hparse
      have hwritten := hs.written f record c hf hbytes hlease
      have hheartbeat : record.heartbeatMs.filter (0 ≤ ·) = record.heartbeatMs := by
        obtain ⟨-, x, u, rfl, -, hx, -⟩ := hwritten
        simp [AcquireFenceOptions.record, Option.filter, hx]
      rw [hheartbeat]
      exact ⟨hbytes, hwritten⟩
    · cases hparse

/-- The record an ownership check finds. -/
theorem FenceInv.ownedRecord (hs : FenceInv s) {c : Nat} {readAgeMs : Rat} {r : FenceRecord}
    (h : s.ownedRecord (s.clients c).options readAgeMs = some r) :
    ∃ f, s.file = some f ∧ f.bytes = .text r ∧ r.leaseId = (s.clients c).options.leaseId ∧
      WrittenBy (s.clients c) s.serverNowMs r := by
  unfold FenceState.ownedRecord at h
  obtain ⟨h, -⟩ := Option.filter_eq_some_iff.1 h
  obtain ⟨h, howns⟩ := Option.filter_eq_some_iff.1 h
  obtain ⟨f, hf, hparse⟩ := Option.bind_eq_some_iff.1 h
  simp only [AcquireFenceOptions.owns, Bool.and_eq_true, beq_iff_eq] at howns
  obtain ⟨hbytes, hwritten⟩ := hs.parse_own hf hparse howns.1
  exact ⟨f, hf, hbytes, howns.1, hwritten⟩

theorem FenceInv.verifiedRecord (hs : FenceInv s) {c : Nat} {written r : FenceRecord} {readAgeMs : Rat}
    (h : s.verifiedRecord (s.clients c).options written readAgeMs = some r) :
    ∃ f, s.file = some f ∧ f.bytes = .text r ∧ r.leaseId = (s.clients c).options.leaseId := by
  obtain ⟨h, -⟩ := Option.filter_eq_some_iff.1 h
  obtain ⟨f, hf, hr, hlease, -⟩ := hs.ownedRecord h
  exact ⟨f, hf, hr, hlease⟩

/-- An acquisition is decided on a client's record only after its safe deadline. -/
theorem FenceInv.mayAcquire (hs : FenceInv s) (h : mayAcquire s.file s.serverNowMs = true) {f : FenceFile}
    {r : FenceRecord} {c : Nat} (hf : s.file = some f) (hr : f.bytes = .text r)
    (hlease : r.leaseId = (s.clients c).options.leaseId) : safeDeadline r ≤ s.serverNowMs := by
  rw [hf] at h
  obtain ⟨current, hparse, h⟩ := (Option.any_eq_true _ _).1 h
  have hcurrent : current.leaseId = (s.clients c).options.leaseId := by
    rw [hr] at hparse
    simp only [parseRecord, Option.ite_none_right_eq_some, Option.some.injEq] at hparse
    rw [← hparse.2]
    exact hlease
  obtain ⟨hbytes, hwritten⟩ := hs.parse_own hf hparse hcurrent
  obtain rfl := FenceBytes.text.inj (hr.symm.trans hbytes)
  simp only [Bool.or_eq_true, decide_eq_true_eq] at h
  rcases h with (hexpired | himpossible) | habandoned
  · exact (safeDeadline_le_expiresAt r).trans hexpired
  · have hle := hwritten.expiresAt_le
    have hfar := of_decide_eq_true himpossible
    simp only [maxFutureExpiryToleranceMs] at hfar
    linarith
  · obtain ⟨deadline, hdeadline, hlt⟩ := (Option.any_eq_true _ _).1 habandoned
    have hlt : deadline < s.serverNowMs := by simpa using hlt
    simp only [safeDeadline, hdeadline]
    exact (min_le_right _ _).trans hlt.le

theorem FenceInv.check (hs : FenceInv s) {c : Nat} {horizon readAgeMs : Rat} (hage : 0 ≤ readAgeMs)
    (hv : (s.clients c).options.valid = true) : FenceInv (s.check c horizon readAgeMs) := by
  unfold FenceState.check
  dsimp only
  split
  · exact hs.fail c
  · rename_i r hr
    obtain ⟨f, hf, hbytes, hlease, -⟩ := hs.ownedRecord hr
    split
    · refine hs.setClient ⟨rfl, ?_, ?_⟩ ⟨nofun, .inl hv⟩
      · dsimp only
        split
        · exact le_max_left _ _
        · exact le_refl _
      · dsimp only
        split
        · exact fun _ => ‹_›
        · exact fun h => h
    · rename_i hremaining
      exact (hs.promise (promiseKept_of_remaining hage hf hbytes hlease hremaining)).finish hv

theorem FenceInv.renewVerified (hs : FenceInv s) {c : Nat} {horizon : Option Rat} {written : FenceRecord}
    {readAgeMs : Rat} (hage : 0 ≤ readAgeMs) (hv : (s.clients c).options.valid = true) :
    FenceInv (s.renewVerified c horizon written readAgeMs) := by
  unfold FenceState.renewVerified
  split
  · exact hs.fail c
  · rename_i r hr
    obtain ⟨f, hf, hbytes, hlease⟩ := hs.verifiedRecord hr
    split
    · exact hs.finish hv
    · split
      · exact hs.fail c
      · rename_i hremaining
        exact (hs.promise (promiseKept_of_remaining hage hf hbytes hlease hremaining)).finish hv

theorem FenceInv.read (hs : FenceInv s) {c : Nat} {readAgeMs : Rat} (hage : 0 ≤ readAgeMs)
    (h : s.read c readAgeMs = some t) : FenceInv t := by
  have hvalid : ∀ phase, (s.clients c).phase = phase → phase ≠ .notStarted → phase ≠ .failed →
      (s.clients c).options.valid = true := by
    rintro phase rfl hn hf
    exact hs.valid hn hf
  unfold FenceState.read at h
  dsimp only at h
  split at h
  · rename_i attempt hphase
    have hv := hvalid _ hphase nofun nofun
    split at h
    · rename_i hmay
      obtain rfl := Option.some.inj h
      refine hs.send ⟨nofun, .inl hv⟩ ⟨⟨hv, _, _, rfl, le_refl _, heartbeat_nonneg hv, hs.advertised c,
        hs.positive c⟩, ?_⟩
      rintro r d ⟨f, hf, hr⟩ hlease
      exact hs.mayAcquire hmay hf hr hlease
    · exact Option.some.inj h ▸ hs.fail c
  · rename_i record hphase
    split at h
    · exact Option.some.inj h ▸ hs.fail c
    · exact Option.some.inj h ▸ hs.finish (hvalid _ hphase nofun nofun)
  · rename_i horizon hphase
    exact Option.some.inj h ▸ hs.check hage (hvalid _ hphase nofun nofun)
  · rename_i horizon hphase
    have hv := hvalid _ hphase nofun nofun
    split at h
    · exact Option.some.inj h ▸ hs.fail c
    · rename_i r hr
      obtain rfl := Option.some.inj h
      obtain ⟨f, hf, hbytes, hlease, -, x, u, hrecord, hu, hx, hxa, hpos⟩ := hs.ownedRecord hr
      have hadvertised := (heartbeat_nonneg hv).trans (hs.advertised c)
      refine hs.send ⟨nofun, .inl hv⟩ ⟨⟨hv, _, _, rfl, le_refl _, hadvertised, le_refl _, fun h => h⟩,
        r, ⟨f, hf, hbytes⟩, hlease, ?_⟩
      rw [hrecord]
      exact safeDeadline_mono _ hx hxa hpos hu
  · rename_i horizon record hphase
    exact Option.some.inj h ▸ hs.renewVerified hage (hvalid _ hphase nofun nofun)
  · rename_i hphase
    have hv := hvalid _ hphase nofun nofun
    split at h
    · exact Option.some.inj h ▸ hs.setClient ⟨rfl, le_refl _, fun h => h⟩ ⟨nofun, .inl hv⟩
    · rename_i f hf
      split at h
      · rename_i howns
        obtain rfl := Option.some.inj h
        obtain ⟨r, hparse, howns⟩ := (Option.any_eq_true _ _).1 howns
        simp only [AcquireFenceOptions.owns, Bool.and_eq_true, beq_iff_eq] at howns
        have hbytes := (hs.parse_own hf hparse howns.1).1
        exact hs.send ⟨nofun, .inl hv⟩ ⟨hs.releasing c hphase, r, ⟨f, hf, hbytes⟩, howns.1⟩
      · exact Option.some.inj h ▸ hs.fail c
  · cases h

theorem FenceInv.step (hs : FenceInv s) {e : FenceEvent} (h : fenceStep s e = some t) : FenceInv t := by
  cases e with
  | advance ms =>
    obtain ⟨hms, h⟩ := Option.ite_none_right_eq_some.1 h
    obtain rfl := Option.some.inj h
    exact hs.quiet ⟨rfl, rfl, by simpa using hms, fun _ => rfl, fun _ => le_refl _, fun _ h => h,
      fun _ h => h⟩ (fun _ _ hq => .inl hq) (fun _ hp => .inl hp) hs.releasing hs.started
  | start c =>
    obtain ⟨hphase, h⟩ := Option.ite_none_right_eq_some.1 h
    obtain rfl := Option.some.inj h
    refine hs.setPhase ?_
    by_cases hv : (s.clients c).options.valid = true
    · rw [if_pos hv]
      exact ⟨nofun, .inl hv⟩
    · rw [if_neg hv]
      exact ⟨nofun, .inr (.inr rfl)⟩
  | read c readAgeMs =>
    obtain ⟨hage, h⟩ := Option.ite_none_right_eq_some.1 h
    exact hs.read hage h
  | land id => exact hs.land h
  | answered c =>
    have hmove : ∀ phase, phase ≠ .releaseReading → (s.clients c).options.valid = true →
        FenceInv (s.setPhase c phase) := fun phase hp hv => hs.setPhase ⟨fun h => absurd h hp, .inl hv⟩
    simp only [fenceStep, FenceState.answered] at h
    split at h
    · rename_i attempt record request hphase
      have hv := hs.valid (by rw [hphase]; nofun) (by rw [hphase]; nofun)
      split at h
      · cases h
      · exact Option.some.inj h ▸ hmove _ nofun hv
      · obtain rfl := Option.some.inj h
        refine hmove _ ?_ hv
        split <;> nofun
    · rename_i horizon record request hphase
      have hv := hs.valid (by rw [hphase]; nofun) (by rw [hphase]; nofun)
      split at h
      · cases h
      · exact Option.some.inj h ▸ hmove _ nofun hv
      · exact Option.some.inj h ▸ hs.fail c
    · rename_i request hphase
      have hv := hs.valid (by rw [hphase]; nofun) (by rw [hphase]; nofun)
      split at h
      · cases h
      · exact Option.some.inj h ▸ hs.setClient ⟨rfl, le_refl _, fun h => h⟩ ⟨nofun, .inl hv⟩
      · exact Option.some.inj h ▸ hs.fail c
    · cases h
  | fails c => exact Option.some.inj h ▸ hs.fail c
  | assertHeld c minRemainingMs =>
    obtain ⟨hguard, h⟩ := Option.ite_none_right_eq_some.1 h
    obtain rfl := Option.some.inj h
    have hheld : (s.clients c).phase = .held := by
      have := hguard.1
      simp only [FenceState.operable, Bool.and_eq_true, beq_iff_eq] at this
      exact this.1.1
    exact hs.setPhase ⟨nofun, .inl (hs.valid (by rw [hheld]; nofun) (by rw [hheld]; nofun))⟩
  | renew c heartbeat =>
    obtain ⟨hguard, h⟩ := Option.ite_none_right_eq_some.1 h
    obtain rfl := Option.some.inj h
    have hheld : (s.clients c).phase = .held := by
      simp only [FenceState.operable, Bool.and_eq_true, beq_iff_eq] at hguard
      exact hguard.1.1
    exact hs.setClient ⟨rfl, le_refl _, fun h => h⟩
      ⟨nofun, .inl (hs.valid (by rw [hheld]; nofun) (by rw [hheld]; nofun))⟩
  | release c =>
    obtain ⟨⟨hheld, -⟩, h⟩ := Option.ite_none_right_eq_some.1 h
    obtain rfl := Option.some.inj h
    have hv := hs.valid (c := c) (by rw [hheld]; nofun) (by rw [hheld]; nofun)
    have hasked : FenceInv { s with releaseAsked := Function.update s.releaseAsked c true } := by
      have hgrow : ∀ d, s.releaseAsked d = true → Function.update s.releaseAsked c true d = true := by
        intro d hd
        by_cases hdc : d = c
        · simp [hdc]
        · simpa [hdc] using hd
      exact hs.quiet ⟨rfl, rfl, le_refl _, fun _ => rfl, fun _ => le_refl _, fun _ h => h, hgrow⟩
        (fun _ _ hq => .inl hq) (fun _ hp => .inl hp) (fun d hd => hgrow d (hs.releasing d hd)) hs.started
    exact hasked.setPhase ⟨fun _ => by simp, .inl hv⟩

/-! ### Runs -/

theorem fenceInv_of_reaches {file : Option FenceBytes} {now : Rat} {options : Nat → AcquireFenceOptions}
    (h : Conforming file options)
    (hs : Reaches fenceStep (fun _ _ => True) (FenceState.init file now options) s) : FenceInv s :=
  hs.invariant (fenceInv_init h now) fun _ _ _ ha _ hab => ha.step hab

/-- While a promise runs, no other client's verifying read finds its own record. -/
theorem FenceInv.not_acquires (hs : FenceInv s) {p : FencePromise} {c : Nat} (hp : p ∈ s.promises)
    (hasked : s.releaseAsked p.client = false) (hlt : s.serverNowMs < p.untilMs) (hc : c ≠ p.client) :
    s.acquires c = false := by
  by_contra hacquires
  obtain ⟨f, r, hf, hr, hlease, -⟩ := hs.promises p hp hasked hlt
  simp only [FenceState.acquires, Bool.not_eq_false] at hacquires
  split at hacquires
  · obtain ⟨r', hr'⟩ := Option.isSome_iff_exists.1 hacquires
    obtain ⟨f', hf', hbytes, hlease'⟩ := hs.verifiedRecord hr'
    obtain rfl : f = f' := Option.some.inj (hf.symm.trans hf')
    obtain rfl : r = r' := FenceBytes.text.inj (hr.symm.trans hbytes)
    exact hc (hs.distinct _ _ (hlease'.symm.trans hlease))
  · cases hacquires

end

/-- Two clients, one lease id each. -/
def twoClients (c : Nat) : AcquireFenceOptions :=
  { ownerId := "device", purpose := .ordinarySync, leaseId := "lease-00" ++ String.ofList (List.replicate c '1') }

theorem conforming_twoClients : Conforming none twoClients where
  distinct c d h := by
    have := congrArg String.length h
    simp [twoClients] at this
    exact this
  fresh record c h := by cases h

/-- Client `0` acquires the fence and is promised 35 seconds. -/
def promisedRun : List FenceEvent :=
  [.start 0, .read 0 0, .land 0, .answered 0, .read 0 0, .assertHeld 0 35000, .read 0 0]

end Mindwtr.Sync
