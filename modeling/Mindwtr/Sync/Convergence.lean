import Mindwtr.Lib.Tournament
import Mindwtr.Sync.Outranks

/-!
# Many devices, one remote copy

Devices that each hold a version of one entity sync with one remote copy: a sync step merges the two
versions and both sides keep the winner. The merge is a rule for pairs, and three versions can
outrank each other in a circle (`circular_versions_never_settle`). Where the versions in play form no
such circle the steps are exchanges of a `Board` over the linear order the rule then is
(`sync_simulates_exchange`), so two passes over all devices settle the entity for good
(`devices_converge`).
-/

namespace Mindwtr.Sync

open Mindwtr.Js MergeableEntity Mindwtr.Lib

/-- The versions the devices hold and the remote copy. -/
structure Replicas (D α : Type) where
  held : D → α
  remote : α

section
variable [Runtime] {α : Type} [MergeableEntity α] {D : Type}

/-- The version a merge of the two keeps. -/
def keptVersion (now : Int) (l i : α) : α :=
  (winnerSide now (normalizeTimestamps l (some i)) (normalizeTimestamps i (some l))).pick
    (normalizeTimestamps l (some i)) (normalizeTimestamps i (some l))

theorem entityId_keptVersion (now : Int) {l i : α} {key : String} (hl : entityId l = key)
    (hi : entityId i = key) : entityId (keptVersion now l i) = key := by
  unfold keptVersion
  cases winnerSide now (normalizeTimestamps l (some i)) (normalizeTimestamps i (some l)) <;>
    simp [hl, hi]

/-- All replicas are versions of the entity `key`. -/
def Replicas.OfEntity (st : Replicas D α) (key : String) : Prop :=
  entityId st.remote = key ∧ ∀ d, entityId (st.held d) = key

/-! ### Versions in play -/

/-- A version the replicas start with, or one of these with its `createdAt` repaired. -/
inductive InPlay (start : Replicas D α) : α → Prop
  | held (d : D) : InPlay start (start.held d)
  | remote : InPlay start start.remote
  | repaired {a b : α} : InPlay start a → InPlay start b →
      InPlay start (normalizeTimestamps a (some b))

/-- A version in play that needs no repair. -/
def Settleable (start : Replicas D α) (a : α) : Prop :=
  InPlay start a ∧ createdAfterUpdated a = false

/-- The full signatures of the versions in play. -/
def signaturesInPlay (start : Replicas D α) : Set (Option String) :=
  {s | ∃ a, Settleable start a ∧ fullSignature a = s}

/-- Some version with signature `s` outranks some version with the other signature `t`, at one of
the clocks. -/
def Beats (start : Replicas D α) (clocks : Set Int) (s t : Option String) : Prop :=
  s ≠ t ∧ ∃ a b, Settleable start a ∧ Settleable start b ∧ fullSignature a = s ∧
    fullSignature b = t ∧ ∃ now ∈ clocks, Outranks now a b

/-- No two and no three versions in play outrank each other in a circle. -/
def NoCircle (start : Replicas D α) (clocks : Set Int) : Prop :=
  (∀ s t, Beats start clocks s t → ¬Beats start clocks t s) ∧
    ∀ s t u, Beats start clocks s t → Beats start clocks t u → ¬Beats start clocks u s

theorem inPlay_entityId {start : Replicas D α} {key : String} (h : start.OfEntity key) {a : α}
    (ha : InPlay start a) : entityId a = key := by
  induction ha with
  | held d => exact h.2 d
  | remote => exact h.1
  | repaired _ _ iha _ => rwa [entityId_normalizeTimestamps]

theorem settleable_normalize {start : Replicas D α} {a b : α} (ha : InPlay start a)
    (hb : InPlay start b) : Settleable start (normalizeTimestamps a (some b)) :=
  ⟨.repaired ha hb, createdAfterUpdated_normalizeTimestamps a (some b)⟩

theorem normalizeTimestamps_of_settleable {start : Replicas D α} {a : α} (ha : Settleable start a)
    (c : Option α) : normalizeTimestamps a c = a := by
  rw [normalizeTimestamps, if_neg (by simp [ha.2])]

section play
variable {start : Replicas D α} {clocks : Set Int} {key : String}
  (hstart : start.OfEntity key) (hkey : isBlank key = false)
include hstart hkey

theorem settleable_hasSignature {a : α} (ha : Settleable start a) : HasSignature (record a) :=
  hasSignature_record (by rwa [inPlay_entityId hstart ha.1])

/-- The rule prefers one of two different signatures. -/
theorem circleFree_of_noCircle (hclock : clocks.Nonempty) (h : NoCircle start clocks) :
    CircleFree (signaturesInPlay start) (Beats start clocks) := by
  refine ⟨?_, fun s _ t _ => h.1 s t, fun s _ t _ u _ => h.2 s t u⟩
  rintro _ ⟨a, ha, rfl⟩ _ ⟨b, hb, rfl⟩ hne
  obtain ⟨now, hnow⟩ := hclock
  rcases winnerSide_outranks now (settleable_hasSignature hstart hkey ha)
    (settleable_hasSignature hstart hkey hb) with heq | ⟨-, hout⟩ | ⟨-, hout⟩
  · exact absurd heq hne
  · exact .inl ⟨hne, a, b, ha, hb, rfl, rfl, now, hnow, hout⟩
  · exact .inr ⟨hne.symm, b, a, hb, ha, rfl, rfl, now, hnow, hout⟩

end play

/-- The signatures in play as a type of its own, to be ordered by the rule. -/
def PlaySignature (start : Replicas D α) : Type := signaturesInPlay start

def PlaySignature.value {start : Replicas D α} (s : PlaySignature start) : Option String := s.1

theorem PlaySignature.ext {start : Replicas D α} {s t : PlaySignature start}
    (h : s.value = t.value) : s = t := Subtype.ext h

/-- The signature of a version in play, as an element of the order. -/
def signatureIn (start : Replicas D α) {a : α} (ha : Settleable start a) : PlaySignature start :=
  ⟨fullSignature a, a, ha, rfl⟩

/-- What a merge keeps of two versions in play needs no repair. -/
theorem settleable_kept {start : Replicas D α} {l i : α} (now : Int) (hl : InPlay start l)
    (hi : InPlay start i) : Settleable start (keptVersion now l i) := by
  unfold keptVersion
  cases winnerSide now (normalizeTimestamps l (some i)) (normalizeTimestamps i (some l)) with
  | localItem => exact settleable_normalize hl hi
  | incomingItem => exact settleable_normalize hi hl

section order
variable {start : Replicas D α} {clocks : Set Int} {key : String}
  (hstart : start.OfEntity key) (hkey : isBlank key = false)
  [LinearOrder (PlaySignature start)]
  (horder : ∀ s t : PlaySignature start, Beats start clocks t.value s.value → s ≤ t)
include hstart hkey horder

/-- In the order of the rule a merge keeps the greater of two signatures. -/
theorem signature_kept {l i : α} {now : Int} (hnow : now ∈ clocks) (hl : InPlay start l)
    (hi : InPlay start i) :
    signatureIn start (settleable_kept now hl hi) =
      signatureIn start (settleable_normalize hl hi) ⊔ signatureIn start (settleable_normalize hi hl) := by
  have hsl := settleable_normalize hl hi
  have hsi := settleable_normalize hi hl
  have hbeats : ∀ {a b : α} (ha : Settleable start a) (hb : Settleable start b),
      fullSignature a ≠ fullSignature b → Outranks now a b →
      signatureIn start hb ≤ signatureIn start ha := fun ha hb hne hout =>
    horder _ _ ⟨hne, _, _, ha, hb, rfl, rfl, now, hnow, hout⟩
  by_cases heq : fullSignature (normalizeTimestamps l (some i)) =
      fullSignature (normalizeTimestamps i (some l))
  · have hsame : signatureIn start hsl = signatureIn start hsi := PlaySignature.ext heq
    rw [hsame, sup_idem]
    refine PlaySignature.ext ?_
    show fullSignature (keptVersion now l i) = _
    unfold keptVersion
    cases winnerSide now (normalizeTimestamps l (some i)) (normalizeTimestamps i (some l)) with
    | localItem => exact heq
    | incomingItem => rfl
  · rcases winnerSide_outranks now (settleable_hasSignature hstart hkey hsl)
      (settleable_hasSignature hstart hkey hsi) with h | ⟨hside, hout⟩ | ⟨hside, hout⟩
    · exact absurd h heq
    · rw [sup_eq_left.2 (hbeats hsl hsi heq hout)]
      refine PlaySignature.ext ?_
      show fullSignature (keptVersion now l i) = _
      rw [keptVersion, hside]
      rfl
    · rw [sup_eq_right.2 (hbeats hsi hsl (Ne.symm heq) hout)]
      refine PlaySignature.ext ?_
      show fullSignature (keptVersion now l i) = _
      rw [keptVersion, hside]
      rfl

end order

/-! ### One sync step -/

variable [DecidableEq D]

/-- Device `d` merges its version with the remote copy; both become the winner. -/
def syncStep (st : Replicas D α) (step : D × MergeOptions α) : Except JsError (Replicas D α) := do
  let (d, opts) := step
  let out ← mergeEntitiesWithStats opts [st.held d] [st.remote]
  match out.merged with
  | [winner] => .ok { held := Function.update st.held d winner, remote := winner }
  -- two ids: not two versions of one entity
  | _ => .ok st

def runSync (st : Replicas D α) (steps : List (D × MergeOptions α)) : Except JsError (Replicas D α) :=
  steps.foldlM syncStep st

theorem mergeEntitiesWithStats_pair {opts : MergeOptions α} (hopts : opts.mergeConflict = none)
    {key : String} (hkey : isBlank key = false) {l i : α} (hl : entityId l = key)
    (hi : entityId i = key) :
    ∃ out, mergeEntitiesWithStats opts [l] [i] = .ok out ∧ out.merged = [keptVersion opts.now l i] := by
  obtain ⟨out, hout⟩ := mergeEntitiesWithStats_ok (total_of_none hopts) (L := [l]) (I := [i])
    (by simpa [hl] using hkey) (by simpa [hi] using hkey)
  refine ⟨out, hout, ?_⟩
  have hnodup : ∀ a : α, ([a].map entityId).Nodup := fun a => by simp
  have hget : ∀ a : α, entityId a = key → (JsMap.ofItems entityId [a]).get? key = some a := fun a ha =>
    (JsMap.get?_ofItems (hnodup a)).2 ⟨by simp, ha⟩
  have hkeys : visitedKeys [l] [i] = [key] := by
    rw [visitedKeys, JsMap.unionKeys, JsMap.keys_ofItems (hnodup l), JsMap.keys_ofItems (hnodup i)]
    simp [hl, hi]
  have hall := merged_forall₂ hout
  rw [hkeys] at hall
  obtain ⟨a, rest, ha, hrest, hmerged⟩ := List.forall₂_cons_left_iff.1 hall
  rw [List.forall₂_nil_left_iff.1 hrest] at hmerged
  unfold EntryOf mergedEntry at ha
  simp only [hget l hl, hget i hi] at ha
  obtain ⟨a', ha', ha⟩ := map_eq_ok ha
  obtain rfl := Option.some.inj ha
  rw [mergedPair_of_none hopts] at ha'
  rw [hmerged, ← Except.ok.inj ha']
  rfl

/-- The state after one step. -/
def Replicas.afterSync (st : Replicas D α) (step : D × MergeOptions α) : Replicas D α :=
  let winner := keptVersion step.2.now (st.held step.1) st.remote
  { held := Function.update st.held step.1 winner, remote := winner }

theorem syncStep_eq {st : Replicas D α} {step : D × MergeOptions α}
    (hopts : step.2.mergeConflict = none) {key : String} (hkey : isBlank key = false)
    (hst : st.OfEntity key) : syncStep st step = .ok (st.afterSync step) := by
  obtain ⟨out, hout, hmerged⟩ :=
    mergeEntitiesWithStats_pair hopts hkey (hst.2 step.1) hst.1
  unfold syncStep
  simp only [hout]
  show (match out.merged with | [winner] => _ | _ => _) = _
  rw [hmerged]
  rfl

theorem Replicas.OfEntity.afterSync {st : Replicas D α} {key : String} (h : st.OfEntity key)
    (step : D × MergeOptions α) : (st.afterSync step).OfEntity key := by
  have hw : entityId (keptVersion step.2.now (st.held step.1) st.remote) = key :=
    entityId_keptVersion _ (h.2 step.1) h.1
  refine ⟨hw, fun d => ?_⟩
  by_cases hd : d = step.1
  · subst hd
    simpa [Replicas.afterSync] using hw
  · simpa [Replicas.afterSync, Function.update_of_ne hd] using h.2 d

/-! ### A sync step is an exchange -/

section simulation
variable {start : Replicas D α} {clocks : Set Int} {key : String}
  [LinearOrder (PlaySignature start)]

/-- The board shows the signature of the remote copy and, for each device that has synced, of its
version. -/
structure Simulates (start : Replicas D α) [LinearOrder (PlaySignature start)] (key : String)
    (st : Replicas D α) (g : Board D (PlaySignature start)) : Prop where
  ofEntity : st.OfEntity key
  heldInPlay : ∀ d, InPlay start (st.held d)
  remoteInPlay : InPlay start st.remote
  below : g.Below
  remote : g.remote = ⊥ ∨ ∃ h : Settleable start st.remote, g.remote = (signatureIn start h)
  held : ∀ d, g.held d = ⊥ ∨ ∃ h : Settleable start (st.held d), g.held d = (signatureIn start h)

omit [DecidableEq D] in
theorem simulates_start (hstart : start.OfEntity key) :
    Simulates start key start ⟨⊥, fun _ => ⊥⟩ where
  ofEntity := hstart
  heldInPlay := .held
  remoteInPlay := .remote
  below _ := le_rfl
  remote := .inl rfl
  held _ := .inl rfl

variable (hstart : start.OfEntity key) (hkey : isBlank key = false)
  (horder : ∀ s t : PlaySignature start, Beats start clocks t.value s.value → s ≤ t)
include hstart hkey horder

theorem sync_simulates_exchange {st : Replicas D α} {g : Board D (PlaySignature start)}
    {step : D × MergeOptions α} (hnow : step.2.now ∈ clocks) (h : Simulates start key st g) :
    ∃ g', Board.Exchange step.1 g g' ∧ Simulates start key (st.afterSync step) g' := by
  have hl := h.heldInPlay step.1
  have hi := h.remoteInPlay
  have hw := settleable_kept step.2.now hl hi
  -- the value the device brings, and what the board shows afterwards
  obtain ⟨s, hs, hremote⟩ : ∃ s : PlaySignature start,
      (∀ v : PlaySignature start, g.held step.1 = v → s = v) ∧
        (s : WithBot (PlaySignature start)) ⊔ g.remote = (signatureIn start hw) := by
    rcases h.remote with hbot | ⟨hy, hy'⟩
    · refine ⟨signatureIn start hw, fun v hv => ?_, by rw [hbot, sup_bot_eq]⟩
      have := h.below step.1
      rw [hv, hbot] at this
      exact absurd this (WithBot.not_coe_le_bot v)
    · refine ⟨signatureIn start (settleable_normalize hl hi), fun v hv => ?_, ?_⟩
      · rcases h.held step.1 with hb | ⟨hx, hx'⟩
        · rw [hb] at hv
          exact absurd hv WithBot.bot_ne_coe
        · rw [hx'] at hv
          rw [← WithBot.coe_injective hv]
          exact PlaySignature.ext (congrArg fullSignature (normalizeTimestamps_of_settleable hx _))
      · rw [hy', ← WithBot.coe_sup, signature_kept hstart hkey horder hnow hl hi]
        congr 2
        exact PlaySignature.ext (congrArg fullSignature (normalizeTimestamps_of_settleable hy _).symm)
  refine ⟨⟨(signatureIn start hw), Function.update g.held step.1 (signatureIn start hw)⟩,
    ⟨s, hs, hremote.symm, rfl⟩, ?_⟩
  have hex : Board.Exchange step.1 g
      ⟨(signatureIn start hw), Function.update g.held step.1 (signatureIn start hw)⟩ :=
    ⟨s, hs, hremote.symm, rfl⟩
  refine ⟨h.ofEntity.afterSync step, fun d => ?_, hw.1, hex.below h.below, .inr ⟨hw, rfl⟩,
    fun d => ?_⟩
  · by_cases hd : d = step.1
    · subst hd
      simpa [Replicas.afterSync] using hw.1
    · simpa [Replicas.afterSync, Function.update_of_ne hd] using h.heldInPlay d
  · by_cases hd : d = step.1
    · subst hd
      have heq : (st.afterSync step).held step.1 = keptVersion step.2.now (st.held step.1) st.remote := by
        simp [Replicas.afterSync]
      refine .inr ⟨by rw [heq]; exact hw, ?_⟩
      simp only [Function.update_self]
      congr 1
      exact PlaySignature.ext (congrArg fullSignature heq.symm)
    · have heq : (st.afterSync step).held d = st.held d := by
        simp [Replicas.afterSync, Function.update_of_ne hd]
      rcases h.held d with hb | ⟨hx, hx'⟩
      · exact .inl (by simpa [Function.update_of_ne hd] using hb)
      · refine .inr ⟨by rw [heq]; exact hx, ?_⟩
        simp only [Function.update_of_ne hd, hx']
        congr 1
        exact PlaySignature.ext (congrArg fullSignature heq.symm)

theorem run_simulates {steps : List (D × MergeOptions α)} {st : Replicas D α}
    {g : Board D (PlaySignature start)}
    (hopts : ∀ step ∈ steps, step.2.mergeConflict = none ∧ step.2.now ∈ clocks)
    (h : Simulates start key st g) :
    ∃ st' g', runSync st steps = .ok st' ∧ Board.Run (steps.map Prod.fst) g g' ∧
      Simulates start key st' g' := by
  induction steps generalizing st g with
  | nil => exact ⟨st, g, rfl, .nil, h⟩
  | cons step steps ih =>
    obtain ⟨hnone, hnow⟩ := hopts step (by simp)
    obtain ⟨g', hex, hsim⟩ := sync_simulates_exchange hstart hkey horder hnow h
    obtain ⟨st'', g'', hrun, hboard, hsim''⟩ := ih (fun s hs => hopts s (by simp [hs])) hsim
    refine ⟨st'', g'', ?_, .cons hex hboard, hsim''⟩
    rw [runSync, List.foldlM_cons, syncStep_eq hnone hkey h.ofEntity]
    exact hrun

end simulation

/-! ### Convergence -/

/-- All replicas show one full signature. -/
def Replicas.Agree (st : Replicas D α) (s : Option String) : Prop :=
  fullSignature st.remote = s ∧ ∀ d, fullSignature (st.held d) = s

omit [DecidableEq D] in
theorem agree_of_settled {start : Replicas D α} [LinearOrder (PlaySignature start)] {key : String}
    {st : Replicas D α} {g : Board D (PlaySignature start)} (h : Simulates start key st g)
    (hg : g.Settled) : ∃ s : PlaySignature start, g.remote = s ∧ st.Agree s.value := by
  rcases h.remote with hb | ⟨hr, hr'⟩
  · exact absurd hb hg.1
  refine ⟨signatureIn start hr, hr', rfl, fun d => ?_⟩
  rcases h.held d with hb | ⟨hd, hd'⟩
  · exact absurd ((hg.2 d).symm.trans hb) hg.1
  · have := hg.2 d
    rw [hd', hr'] at this
    exact congrArg PlaySignature.value (WithBot.coe_injective this)

/-- **Devices converge.** Where the versions in play form no circle, two passes in each of which
every device syncs leave all devices and the remote copy with one full signature, and no further
sync step changes it. -/
theorem devices_converge {start : Replicas D α} {clocks : Set Int} {key : String}
    (hstart : start.OfEntity key) (hkey : isBlank key = false) (hcircle : NoCircle start clocks)
    {first second : List (D × MergeOptions α)}
    (hopts : ∀ step ∈ first ++ second, step.2.mergeConflict = none ∧ step.2.now ∈ clocks)
    (hfirst : ∀ d, d ∈ first.map Prod.fst) (hsecond : ∀ d, d ∈ second.map Prod.fst) :
    ∃ st s, runSync start (first ++ second) = .ok st ∧ st.Agree s ∧
      ∀ more : List (D × MergeOptions α),
        (∀ step ∈ more, step.2.mergeConflict = none ∧ step.2.now ∈ clocks) →
        ∃ st', runSync st more = .ok st' ∧ st'.Agree s := by
  by_cases hne : first = []
  · -- no device at all: the remote copy stays what it is
    subst hne
    have hnone : ∀ l : List (D × MergeOptions α), l = [] := fun l =>
      List.eq_nil_iff_forall_not_mem.mpr fun step _ => List.not_mem_nil (hfirst step.1)
    rw [hnone second]
    refine ⟨start, _, rfl, ⟨rfl, fun d => absurd (hfirst d) List.not_mem_nil⟩, fun more _ => ?_⟩
    rw [hnone more]
    exact ⟨start, rfl, rfl, fun d => absurd (hfirst d) List.not_mem_nil⟩
  have hclock : clocks.Nonempty := by
    obtain ⟨step, rest, rfl⟩ := List.exists_cons_of_ne_nil hne
    exact ⟨_, (hopts step (by simp)).2⟩
  let _ : LinearOrder (PlaySignature start) :=
    (circleFree_of_noCircle hstart hkey hclock hcircle).linearOrder
  have horder : ∀ s t : PlaySignature start, Beats start clocks t.value s.value → s ≤ t :=
    fun s t h => .inr h
  obtain ⟨st₁, g₁, hrun₁, hboard₁, hsim₁⟩ := run_simulates hstart hkey horder
    (fun step hs => hopts step (List.mem_append_left _ hs)) (simulates_start hstart)
  obtain ⟨st₂, g₂, hrun₂, hboard₂, hsim₂⟩ := run_simulates hstart hkey horder
    (fun step hs => hopts step (List.mem_append_right _ hs)) hsim₁
  have hremote : g₁.remote ≠ ⊥ := by
    cases hboard₁' : first.map Prod.fst with
    | nil => exact absurd (List.map_eq_nil_iff.mp hboard₁') hne
    | cons d ds =>
      rw [hboard₁'] at hboard₁
      have hknown : g₁.held d ≠ ⊥ := hboard₁.known (.inl (by simp))
      have hbelow := hsim₁.below d
      exact fun hb => hknown (le_bot_iff.mp (hb ▸ hbelow))
  have hsettled : g₂.Settled := Board.settled_of_two_passes (fun _ => le_rfl) hboard₁ hboard₂
    hfirst hsecond hremote
  obtain ⟨s, hs, hagree⟩ := agree_of_settled hsim₂ hsettled
  refine ⟨st₂, s.value, ?_, hagree, fun more hmore => ?_⟩
  · rw [runSync, List.foldlM_append]
    show (runSync start first >>= _) = _
    rw [hrun₁]
    exact hrun₂
  · obtain ⟨st₃, g₃, hrun₃, hboard₃, hsim₃⟩ := run_simulates hstart hkey horder hmore hsim₂
    obtain ⟨hsettled₃, hr₃⟩ := hsettled.run hboard₃
    obtain ⟨t, ht, hagree₃⟩ := agree_of_settled hsim₃ hsettled₃
    rw [hr₃, hs] at ht
    rw [WithBot.coe_injective ht]
    exact ⟨st₃, hrun₃, hagree₃⟩

/-! ### Where no circle is -/

omit [DecidableEq D] in
/-- A rank that every outranking version has more of rules circles out. -/
theorem noCircle_of_rank {start : Replicas D α} {clocks : Set Int} (rank : α → Rat)
    (hsame : ∀ a b, Settleable start a → Settleable start b → fullSignature a = fullSignature b →
      rank a = rank b)
    (hrank : ∀ a b, Settleable start a → Settleable start b → fullSignature a ≠ fullSignature b →
      ∀ now ∈ clocks, Outranks now a b → rank b < rank a) : NoCircle start clocks := by
  have hbeats : ∀ {s t : Option String}, Beats start clocks s t → ∀ a b, Settleable start a →
      Settleable start b → fullSignature a = s → fullSignature b = t → rank b < rank a := by
    rintro s t ⟨hne, a', b', ha', hb', rfl, rfl, now, hnow, hout⟩ a b ha hb hsa hsb
    rw [hsame a a' ha ha' hsa, hsame b b' hb hb' hsb]
    exact hrank a' b' ha' hb' hne now hnow hout
  refine ⟨fun s t hst hts => ?_, fun s t u hst htu hus => ?_⟩
  · obtain ⟨-, a, b, ha, hb, rfl, rfl, -⟩ := id hst
    have h₁ := hbeats hst a b ha hb rfl rfl
    have h₂ := hbeats hts b a hb ha rfl rfl
    exact absurd h₂ (not_lt.2 h₁.le)
  · obtain ⟨-, a, b, ha, hb, rfl, rfl, -⟩ := id hst
    obtain ⟨-, c, d, hc, hd, rfl, hda, -⟩ := id hus
    have h₁ := hbeats hst a b ha hb rfl rfl
    have h₂ := hbeats htu b c hb hc rfl rfl
    have h₃ := hbeats hus c a hc ha rfl rfl
    exact absurd (h₂.trans h₁) (not_lt.2 h₃.le)

omit [DecidableEq D] in
/-- Versions of one kind whose revisions tell their signatures apart form no circle. -/
theorem noCircle_of_revisions {start : Replicas D α} {clocks : Set Int}
    (hkind : ∀ a b, Settleable start a → Settleable start b → isDeleted a = isDeleted b)
    (hpos : ∀ a, Settleable start a → 0 < revOf a)
    (hrev : ∀ a b, Settleable start a → Settleable start b →
      (revOf a = revOf b ↔ fullSignature a = fullSignature b)) : NoCircle start clocks := by
  refine noCircle_of_rank revOf (fun a b ha hb => (hrev a b ha hb).2) ?_
  intro a b ha hb hne now _ hout
  have hrevision : hasRevision a b = true := by simp [hasRevision, hpos a ha]
  rw [Outranks, if_pos (hkind a b ha hb), if_pos hrevision] at hout
  rcases hout with hlt | ⟨heq, -⟩
  · exact hlt
  · exact absurd ((hrev a b ha hb).1 heq) hne

end

/-! ### A circle of three versions -/

section circle
attribute [local instance] isoRuntime

/-- Edited once, last of the three. -/
def lateEdit : Section :=
  { id := "s1"
    rev := some (.num 1)
    revBy := some (.str "a")
    title := some (.str "late")
    createdAt := some (.str "2026-01-01T00:00:00.000Z")
    updatedAt := some (.str "2026-01-01T00:02:40.000Z") }

/-- Edited five times, before the other two. -/
def manyEdits : Section :=
  { lateEdit with
    rev := some (.num 5)
    revBy := some (.str "b")
    title := some (.str "many")
    updatedAt := some (.str "2026-01-01T00:01:00.000Z") }

/-- Deleted in between. -/
def deletion : Section :=
  { lateEdit with
    rev := some (.num 3)
    revBy := some (.str "c")
    updatedAt := some (.str "2026-01-01T00:01:50.000Z")
    deletedAt := some (.str "2026-01-01T00:01:50.000Z") }

def circleReplicas : Replicas (Fin 3) Section :=
  { held := fun d => match d with
      | 0 => lateEdit
      | 1 => manyEdits
      | 2 => deletion
    remote := deletion }

def roundRobin : List (Fin 3 × MergeOptions Section) :=
  [(0, sectionMergeOptions), (1, sectionMergeOptions), (2, sectionMergeOptions)]

/-- The revision beats the late edit, the deletion the revision and the late edit the deletion: after
two passes each device is back at its own version. -/
theorem circular_versions_never_settle :
    (runSync circleReplicas (roundRobin ++ roundRobin)).map
        (fun st => ([st.held 0, st.held 1, st.held 2], st.remote)) =
      .ok ([lateEdit, manyEdits, deletion], deletion) ∧
    fullSignature lateEdit ≠ fullSignature manyEdits := by
  decide +kernel

/-! Without the deletion the revision decides. -/

def editReplicas : Replicas (Fin 2) Section :=
  { held := fun d => match d with
      | 0 => lateEdit
      | 1 => manyEdits
    remote := lateEdit }

theorem inPlay_editReplicas {a : Section} (h : InPlay editReplicas a) :
    a = lateEdit ∨ a = manyEdits := by
  induction h with
  | held d =>
    match d with
    | 0 => exact .inl rfl
    | 1 => exact .inr rfl
  | remote => exact .inl rfl
  | repaired _ _ iha _ =>
    have hlate : createdAfterUpdated lateEdit = false := by decide
    have hmany : createdAfterUpdated manyEdits = false := by decide
    rcases iha with rfl | rfl
    · exact .inl (by rw [normalizeTimestamps, if_neg (by simp [hlate])])
    · exact .inr (by rw [normalizeTimestamps, if_neg (by simp [hmany])])

theorem devices_converge_edits :
    ∃ st s, runSync editReplicas ([(0, sectionMergeOptions), (1, sectionMergeOptions)] ++
      [(1, sectionMergeOptions), (0, sectionMergeOptions)]) = .ok st ∧ st.Agree s := by
  have hcircle : NoCircle editReplicas {sectionMergeOptions.now} := by
    refine noCircle_of_revisions ?_ ?_ ?_
    · rintro a b ⟨ha, -⟩ ⟨hb, -⟩
      rcases inPlay_editReplicas ha with rfl | rfl <;> rcases inPlay_editReplicas hb with rfl | rfl <;> rfl
    · rintro a ⟨ha, -⟩
      rcases inPlay_editReplicas ha with rfl | rfl <;> decide
    · rintro a b ⟨ha, -⟩ ⟨hb, -⟩
      rcases inPlay_editReplicas ha with rfl | rfl <;> rcases inPlay_editReplicas hb with rfl | rfl <;>
        decide +kernel
  have hstart : editReplicas.OfEntity "s1" := ⟨rfl, by decide⟩
  have hopts : ∀ step ∈ [((0 : Fin 2), sectionMergeOptions), (1, sectionMergeOptions)] ++
      [(1, sectionMergeOptions), (0, sectionMergeOptions)],
      step.2.mergeConflict = none ∧ step.2.now ∈ ({sectionMergeOptions.now} : Set Int) := by
    simp [sectionMergeOptions]
  obtain ⟨st, s, hrun, hagree, -⟩ :=
    devices_converge hstart (by decide) hcircle hopts (by decide) (by decide)
  exact ⟨st, s, hrun, hagree⟩

end circle

end Mindwtr.Sync
