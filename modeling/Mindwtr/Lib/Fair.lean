import Mindwtr.Lib.System

/-!
# Infinite runs and weak fairness

An infinite run of a guarded transition system may stutter; its steps meet a condition `ok`. It is weakly
fair to a set of events when the set is not enabled for ever without an event of it being taken. A
condition that every step keeps until it reaches a goal, and that enables a set of events each of which
reaches it, leads to the goal in every run that is fair to the set (`InfiniteRun.leadsTo`); so does one
where each event of the set lowers a rank that no step raises (`InfiniteRun.leadsTo_of_rank`).
-/

namespace Mindwtr.Lib

section
variable {S E : Type}

structure InfiniteRun (step : S → E → Option S) (ok : S → E → Prop) (init : S) where
  state : Nat → S
  event : Nat → Option E
  start : state 0 = init
  next : ∀ i, match event i with
    | none => state (i + 1) = state i
    | some e => step (state i) e = some (state (i + 1))
  meets : ∀ i e, event i = some e → ok (state i) e

def Enabled (step : S → E → Option S) (G : Set E) (s : S) : Prop := ∃ e ∈ G, (step s e).isSome

namespace InfiniteRun

variable {step : S → E → Option S} {ok : S → E → Prop} {init : S} (run : InfiniteRun step ok init)

def FairTo (G : Set E) : Prop :=
  ∀ i, (∀ j ≥ i, Enabled step G (run.state j)) → ∃ j ≥ i, ∃ e ∈ G, run.event j = some e

def LeadsTo (P Q : S → Prop) : Prop := ∀ i, P (run.state i) → ∃ j ≥ i, Q (run.state j)

/-- A step of the run, or none. -/
theorem next_cases (i : Nat) : run.state (i + 1) = run.state i ∨
    ∃ e, run.event i = some e ∧ ok (run.state i) e ∧ step (run.state i) e = some (run.state (i + 1)) := by
  have hnext := run.next i
  split at hnext
  · exact .inl hnext
  · rename_i e he
    exact .inr ⟨e, he, run.meets i e he, hnext⟩

theorem reaches (i : Nat) : Reaches step ok init (run.state i) := by
  induction i with
  | zero => rw [run.start]; exact .refl
  | succ i ih =>
    rcases run.next_cases i with hsame | ⟨e, -, hok, hstep⟩
    · rw [hsame]
      exact ih
    · exact ih.step hok hstep

variable {run} {P Q R : S → Prop} {G : Set E}

theorem LeadsTo.trans (hpq : run.LeadsTo P Q) (hqr : run.LeadsTo Q R) : run.LeadsTo P R := by
  intro i hi
  obtain ⟨j, hij, hj⟩ := hpq i hi
  obtain ⟨k, hjk, hk⟩ := hqr j hj
  exact ⟨k, hij.trans hjk, hk⟩

theorem leadsTo_of_imp (h : ∀ s, P s → Q s) : run.LeadsTo P Q := fun i hi => ⟨i, le_refl i, h _ hi⟩

theorem LeadsTo.or (hp : run.LeadsTo P R) (hq : run.LeadsTo Q R) : run.LeadsTo (fun s => P s ∨ Q s) R :=
  fun i hi => hi.elim (hp i) (hq i)

/-- What holds until the goal is reached, while the goal is not reached. -/
theorem holds_until (hstay : ∀ s e t, P s → ok s e → step s e = some t → P t ∨ Q t) {i : Nat}
    (hi : P (run.state i)) (hnot : ∀ j ≥ i, ¬ Q (run.state j)) (k : Nat) : P (run.state (i + k)) := by
  induction k with
  | zero => exact hi
  | succ k ih =>
    rcases run.next_cases (i + k) with hsame | ⟨e, -, hok, hstep⟩
    · rw [← Nat.add_assoc, hsame]
      exact ih
    · exact (hstay _ _ _ ih hok hstep).resolve_right (hnot _ (by omega))

/-- The rule for a set of events that a run is fair to. -/
theorem leadsTo (hfair : run.FairTo G) (henabled : ∀ s, P s → Enabled step G s)
    (hstay : ∀ s e t, P s → ok s e → step s e = some t → P t ∨ Q t)
    (hgo : ∀ s e t, P s → e ∈ G → ok s e → step s e = some t → Q t) : run.LeadsTo P Q := by
  intro i hi
  by_contra hne
  have hnot : ∀ j ≥ i, ¬ Q (run.state j) := fun j hj hq => hne ⟨j, hj, hq⟩
  have hholds : ∀ j ≥ i, P (run.state j) := by
    intro j hj
    obtain ⟨k, rfl⟩ := Nat.exists_eq_add_of_le hj
    exact holds_until hstay hi hnot k
  obtain ⟨j, hj, e, he, hevent⟩ := hfair i fun j hj => henabled _ (hholds j hj)
  have hnext := run.next j
  rw [hevent] at hnext
  exact hnot (j + 1) (by omega) (hgo _ _ _ (hholds j hj) he (run.meets j e hevent) hnext)

/-- The rule for a rank that no step raises and each event of the set lowers. -/
theorem leadsTo_of_rank (rank : S → Nat) (hfair : run.FairTo G) (henabled : ∀ s, P s → Enabled step G s)
    (hstay : ∀ s e t, P s → ok s e → step s e = some t → (P t ∧ rank t ≤ rank s) ∨ Q t)
    (hgo : ∀ s e t, P s → e ∈ G → ok s e → step s e = some t → (P t ∧ rank t < rank s) ∨ Q t) :
    run.LeadsTo P Q := by
  have hbelow : ∀ n, run.LeadsTo (fun s => P s ∧ rank s ≤ n) Q := by
    intro n
    induction n with
    | zero =>
      refine leadsTo hfair (fun s h => henabled s h.1) ?_ ?_
      · rintro s e t ⟨hp, hr⟩ hok h
        exact (hstay s e t hp hok h).imp (fun ⟨hp, hle⟩ => ⟨hp, hle.trans hr⟩) fun h => h
      · rintro s e t ⟨hp, hr⟩ he hok h
        exact (hgo s e t hp he hok h).resolve_left fun ⟨_, hlt⟩ => by omega
    | succ n ih =>
      have hdrop : run.LeadsTo (fun s => P s ∧ rank s ≤ n + 1) (fun s => (P s ∧ rank s ≤ n) ∨ Q s) := by
        refine leadsTo hfair (fun s h => henabled s h.1) ?_ ?_
        · rintro s e t ⟨hp, hr⟩ hok h
          exact (hstay s e t hp hok h).imp (fun ⟨hp, hle⟩ => ⟨hp, hle.trans hr⟩) .inr
        · rintro s e t ⟨hp, hr⟩ he hok h
          exact (hgo s e t hp he hok h).imp (fun ⟨hp, hlt⟩ => ⟨hp, by omega⟩) fun h => h
      exact hdrop.trans (ih.or (leadsTo_of_imp fun _ h => h))
  exact fun i hi => hbelow (rank (run.state i)) i ⟨hi, le_refl _⟩

end InfiniteRun

/-! ### A finite run as an infinite one -/

/-- The states of a replay, which stays in the last one. -/
def replayState (step : S → E → Option S) (s : S) (events : List E) (i : Nat) : S :=
  ((runEvents step s (events.take i)).getD s)

theorem runEvents_take_succ {step : S → E → Option S} {s t : S} {events : List E}
    (h : runEvents step s events = some t) (i : Nat) :
    match events[i]? with
    | none => runEvents step s (events.take (i + 1)) = runEvents step s (events.take i)
    | some e => ∃ a b, runEvents step s (events.take i) = some a ∧ step a e = some b ∧
        runEvents step s (events.take (i + 1)) = some b := by
  cases he : events[i]? with
  | none =>
    have hlen := List.getElem?_eq_none_iff.1 he
    simp only [List.take_of_length_le hlen, List.take_of_length_le (Nat.le_succ_of_le hlen)]
  | some e =>
    have hlen : i < events.length := (List.getElem?_eq_some_iff.1 he).1
    have hsplit : events = events.take (i + 1) ++ events.drop (i + 1) := (List.take_append_drop _ _).symm
    have htake : events.take (i + 1) = events.take i ++ [e] := by
      rw [List.take_add_one, he]
      rfl
    have hrun : ∃ b, runEvents step s (events.take (i + 1)) = some b := by
      rw [hsplit] at h
      simp only [runEvents, List.foldlM_append] at h
      obtain ⟨b, hb, -⟩ := Option.bind_eq_some_iff.1 h
      exact ⟨b, hb⟩
    obtain ⟨b, hb⟩ := hrun
    have hb' := hb
    rw [htake, runEvents, List.foldlM_append] at hb'
    obtain ⟨a, ha, hab⟩ := Option.bind_eq_some_iff.1 hb'
    exact ⟨a, b, ha, by simpa [List.foldlM_cons] using hab, hb⟩

/-- The run of a replay whose steps meet `ok`. -/
def replay {step : S → E → Option S} {ok : S → E → Prop} {s t : S} {events : List E}
    (h : runEvents step s events = some t)
    (hok : ∀ i e, events[i]? = some e → ok (replayState step s events i) e) : InfiniteRun step ok s where
  state := replayState step s events
  event i := events[i]?
  start := rfl
  next i := by
    have hi := runEvents_take_succ h i
    split at hi
    · rename_i he
      simp only [replayState, hi]
    · rename_i e he
      obtain ⟨a, b, ha, hab, hb⟩ := hi
      simp only [replayState, ha, hb, Option.getD_some, hab]
  meets := hok

/-- A replay that ends where no event of the set is enabled is fair to it. -/
theorem replay_fairTo {step : S → E → Option S} {ok : S → E → Prop} {s t : S} {events : List E}
    {G : Set E} (h : runEvents step s events = some t)
    (hok : ∀ i e, events[i]? = some e → ok (replayState step s events i) e) (hend : ¬ Enabled step G t) :
    (replay h hok).FairTo G := by
  intro i hi
  have hlast : (replay h hok).state (max i events.length) = t := by
    show replayState step s events _ = t
    rw [replayState, List.take_of_length_le (le_max_right _ _), h]
    rfl
  exact absurd (hlast ▸ hi _ (le_max_left _ _)) hend

end

end Mindwtr.Lib
