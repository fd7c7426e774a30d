import Mathlib

/-!
# Tournaments and shared boards

A binary rule that always prefers one of two values is a tournament. Where no two and no three
values beat each other in a circle the tournament is a linear order (`Circular.linearOrder`), and
then repeated pairwise choices settle: any number of peers who each keep a value and exchange it
with one shared board, both keeping the preferred one, all hold the same value after every peer has
exchanged twice (`Board.settled_of_two_passes`), and no further exchange changes anything. A peer's value
may become fixed only at its first exchange, which is `⊥` here.
-/

namespace Mindwtr.Lib

/-! ### Tournaments without circles -/

/-- On `K` one of two different values beats the other, and no circle of two or three exists. -/
structure CircleFree {σ : Type} (K : Set σ) (beats : σ → σ → Prop) : Prop where
  total : ∀ s ∈ K, ∀ t ∈ K, s ≠ t → beats s t ∨ beats t s
  noPair : ∀ s ∈ K, ∀ t ∈ K, beats s t → ¬beats t s
  noTriangle : ∀ s ∈ K, ∀ t ∈ K, ∀ u ∈ K, beats s t → beats t u → ¬beats u s

namespace CircleFree

variable {σ : Type} {K : Set σ} {beats : σ → σ → Prop}

theorem le_trans (h : CircleFree K beats) {s t u : σ} (hs : s ∈ K) (ht : t ∈ K) (hu : u ∈ K)
    (hst : s = t ∨ beats t s) (htu : t = u ∨ beats u t) : s = u ∨ beats u s := by
  rcases hst with rfl | hst
  · exact htu
  rcases htu with rfl | htu
  · exact .inr hst
  by_cases hsu : s = u
  · exact .inl hsu
  rcases h.total s hs u hu hsu with hb | hb
  · -- `s` beats `u` beats `t` beats `s`
    exact absurd hst (h.noTriangle s hs u hu t ht hb htu)
  · exact .inr hb

/-- The order in which the later value beats the earlier one. -/
@[reducible] noncomputable def linearOrder (h : CircleFree K beats) : LinearOrder K where
  le s t := s = t ∨ beats t s
  le_refl s := .inl rfl
  le_trans s t u hst htu := by
    have := h.le_trans s.2 t.2 u.2 (hst.imp_left (congrArg _)) (htu.imp_left (congrArg _))
    exact this.imp_left Subtype.ext
  le_antisymm s t hst hts := by
    rcases hst with rfl | hst
    · rfl
    rcases hts with rfl | hts
    · rfl
    exact absurd hts (h.noPair _ t.2 _ s.2 hst)
  le_total s t := by
    by_cases hst : s = t
    · exact .inl (.inl hst)
    · rcases h.total s s.2 t t.2 (fun he => hst (Subtype.ext he)) with hb | hb
      · exact .inr (.inr hb)
      · exact .inl (.inr hb)
  toDecidableLE := Classical.decRel _

end CircleFree

/-! ### Peers around a board -/

/-- What the board shows and what each peer is known to keep. -/
structure Board (D σ : Type) where
  remote : WithBot σ
  held : D → WithBot σ

namespace Board

variable {D σ : Type} [DecidableEq D] [SemilatticeSup σ]

/-- Peer `d` exchanges its value with the board and both keep the preferred one. -/
def Exchange (d : D) (g g' : Board D σ) : Prop :=
  ∃ s : σ, (∀ h : σ, g.held d = h → s = h) ∧ g'.remote = (s : WithBot σ) ⊔ g.remote ∧
    g'.held = Function.update g.held d g'.remote

/-- The exchanges of the listed peers, in order. -/
inductive Run : List D → Board D σ → Board D σ → Prop
  | nil {g : Board D σ} : Run [] g g
  | cons {d : D} {ds : List D} {g g' g'' : Board D σ} :
      Exchange d g g' → Run ds g' g'' → Run (d :: ds) g g''

/-- No peer is known to keep something the board does not already include. -/
def Below (g : Board D σ) : Prop := ∀ d, g.held d ≤ g.remote

theorem Exchange.held_self {d : D} {g g' : Board D σ} (h : Exchange d g g') :
    g'.held d = g'.remote := by
  obtain ⟨s, -, -, hheld⟩ := h
  rw [hheld, Function.update_self]

theorem Exchange.held_other {d e : D} {g g' : Board D σ} (h : Exchange d g g') (he : e ≠ d) :
    g'.held e = g.held e := by
  obtain ⟨s, -, -, hheld⟩ := h
  rw [hheld, Function.update_of_ne he]

theorem Exchange.remote_le {d : D} {g g' : Board D σ} (h : Exchange d g g') : g.remote ≤ g'.remote := by
  obtain ⟨s, -, hremote, -⟩ := h
  rw [hremote]
  exact le_sup_right

theorem Exchange.remote_ne_bot {d : D} {g g' : Board D σ} (h : Exchange d g g') : g'.remote ≠ ⊥ := by
  obtain ⟨s, -, hremote, -⟩ := h
  rw [hremote]
  exact ne_bot_of_le_ne_bot WithBot.coe_ne_bot le_sup_left

theorem Exchange.below {d : D} {g g' : Board D σ} (h : Exchange d g g') (hg : g.Below) :
    g'.Below := by
  intro e
  by_cases he : e = d
  · subst he
    exact h.held_self.le
  · rw [h.held_other he]
    exact (hg e).trans h.remote_le

/-- Once the board includes what a peer keeps, its exchange does not change the board. -/
theorem Exchange.remote_eq {d : D} {g g' : Board D σ} (h : Exchange d g g') (hg : g.Below)
    (hknown : g.held d ≠ ⊥) : g'.remote = g.remote := by
  obtain ⟨s, hs, hremote, -⟩ := h
  obtain ⟨v, hv⟩ := WithBot.ne_bot_iff_exists.1 hknown
  rw [hremote, hs v hv.symm, hv]
  exact sup_eq_right.2 (hg d)

theorem Run.keepsBelow {ds : List D} {g g' : Board D σ} (h : Run ds g g') (hg : g.Below) : g'.Below := by
  induction h with
  | nil => exact hg
  | cons hstep _ ih => exact ih (hstep.below hg)

theorem Run.known {ds : List D} {g g' : Board D σ} (h : Run ds g g') {d : D}
    (hd : d ∈ ds ∨ g.held d ≠ ⊥) : g'.held d ≠ ⊥ := by
  induction h with
  | nil => exact hd.resolve_left List.not_mem_nil
  | @cons e ds g g' g'' hstep _ ih =>
    apply ih
    by_cases he : d = e
    · subst he
      exact .inr (by rw [hstep.held_self]; exact hstep.remote_ne_bot)
    · rcases hd with hd | hd
      · exact .inl ((List.mem_cons.1 hd).resolve_left he)
      · exact .inr (by rwa [hstep.held_other he])

/-- With every peer known the board is final, and each peer that exchanges takes its value. -/
theorem Run.settles {ds : List D} {g g' : Board D σ} (h : Run ds g g') (hg : g.Below)
    (hknown : ∀ d, g.held d ≠ ⊥) :
    g'.remote = g.remote ∧ ∀ d, d ∈ ds ∨ g.held d = g.remote → g'.held d = g.remote := by
  induction h with
  | nil => exact ⟨rfl, fun d hd => hd.resolve_left List.not_mem_nil⟩
  | @cons e ds g g' g'' hstep hrest ih =>
    have hremote := hstep.remote_eq hg (hknown e)
    have hknown' : ∀ d, g'.held d ≠ ⊥ := fun d =>
      (Run.cons hstep .nil : Run [e] g g').known (.inr (hknown d))
    obtain ⟨hr, hh⟩ := ih (hstep.below hg) hknown'
    refine ⟨hr.trans hremote, fun d hd => ?_⟩
    rw [← hremote]
    apply hh
    by_cases he : d = e
    · subst he
      exact .inr hstep.held_self
    · rw [hstep.held_other he, hremote]
      exact hd.imp_left fun hd => (List.mem_cons.1 hd).resolve_left he

/-- Every peer keeps what the board shows. -/
def Settled (g : Board D σ) : Prop := g.remote ≠ ⊥ ∧ ∀ d, g.held d = g.remote

/-- **Two passes settle.** After two runs in each of which every peer exchanges at least once, all
peers and the board agree. -/
theorem settled_of_two_passes {p q : List D} {g g' g'' : Board D σ} (hg : g.Below) (hp : Run p g g')
    (hq : Run q g' g'') (hpall : ∀ d, d ∈ p) (hqall : ∀ d, d ∈ q) (hremote : g'.remote ≠ ⊥) :
    g''.Settled := by
  obtain ⟨hr, hh⟩ := hq.settles (hp.keepsBelow hg) fun d => hp.known (.inl (hpall d))
  exact ⟨hr ▸ hremote, fun d => (hh d (.inl (hqall d))).trans hr.symm⟩

/-- No run changes a settled board. -/
theorem Settled.run {ds : List D} {g g' : Board D σ} (hg : g.Settled) (h : Run ds g g') :
    g'.Settled ∧ g'.remote = g.remote := by
  have hbelow : g.Below := fun d => (hg.2 d).le
  obtain ⟨hr, hh⟩ := h.settles hbelow fun d => (hg.2 d).symm ▸ hg.1
  exact ⟨⟨hr ▸ hg.1, fun d => (hh d (.inr (hg.2 d))).trans hr.symm⟩, hr⟩

end Board

end Mindwtr.Lib
