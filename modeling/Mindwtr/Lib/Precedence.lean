import Mathlib

/-!
# Which of two entries comes first

`[a, b] <+ l` says that `a` stands somewhere before `b`.
-/

namespace Mindwtr.Lib

section
variable {α β : Type} {l : List α} {a b : α}

theorem pair_sublist_or (ha : a ∈ l) (hb : b ∈ l) (hne : a ≠ b) : [a, b].Sublist l ∨ [b, a].Sublist l := by
  induction l with
  | nil => cases ha
  | cons c l ih =>
    rcases List.mem_cons.1 ha with rfl | ha'
    · have hb' := (List.mem_cons.1 hb).resolve_left (Ne.symm hne)
      exact .inl (List.Sublist.cons_cons _ (List.singleton_sublist.2 hb'))
    · rcases List.mem_cons.1 hb with rfl | hb'
      · exact .inr (List.Sublist.cons_cons _ (List.singleton_sublist.2 ha'))
      · exact (ih ha' hb').imp (fun h => h.cons _) fun h => h.cons _

/-- Each of two entries before the other: only where one stands twice. -/
theorem not_nodup_of_pair_sublist (hab : [a, b].Sublist l) (hba : [b, a].Sublist l) : ¬l.Nodup := by
  intro hnodup
  induction l with
  | nil => cases hab
  | cons c l ih =>
    obtain ⟨hc, hl⟩ := List.nodup_cons.1 hnodup
    cases hab with
    | cons _ hab =>
      cases hba with
      | cons _ hba => exact ih hab hba hl
      | cons_cons _ hba => exact hc (hab.subset (by simp))
    | cons_cons _ hab =>
      cases hba with
      | cons _ hba => exact hc (hba.subset (by simp))
      | cons_cons _ hba => exact hc (hab.subset (by simp))

theorem rel_of_pair_sublist {R : α → α → Prop} (hl : l.Pairwise R) (h : [a, b].Sublist l) : R a b := by
  have hpair := hl.sublist h
  simpa using hpair

/-- What is found first stands before everything else that would do. -/
theorem pair_sublist_of_find? {p : α → Bool} (h : l.find? p = some a) (hb : b ∈ l) (hp : p b = true) (hne : a ≠ b) :
    [a, b].Sublist l := by
  obtain ⟨-, before, after, rfl, hbefore⟩ := List.find?_eq_some_iff_append.1 h
  rw [List.mem_append, List.mem_cons] at hb
  rcases hb with hb | rfl | hb
  · have hnot := hbefore b hb
    simp [hp] at hnot
  · exact absurd rfl hne
  · have htail : [a, b].Sublist (a :: after) := List.Sublist.cons_cons _ (List.singleton_sublist.2 hb)
    exact htail.trans (List.sublist_append_right _ _)

theorem pair_sublist_append {l' : List α} (ha : a ∈ l) (hb : b ∈ l') : [a, b].Sublist (l ++ l') :=
  (List.singleton_sublist.2 ha).append (List.singleton_sublist.2 hb)

/-- A pair of images comes from a pair. -/
theorem pair_sublist_of_map {f : α → β} {x y : β} (h : [x, y].Sublist (l.map f)) :
    ∃ a b, f a = x ∧ f b = y ∧ [a, b].Sublist l := by
  obtain ⟨pair, hsub, hpair⟩ := List.sublist_map_iff.1 h
  rcases pair with _ | ⟨a, _ | ⟨b, _ | ⟨c, pair⟩⟩⟩
  · cases hpair
  · simp at hpair
  · simp only [List.map_cons, List.map_nil, List.cons.injEq, and_true] at hpair
    exact ⟨a, b, hpair.1.symm, hpair.2.symm, hsub⟩
  · simp at hpair

end

end Mindwtr.Lib
