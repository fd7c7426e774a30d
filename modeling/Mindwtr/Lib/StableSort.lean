import Mindwtr.Lib.Precedence

/-!
# Stable sorting

A stable sort places any two elements by the order and, where that does not tell them apart, as they stood
before (`Before`). On a list without duplicates this determines the sorted list
(`insertionSort_eq_of_pairwise`). The order of interest looks at a key first: a list whose keys were written anew
along another arrangement is sorted into that arrangement (`insertionSort_renumbered`), and so is a sorted list
of which one element got a key between those of its new neighbours (`insertionSort_moved`).
-/

namespace Mindwtr.Lib

variable {α : Type}

/-! ### Dropping repetitions -/

section
variable [BEq α] [LawfulBEq α]

theorem nodup_eraseDups (l : List α) : l.eraseDups.Nodup := by
  induction hn : l.length using Nat.strongRecOn generalizing l with
  | ind n ih =>
    cases l with
    | nil => simp
    | cons a l =>
      rw [List.eraseDups_cons, List.nodup_cons]
      refine ⟨by simp [List.mem_eraseDups], ih _ ?_ _ rfl⟩
      have hle := List.length_filter_le (fun b => !b == a) l
      rw [← hn, List.length_cons]
      omega

theorem eraseDups_of_nodup {l : List α} (h : l.Nodup) : l.eraseDups = l := by
  induction l with
  | nil => simp
  | cons a l ih =>
    obtain ⟨ha, hl⟩ := List.nodup_cons.1 h
    have hothers : l.filter (fun b => !b == a) = l := by
      rw [List.filter_eq_self]
      intro b hb
      have hne : b ≠ a := fun heq => ha (heq ▸ hb)
      simpa using hne
    rw [List.eraseDups_cons, hothers, ih hl]

end

/-! ### Where a stable sort places two elements -/

section
variable (r : α → α → Prop)

/-- A stable sort of `l` places `a` before `b`. -/
def Before (l : List α) (a b : α) : Prop := ([a, b].Sublist l ∧ r a b) ∨ ([b, a].Sublist l ∧ ¬r b a)

variable {r} {l : List α} {a b : α}

theorem Before.asymm (hl : l.Nodup) (hab : Before r l a b) : ¬Before r l b a := by
  rintro (⟨hpair, hr⟩ | ⟨hpair, hr⟩)
  · rcases hab with ⟨hpair', -⟩ | ⟨-, hr'⟩
    · exact not_nodup_of_pair_sublist hpair' hpair hl
    · exact hr' hr
  · rcases hab with ⟨-, hr'⟩ | ⟨hpair', -⟩
    · exact hr hr'
    · exact not_nodup_of_pair_sublist hpair' hpair hl

/-- A strict difference decides alone. -/
theorem before_of_lt (ha : a ∈ l) (hb : b ∈ l) (hne : a ≠ b) (hab : r a b) (hba : ¬r b a) : Before r l a b := by
  rcases pair_sublist_or ha hb hne with h | h
  · exact .inl ⟨h, hab⟩
  · exact .inr ⟨h, hba⟩

/-- Elements that compare as before are placed as before. -/
theorem Before.map {f : α → α} (h : Before r l a b) (hab : r (f a) (f b) ↔ r a b) (hba : r (f b) (f a) ↔ r b a) :
    Before r (l.map f) (f a) (f b) := by
  rcases h with ⟨hpair, hr⟩ | ⟨hpair, hr⟩
  · exact .inl ⟨hpair.map f, hab.2 hr⟩
  · exact .inr ⟨hpair.map f, fun h => hr (hba.1 h)⟩

variable [DecidableRel r] [Std.Total r] [IsTrans α r]

theorem pairwise_before_insertionSort (hl : l.Nodup) : (l.insertionSort r).Pairwise (Before r l) := by
  rw [List.pairwise_iff_forall_sublist]
  intro a b hpair
  have hnodup : (l.insertionSort r).Nodup := (List.perm_insertionSort r l).nodup_iff.2 hl
  have ha : a ∈ l := (List.mem_insertionSort r).1 (hpair.subset (by simp))
  have hb : b ∈ l := (List.mem_insertionSort r).1 (hpair.subset (by simp))
  have hne : a ≠ b := by
    rintro rfl
    exact not_nodup_of_pair_sublist hpair hpair hnodup
  rcases pair_sublist_or ha hb hne with h | h
  · exact .inl ⟨h, List.pairwise_iff_forall_sublist.1 (List.pairwise_insertionSort r l) hpair⟩
  · refine .inr ⟨h, fun hr => ?_⟩
    exact not_nodup_of_pair_sublist hpair (List.pair_sublist_insertionSort hr h) hnodup

theorem insertionSort_eq_of_pairwise {sorted : List α} (hl : l.Nodup) (hperm : sorted.Perm l)
    (h : sorted.Pairwise (Before r l)) : l.insertionSort r = sorted := by
  apply List.Perm.eq_of_pairwise _ (pairwise_before_insertionSort hl) h
    ((List.perm_insertionSort r l).trans hperm.symm)
  intro a b _ _ hab hba
  exact absurd hba (hab.asymm hl)

theorem insertionSort_filter (hl : l.Nodup) (p : α → Bool) :
    (l.filter p).insertionSort r = (l.insertionSort r).filter p := by
  apply insertionSort_eq_of_pairwise (hl.filter p) ((List.perm_insertionSort r l).filter p)
  refine ((pairwise_before_insertionSort hl).filter p).imp_of_mem fun {a b} ha hb hab => ?_
  have hkept : ∀ {a b : α}, p a = true → p b = true → [a, b].Sublist l → [a, b].Sublist (l.filter p) := by
    intro a b ha hb hpair
    simpa [ha, hb] using hpair.filter p
  have ha' := (List.mem_filter.1 ha).2
  have hb' := (List.mem_filter.1 hb).2
  rcases hab with ⟨hpair, hr⟩ | ⟨hpair, hr⟩
  · exact .inl ⟨hkept ha' hb' hpair, hr⟩
  · exact .inr ⟨hkept hb' ha' hpair, hr⟩

end

/-! ### Orders that look at a key first -/

section
variable {K : Type} [LinearOrder K]

/-- A smaller key comes first. -/
def OrdersBy (r : α → α → Prop) (key : α → K) : Prop := ∀ a b, key a < key b → r a b ∧ ¬r b a

variable {r : α → α → Prop} {key : α → K}

theorem OrdersBy.le (h : OrdersBy r key) {a b : α} (hab : r a b) : key a ≤ key b :=
  not_lt.1 fun hlt => (h b a hlt).2 hab

/-- A comparator that compares keys first and breaks ties by another one. -/
theorem transCmp_then {tie : α → α → Ordering} [Std.TransCmp tie] :
    Std.TransCmp fun a b => (compare (key a) (key b)).then (tie a b) :=
  inferInstanceAs (Std.TransCmp (compareLex (compareOn key) tie))

theorem ordersBy_then {tie : α → α → Ordering} :
    OrdersBy (fun a b => (compare (key a) (key b)).then (tie a b) ≠ .gt) key := by
  intro a b hlt
  dsimp only
  rw [compare_lt_iff_lt.2 hlt, compare_gt_iff_gt.2 hlt]
  simp

variable [DecidableRel r] [Std.Total r] [IsTrans α r]
variable {l arrangement : List α} {f : α → α}

/-- Keys that grow along an arrangement sort the list into it. -/
theorem insertionSort_renumbered (h : OrdersBy r key) (hf : (l.map f).Nodup) (hperm : arrangement.Perm l)
    (hkeys : arrangement.Pairwise fun a b => key (f a) < key (f b)) :
    (l.map f).insertionSort r = arrangement.map f := by
  apply insertionSort_eq_of_pairwise hf (hperm.map f)
  rw [List.pairwise_map]
  refine hkeys.imp_of_mem fun {a b} ha hb hlt => ?_
  have hmem := fun {c} (hc : c ∈ arrangement) => List.mem_map_of_mem (f := f) (hperm.mem_iff.1 hc)
  apply before_of_lt (hmem ha) (hmem hb)
  · intro heq
    rw [heq] at hlt
    exact lt_irrefl _ hlt
  · exact (h _ _ hlt).1
  · exact (h _ _ hlt).2

/-- A key between those of the new neighbours moves one element of a sorted list to its new place. -/
theorem insertionSort_moved (h : OrdersBy r key) (hl : l.Nodup) (hf : (l.map f).Nodup) {moved : α}
    {front back : List α} (hperm : (front ++ moved :: back).Perm l)
    (hrest : (front ++ back).Sublist (l.insertionSort r)) (hkeep : ∀ a ∈ front ++ back, f a = a)
    (hfront : ∀ a ∈ front.getLast?, key a < key (f moved)) (hback : ∀ b ∈ back.head?, key (f moved) < key b) :
    (l.map f).insertionSort r = front ++ f moved :: back := by
  have hsorted := (pairwise_before_insertionSort hl).sublist hrest
  have hordered := (List.pairwise_insertionSort r l).sublist hrest
  obtain ⟨hfrontSorted, hbackSorted, -⟩ := List.pairwise_append.1 hordered
  -- the neighbours bound the rest of the list
  have hbefore : ∀ a ∈ front, key a < key (f moved) := by
    intro a ha
    obtain ⟨init, last, rfl⟩ := List.eq_nil_or_concat front |>.resolve_left (List.ne_nil_of_mem ha)
    have hlast : key last < key (f moved) := hfront last (by simp)
    have hcases : a ∈ init ∨ a = last := by simpa using ha
    rcases hcases with hinit | rfl
    · have hle := h.le ((List.pairwise_append.1 (by simpa using hfrontSorted)).2.2 a hinit last (by simp))
      exact lt_of_le_of_lt hle hlast
    · exact hlast
  have hafter : ∀ b ∈ back, key (f moved) < key b := by
    intro b hb
    cases back with
    | nil => cases hb
    | cons first rest =>
      have hfirst : key (f moved) < key first := hback first rfl
      rcases List.mem_cons.1 hb with rfl | hrest'
      · exact hfirst
      · exact lt_of_lt_of_le hfirst (h.le ((List.pairwise_cons.1 hbackSorted).1 b hrest'))
  have hfixed : ∀ a ∈ front ++ back, a ∈ l.map f := by
    intro a ha
    have hmem : a ∈ l := hperm.mem_iff.1 (by
      rcases List.mem_append.1 ha with ha | ha <;> simp [ha])
    exact List.mem_map.2 ⟨a, hmem, hkeep a ha⟩
  have hmoved : f moved ∈ l.map f := List.mem_map_of_mem (hperm.mem_iff.1 (by simp))
  have hmap : (front ++ moved :: back).map f = front ++ f moved :: back := by
    have hfrontKept := List.map_congr_left fun a ha => hkeep a (List.mem_append_left back ha)
    have hbackKept := List.map_congr_left fun b hb => hkeep b (List.mem_append_right front hb)
    rw [List.map_append, List.map_cons, hfrontKept, hbackKept, List.map_id', List.map_id']
  apply insertionSort_eq_of_pairwise hf (hmap ▸ hperm.map f)
  have hkept : (front ++ back).Pairwise (Before r (l.map f)) := by
    refine hsorted.imp_of_mem fun {a b} ha hb hab => ?_
    have hplaced := hab.map (f := f) (by rw [hkeep a ha, hkeep b hb]) (by rw [hkeep a ha, hkeep b hb])
    rwa [hkeep a ha, hkeep b hb] at hplaced
  obtain ⟨hkeptFront, hkeptBack, hacross⟩ := List.pairwise_append.1 hkept
  have hplace : ∀ {a b : α}, a ∈ l.map f → b ∈ l.map f → key a < key b → Before r (l.map f) a b := by
    intro a b ha hb hlt
    exact before_of_lt ha hb (fun heq => absurd hlt (by simp [heq])) (h a b hlt).1 (h a b hlt).2
  rw [List.pairwise_append, List.pairwise_cons]
  refine ⟨hkeptFront, ⟨fun b hb => ?_, hkeptBack⟩, fun a ha b hb => ?_⟩
  · exact hplace hmoved (hfixed b (List.mem_append_right _ hb)) (hafter b hb)
  · rcases List.mem_cons.1 hb with rfl | hb
    · exact hplace (hfixed a (List.mem_append_left _ ha)) hmoved (hbefore a ha)
    · exact hacross a ha b hb

end

end Mindwtr.Lib
