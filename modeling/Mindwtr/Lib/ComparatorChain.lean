import Mindwtr.Lib.StableSort

/-!
# Chains of comparators

A comparator that tries one key after the other, as programs write them: each key gives a number, and the first
that is not zero decides. A difference may be no number at all, as that of two infinities; the chain stops there
too, and a sort takes the two elements for equal. `lexOrder` is the order that the chain is meant to give. A list
is sorted into it, from whatever arrangement, exactly if no two of its elements stop the chain
(`isCanonical_iff`): two that do are left as they stood.
-/

namespace Mindwtr.Lib

variable {α : Type}

/-- One key: how two elements compare by it, and whether their difference is a number. -/
structure Level (α : Type) where
  order : α → α → Ordering
  isNumber : α → α → Bool

/-- The sign of the difference of two elements; `none` is not a number. -/
def Level.difference (level : Level α) (a b : α) : Option Ordering :=
  if level.isNumber a b then some (level.order a b) else none

/-- The first difference that is not zero. -/
def firstDifference : List (Option Ordering) → Option Ordering
  | [] => some .eq
  | some .eq :: differences => firstDifference differences
  | difference :: _ => difference

/-- The order by the first key, then by the second, and so on. -/
def lexOrder : List (Level α) → α → α → Ordering
  | [], _, _ => .eq
  | level :: levels, a, b => (level.order a b).then (lexOrder levels a b)

/-- The elements are the same in all keys before one whose difference is not a number. -/
def StopsChain : List (Level α) → α → α → Prop
  | [], _, _ => False
  | level :: levels, a, b => level.isNumber a b = false ∨ level.order a b = .eq ∧ StopsChain levels a b

/-- What a sort asks its comparator for: whether the first element may stay before the second. -/
def mayPrecede (descending : Bool) (difference : Option Ordering) : Bool :=
  (if descending then (difference.getD .eq).swap else difference.getD .eq) != .gt

def directed (descending : Bool) (order : α → α → Ordering) (a b : α) : Ordering :=
  if descending then (order a b).swap else order a b

/-- The stable sort by a comparator. -/
def sortByComparator (descending : Bool) (compare : α → α → Option Ordering) (l : List α) : List α :=
  l.insertionSort fun a b => mayPrecede descending (compare a b) = true

/-- All arrangements of the elements are sorted into the same list, which is in strict order. -/
def IsCanonical (sort : List α → List α) (order : α → α → Ordering) (l : List α) : Prop :=
  ∀ l', l'.Perm l → sort l' = sort l ∧ (sort l').Perm l ∧ (sort l').Pairwise fun a b => order a b = .lt

section
variable {levels : List (Level α)} {a b : α}

@[simp] theorem firstDifference_cons_eq (differences : List (Option Ordering)) :
    firstDifference (some .eq :: differences) = firstDifference differences := rfl

theorem firstDifference_nested (inner outer : List (Option Ordering)) :
    firstDifference (firstDifference inner :: outer) = firstDifference (inner ++ outer) := by
  induction inner with
  | nil => rfl
  | cons difference inner ih =>
    rcases difference with _ | (_ | _ | _)
    · rfl
    · rfl
    · exact ih
    · rfl

/-- A chain within a chain. -/
theorem firstDifference_within (front inner outer : List (Option Ordering)) :
    firstDifference (front ++ firstDifference inner :: outer) = firstDifference (front ++ (inner ++ outer)) := by
  induction front with
  | nil => exact firstDifference_nested inner outer
  | cons difference front ih =>
    rcases difference with _ | (_ | _ | _)
    · rfl
    · rfl
    · exact ih
    · rfl

theorem lexOrder_eq_iff : lexOrder levels a b = .eq ↔ ∀ level ∈ levels, level.order a b = .eq := by
  induction levels with
  | nil => simp [lexOrder]
  | cons level levels ih => simp [lexOrder, Ordering.then_eq_eq, ih]

theorem firstDifference_eq_none (levels : List (Level α)) (a b : α) :
    firstDifference (levels.map (·.difference a b)) = none ↔ StopsChain levels a b := by
  induction levels with
  | nil => simp [firstDifference, StopsChain]
  | cons level levels ih =>
    rw [List.map_cons, StopsChain, Level.difference]
    cases level.isNumber a b with
    | false => simp [firstDifference]
    | true =>
      cases horder : level.order a b with
      | eq => simp [ih]
      | lt => simp [firstDifference]
      | gt => simp [firstDifference]

theorem firstDifference_of_not_stops (h : ¬StopsChain levels a b) :
    firstDifference (levels.map (·.difference a b)) = some (lexOrder levels a b) := by
  induction levels with
  | nil => rfl
  | cons level levels ih =>
    rw [StopsChain, not_or] at h
    obtain ⟨hnumber, hrest⟩ := h
    rw [Bool.not_eq_false] at hnumber
    rw [List.map_cons, Level.difference, if_pos hnumber, lexOrder]
    cases horder : level.order a b with
    | eq => simpa using ih fun hstops => hrest ⟨horder, hstops⟩
    | lt => rfl
    | gt => rfl

/-- The keys are orders, and the two elements of a difference may be exchanged. -/
structure IsLawful (level : Level α) : Prop where
  trans : Std.TransCmp level.order
  comm : ∀ a b, level.isNumber a b = level.isNumber b a

theorem lexOrder_trans (h : ∀ level ∈ levels, IsLawful level) : Std.TransCmp (lexOrder levels) := by
  induction levels with
  | nil => exact { eq_swap := rfl, isLE_trans := fun _ _ => rfl }
  | cons level levels ih =>
    have := (h level (by simp)).trans
    have := ih fun level hlevel => h level (by simp [hlevel])
    exact inferInstanceAs (Std.TransCmp (compareLex level.order (lexOrder levels)))

theorem StopsChain.symm (h : ∀ level ∈ levels, IsLawful level) (hstops : StopsChain levels a b) :
    StopsChain levels b a := by
  induction levels with
  | nil => exact hstops
  | cons level levels ih =>
    have hlawful := h level (by simp)
    have := hlawful.trans
    rcases hstops with hnumber | ⟨horder, hstops⟩
    · exact .inl (hlawful.comm a b ▸ hnumber)
    · refine .inr ⟨?_, ih (fun level hlevel => h level (by simp [hlevel])) hstops⟩
      rw [@Std.OrientedCmp.eq_swap _ level.order _ b a, horder]
      rfl

end

theorem trans_comap {β : Type} {order : β → β → Ordering} (h : Std.TransCmp order) (f : α → β) :
    Std.TransCmp fun a b => order (f a) (f b) where
  eq_swap {_ _} := @Std.OrientedCmp.eq_swap _ order _ _ _
  isLE_trans {_ _ _} := @Std.TransCmp.isLE_trans _ order _ _ _ _

/-! ### Elements that tie -/

/-- An element is put in before one that does not come before it. -/
theorem pair_sublist_orderedInsert {r : α → α → Prop} [DecidableRel r] {a b : α} {l : List α} (hab : r a b)
    (hb : b ∈ l) : [a, b].Sublist (l.orderedInsert r a) := by
  induction l with
  | nil => cases hb
  | cons c l ih =>
    rw [List.orderedInsert_cons]
    split
    · exact (List.singleton_sublist.2 hb).cons_cons a
    · rename_i hac
      rcases List.mem_cons.1 hb with rfl | hb
      · exact absurd hab hac
      · exact (ih hb).cons c

theorem exists_pair_perm {a b : α} {l : List α} (ha : a ∈ l) (hb : b ∈ l) (hab : a ≠ b) :
    ∃ rest, (a :: b :: rest).Perm l := by
  obtain ⟨front, back, rfl⟩ := List.append_of_mem ha
  have hb' : b ∈ front ++ back := by
    simp only [List.mem_append, List.mem_cons] at hb ⊢
    rcases hb with hb | hb | hb
    · exact .inl hb
    · exact absurd hb.symm hab
    · exact .inr hb
  obtain ⟨front', back', hothers⟩ := List.append_of_mem hb'
  refine ⟨front' ++ back', ?_⟩
  apply List.Perm.trans _ List.perm_middle.symm
  rw [hothers]
  exact List.perm_middle.symm.cons a

/-- Two elements that the comparator takes for equal come out as they stood. -/
theorem insertionSort_swap_ne {r : α → α → Prop} [DecidableRel r] {a b : α} {l : List α} (hl : (a :: b :: l).Nodup)
    (hab : r a b) (hba : r b a) : (a :: b :: l).insertionSort r ≠ (b :: a :: l).insertionSort r := by
  intro heq
  have hfirst : [a, b].Sublist ((a :: b :: l).insertionSort r) := by
    apply pair_sublist_orderedInsert hab
    exact (List.mem_insertionSort r).2 (by simp)
  have hsecond : [b, a].Sublist ((b :: a :: l).insertionSort r) := by
    apply pair_sublist_orderedInsert hba
    exact (List.mem_insertionSort r).2 (by simp)
  rw [← heq] at hsecond
  exact not_nodup_of_pair_sublist hfirst hsecond ((List.perm_insertionSort r _).nodup_iff.2 hl)

/-! ### Sorting by a chain -/

section
variable {levels : List (Level α)} {compare : α → α → Option Ordering} {descending : Bool} {l : List α}

theorem directed_trans {order : α → α → Ordering} (h : Std.TransCmp order) (descending : Bool) :
    Std.TransCmp (directed descending order) := by
  cases descending with
  | false => exact h
  | true =>
    refine { eq_swap := ?_, isLE_trans := ?_ }
    · intro a b
      exact congrArg Ordering.swap (@Std.OrientedCmp.eq_swap _ order _ a b)
    · intro a b c hab hbc
      have hswap : ∀ a b, (order a b).swap = order b a := fun a b => (@Std.OrientedCmp.eq_swap _ order _ b a).symm
      simp only [directed, if_true, hswap] at *
      exact Std.TransCmp.isLE_trans hbc hab

theorem mayPrecede_of_none (descending : Bool) : mayPrecede descending none = true := by
  cases descending <;> rfl

/-- A strict and transitive order sorts all arrangements of a list into the same one. -/
theorem isCanonical_insertionSort {order : α → α → Ordering} (htrans : Std.TransCmp order)
    (hne : ∀ a ∈ l, ∀ b ∈ l, a ≠ b → order a b ≠ .eq) (hl : l.Nodup) :
    IsCanonical (fun l => l.insertionSort fun a b => order a b ≠ .gt) order l := by
  have : Std.Total fun a b => order a b ≠ .gt := ⟨fun a b => by
    by_contra hboth
    obtain ⟨hab, hba⟩ := not_or.1 hboth
    rw [not_not] at hab hba
    rw [Std.OrientedCmp.gt_iff_lt.1 hab] at hba
    cases hba⟩
  have : IsTrans α fun a b => order a b ≠ .gt := ⟨fun a b c => Std.TransCmp.le_trans⟩
  intro l' hperm
  have hperm' := List.perm_insertionSort (fun a b => order a b ≠ .gt) l'
  have hsorted := List.pairwise_insertionSort (fun a b => order a b ≠ .gt) l'
  refine ⟨?_, hperm'.trans hperm, ?_⟩
  · have hperm'' := List.perm_insertionSort (fun a b => order a b ≠ .gt) l
    apply List.Perm.eq_of_pairwise _ hsorted (List.pairwise_insertionSort _ l)
      ((hperm'.trans hperm).trans hperm''.symm)
    intro a b ha hb hab hba
    by_contra hne'
    have ha' : a ∈ l := (hperm'.trans hperm).mem_iff.1 ha
    have hb' : b ∈ l := hperm''.mem_iff.1 hb
    have hlt : order a b = .lt := by
      cases horder : order a b with
      | lt => rfl
      | eq => exact absurd horder (hne a ha' b hb' hne')
      | gt => exact absurd horder hab
    exact hba (Std.OrientedCmp.gt_iff_lt.2 hlt)
  · have hnodup : (l'.insertionSort fun a b => order a b ≠ .gt).Nodup := (hperm'.trans hperm).nodup_iff.2 hl
    refine (hsorted.and hnodup).imp_of_mem fun {a b} ha hb hab => ?_
    have hne' := hne a ((hperm'.trans hperm).mem_iff.1 ha) b ((hperm'.trans hperm).mem_iff.1 hb) hab.2
    cases horder : order a b with
    | lt => rfl
    | eq => exact absurd horder hne'
    | gt => exact absurd horder hab.1

theorem mayPrecede_iff (hcompare : ∀ a b, compare a b = firstDifference (levels.map (·.difference a b)))
    (htrans : Std.TransCmp (lexOrder levels)) {a b : α} (hdecides : a ≠ b → ¬StopsChain levels a b) :
    mayPrecede descending (compare a b) = true ↔ directed descending (lexOrder levels) a b ≠ .gt := by
  rw [mayPrecede, directed, bne_iff_ne, hcompare]
  by_cases hstops : StopsChain levels a b
  · have hab : a = b := by
      by_contra hab
      exact hdecides hab hstops
    have hself : lexOrder levels a b = .eq := by
      rw [hab]
      exact Std.ReflCmp.compare_self
    rw [(firstDifference_eq_none levels a b).2 hstops, hself]
    rfl
  · rw [firstDifference_of_not_stops hstops]
    rfl

/-- A sort by a chain is canonical exactly if no two elements of the list stop the chain. -/
theorem isCanonical_iff (hcompare : ∀ a b, compare a b = firstDifference (levels.map (·.difference a b)))
    (hlawful : ∀ level ∈ levels, IsLawful level) (hne : ∀ a ∈ l, ∀ b ∈ l, a ≠ b → lexOrder levels a b ≠ .eq)
    (hl : l.Nodup) :
    IsCanonical (sortByComparator descending compare) (directed descending (lexOrder levels)) l ↔
      ∀ a ∈ l, ∀ b ∈ l, a ≠ b → ¬StopsChain levels a b := by
  have htrans := lexOrder_trans hlawful
  constructor
  · intro hcanonical a ha b hb hab hstops
    -- the two may stand in either order, and come out in the one they stood in
    obtain ⟨rest, hrest⟩ := exists_pair_perm ha hb hab
    have hswap : (b :: a :: rest).Perm l := (List.Perm.swap a b rest).trans hrest
    have htie : ∀ {a b}, StopsChain levels a b → mayPrecede descending (compare a b) = true := by
      intro a b hstops
      rw [hcompare, (firstDifference_eq_none levels a b).2 hstops]
      exact mayPrecede_of_none descending
    have hne' := @insertionSort_swap_ne _ (fun a b => mayPrecede descending (compare a b) = true) _ _ _ _
      (hrest.nodup_iff.2 hl) (htie hstops) (htie (hstops.symm hlawful))
    apply hne'
    exact (hcanonical _ hrest).1.trans (hcanonical _ hswap).1.symm
  · intro hdecides
    have hne' : ∀ a ∈ l, ∀ b ∈ l, a ≠ b → directed descending (lexOrder levels) a b ≠ .eq := by
      intro a ha b hb hab horder
      apply hne a ha b hb hab
      unfold directed at horder
      split at horder
      · exact Ordering.swap_eq_eq.1 horder
      · exact horder
    -- on the list, the comparator is the order
    have hsame : ∀ l', l'.Perm l → sortByComparator descending compare l' =
        l'.insertionSort fun a b => directed descending (lexOrder levels) a b ≠ .gt := by
      intro l' hperm
      have hsorted := List.map_insertionSort (fun a b => mayPrecede descending (compare a b) = true)
        (fun a b => directed descending (lexOrder levels) a b ≠ .gt) id l' (fun a ha b hb => by
          rw [id, id, mayPrecede_iff hcompare htrans (fun hab => hdecides a (hperm.mem_iff.1 ha) b
            (hperm.mem_iff.1 hb) hab)])
      rw [List.map_id, List.map_id] at hsorted
      exact hsorted
    have hcanonical := isCanonical_insertionSort (directed_trans htrans descending) hne' hl
    intro l' hperm
    rw [hsame l' hperm, hsame l (List.Perm.refl l)]
    exact hcanonical l' hperm

end

/-! ### The first of a list -/

/-- The earlier of two; a best one so far that is discounted gives way. -/
def earlier (precedes : α → α → Bool) (discounted : α → Bool) (best : Option α) (a : α) : α :=
  match best with
  | none => a
  | some b => if discounted b || precedes a b then a else b

/-- One pass that keeps the first element so far. -/
def keepFirst (precedes : α → α → Bool) (discounted : α → Bool) (l : List α) : Option α :=
  l.foldl (fun best a => some (earlier precedes discounted best a)) none

section
variable {precedes : α → α → Bool} {discounted : α → Bool} {l : List α} {m : α}

theorem keepFirst_concat (l : List α) (a : α) :
    keepFirst precedes discounted (l ++ [a]) =
      some (earlier precedes discounted (keepFirst precedes discounted l) a) := by
  rw [keepFirst, List.foldl_concat, ← keepFirst]

theorem keepFirst_mem (h : keepFirst precedes discounted l = some m) : m ∈ l := by
  induction l using List.reverseRecOn generalizing m with
  | nil => cases h
  | append_singleton l a ih =>
    rw [keepFirst_concat] at h
    obtain rfl := Option.some.inj h
    unfold earlier
    split
    · simp
    · rename_i b hbest
      split
      · simp
      · exact List.mem_append_left _ (ih hbest)

/-- The pass finds an element that counts and comes before every other. -/
theorem keepFirst_eq_some (hm : m ∈ l) (hcounts : discounted m = false)
    (hbefore : ∀ a ∈ l, a ≠ m → precedes m a = true) (hafter : ∀ a ∈ l, precedes a m = false) :
    keepFirst precedes discounted l = some m := by
  induction l using List.reverseRecOn with
  | nil => cases hm
  | append_singleton l a ih =>
    have hbefore' : ∀ b ∈ l, b ≠ m → precedes m b = true := fun b hb => hbefore b (by simp [hb])
    rw [keepFirst_concat]
    by_cases hin : m ∈ l
    · rw [ih hin hbefore' fun b hb => hafter b (by simp [hb])]
      simp [earlier, hcounts, hafter a (by simp)]
    · obtain rfl : m = a := by simpa [hin] using hm
      unfold earlier
      split
      · rfl
      · rename_i b hbest
        have hb := keepFirst_mem hbest
        have hne : b ≠ m := fun h => hin (h ▸ hb)
        simp [hbefore' b hb hne]

end

end Mindwtr.Lib
