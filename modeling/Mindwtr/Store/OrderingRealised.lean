import Mindwtr.Lib.StableSort
import Mindwtr.Store.Ordering

/-!
# What a reordering brings about

A list that an action sorts as it is shown (`Reorderable`) is shown as it was asked for afterwards: by a key that
its elements' orders map into (`Reorderable.realises`). A plan that gives new orders to all sorts the list into the
wanted arrangement whatever it was before. A plan for one element rests on `sparseOrderForMove_spec`: the new order
lies strictly between those of the new neighbours, and an element without an order is shown after all others.
-/

namespace Mindwtr.Store

open Mindwtr.Js Mindwtr.Sync Mindwtr.Lib

/-! ### Moving one id -/

theorem idxOf_append_cons {front back : List String} {m : String} (h : m ∉ front) :
    (front ++ m :: back).idxOf m = front.length := by
  rw [List.idxOf_append_of_notMem h, List.idxOf_cons_self, Nat.add_zero]

/-- A moved id stands between two parts of the other ids, which keep their order. -/
theorem movedIds_split {currentIds nextIds : List String} {m : String} (hnext : m ∈ nextIds)
    (hmoved : movedIds currentIds nextIds m = nextIds) (hnodup : nextIds.Nodup) :
    ∃ front back, nextIds = front ++ m :: back ∧ front ++ back = currentIds.eraseIdx (currentIds.idxOf m) ∧
      m ∉ front := by
  obtain ⟨front, back, hsplit⟩ := List.append_of_mem hnext
  have hfront : m ∉ front := by
    rw [hsplit, List.nodup_append] at hnodup
    exact fun h => hnodup.2.2 m h m (by simp) rfl
  refine ⟨front, back, hsplit, ?_, hfront⟩
  have herase : (movedIds currentIds nextIds m).eraseIdx (nextIds.idxOf m) =
      currentIds.eraseIdx (currentIds.idxOf m) := by
    unfold movedIds
    rw [List.eraseIdx_insertIdx_self]
  rw [← herase, hmoved, hsplit, idxOf_append_cons hfront, List.eraseIdx_append_of_length_le le_rfl, Nat.sub_self,
    List.eraseIdx_zero, List.tail_cons]

theorem findSingleMovedId_spec {currentIds nextIds : List String} {m : String}
    (h : findSingleMovedId currentIds nextIds = some m) :
    m ∈ currentIds ∧ m ∈ nextIds ∧ movedIds currentIds nextIds m = nextIds := by
  unfold findSingleMovedId at h
  split at h
  · cases h
  · have hfound := List.find?_some h
    simpa using hfound

theorem insertIdx_erase {l : List String} {x : String} (hx : x ∈ l) : (l.erase x).insertIdx (l.idxOf x) x = l := by
  have hlt := List.idxOf_lt_length_of_mem hx
  rw [List.erase_eq_eraseIdx_of_idxOf rfl]
  have hself := List.insertIdx_eraseIdx_getElem hlt
  rwa [List.getElem_idxOf hlt] at hself

/-- Where one id was moved, one that was moved is found. -/
theorem findSingleMovedId_isSome {currentIds nextIds : List String} {x : String} (hcurrent : currentIds.Nodup)
    (hnext : nextIds.Nodup) (hne : currentIds ≠ nextIds) (hx : x ∈ currentIds) (hx' : x ∈ nextIds)
    (hrest : currentIds.erase x = nextIds.erase x) : (findSingleMovedId currentIds nextIds).isSome := by
  have hlength : currentIds.length = nextIds.length := by
    have := congrArg List.length hrest
    rw [List.length_erase_of_mem hx, List.length_erase_of_mem hx'] at this
    have := List.length_pos_of_mem hx
    have := List.length_pos_of_mem hx'
    omega
  unfold findSingleMovedId
  rw [if_neg (by simp [hlength, hne, hcurrent, hnext]), List.find?_isSome]
  have hmoved : movedIds currentIds nextIds x = nextIds := by
    rw [movedIds, ← List.erase_eq_eraseIdx_of_idxOf rfl, hrest, insertIdx_erase hx']
  refine ⟨x, ?_, by simp [hx, hx', hmoved]⟩
  -- at its new place another id stood before
  have hlt := List.idxOf_lt_length_of_mem hx'
  have hlt' : nextIds.idxOf x < currentIds.length := by omega
  have hother : currentIds[nextIds.idxOf x] ≠ x := by
    intro hsame
    apply hne
    have hidx : currentIds.idxOf x = nextIds.idxOf x := by
      have hfirst := hcurrent.idxOf_getElem (nextIds.idxOf x) hlt'
      rwa [hsame] at hfirst
    rw [← insertIdx_erase hx, hrest, hidx, insertIdx_erase hx']
  refine List.mem_flatMap.2 ⟨(currentIds[nextIds.idxOf x], x), ?_, ?_⟩
  · refine List.mem_iff_getElem.2 ⟨nextIds.idxOf x, by simp [hlt, hlt'], ?_⟩
    rw [List.getElem_zip, List.getElem_idxOf hlt]
  · dsimp only
    rw [if_neg hother]
    split <;> simp

/-! ### The order between two neighbours -/

section
variable {front back : List String} {m : String}

theorem neighbourId_pred (hids : ∀ id ∈ front, id ≠ "") (hm : m ∉ front) :
    neighbourId (front ++ m :: back) (predIndex ((front ++ m :: back).idxOf m)) = front.getLast? := by
  rw [idxOf_append_cons hm]
  rcases List.eq_nil_or_concat front with rfl | ⟨init, last, rfl⟩
  · rfl
  · have hlast : last ≠ "" := hids last (by simp)
    simp [neighbourId, predIndex, hlast]

theorem neighbourId_succ (hids : ∀ id ∈ back, id ≠ "") (hm : m ∉ front) :
    neighbourId (front ++ m :: back) (some ((front ++ m :: back).idxOf m + 1)) = back.head? := by
  rw [idxOf_append_cons hm]
  cases back with
  | nil => simp [neighbourId]
  | cons first rest =>
    have hfirst : first ≠ "" := hids first (by simp)
    simp [neighbourId, hfirst]

variable [Doubles]

theorem midpoint_spec {p n k : Rat} (h : midpoint p n = some k) : p < k ∧ k < n ∧ ∃ z : Int, k = z := by
  unfold midpoint at h
  obtain ⟨mid, -, hmid⟩ := Option.bind_eq_some_iff.1 h
  split at hmid
  · cases hmid
  · rename_i hbetween
    obtain ⟨hp, hn⟩ := not_or.1 hbetween
    obtain rfl := Option.some.inj hmid
    exact ⟨not_le.1 hp, not_le.1 hn, mid, rfl⟩

/-- Orders of this size can be counted on from without rounding. -/
def IsModerate (q : Rat) : Prop := -2 ^ 52 ≤ q ∧ q ≤ 2 ^ 52

theorem round_step {q k : Rat} {step : Int} (hq : IsModerate q) (hstep : -orderStep ≤ step ∧ step ≤ orderStep)
    (h : Doubles.round ((q.floor + step : Int) : Rat) = some k) : k = ((q.floor + step : Int) : Rat) := by
  have hlow : (-2 ^ 52 : Int) ≤ q.floor := Rat.le_floor_iff.2 (by exact_mod_cast hq.1)
  have hhigh : q.floor ≤ (2 ^ 52 : Int) := by
    have hle : ((q.floor : Int) : Rat) ≤ ((2 ^ 52 : Int) : Rat) := le_trans (Rat.floor_le q) (by exact_mod_cast hq.2)
    exact_mod_cast hle
  unfold orderStep at hstep
  rw [Doubles.round_int _ (by omega) (by omega)] at h
  exact (Option.some.inj h).symm

/-- The order lies strictly between those of the neighbours. -/
theorem sparseOrderForMove_spec {orderById : String → Option Rat} {k : Rat} (hids : ∀ id ∈ front ++ back, id ≠ "")
    (hm : m ∉ front) (hmoderate : ∀ id ∈ front ++ back, ∀ q, orderById id = some q → IsModerate q)
    (hsome : front ++ back ≠ [])
    (h : sparseOrderForMove (front ++ m :: back) m orderById = some k) :
    (∀ p ∈ front.getLast?, ∃ q, orderById p = some q ∧ q < k) ∧
      (∀ n ∈ back.head?, ∀ q, orderById n = some q → k < q) ∧ ∃ z : Int, k = z := by
  unfold sparseOrderForMove at h
  dsimp only at h
  rw [neighbourId_pred (fun id hid => hids id (List.mem_append_left _ hid)) hm,
    neighbourId_succ (fun id hid => hids id (List.mem_append_right _ hid)) hm] at h
  have hfloor : ∀ q : Rat, q < ((q.floor + orderStep : Int) : Rat) := by
    intro q
    have hlt : q < ((q.floor + 1 : Int) : Rat) := by exact_mod_cast Rat.lt_floor_add_one q
    have hle : ((q.floor + 1 : Int) : Rat) ≤ ((q.floor + orderStep : Int) : Rat) := by
      exact_mod_cast (by unfold orderStep; omega)
    exact lt_of_lt_of_le hlt hle
  cases hlast : front.getLast? with
  | none =>
    cases hfirst : back.head? with
    | none =>
      rw [List.getLast?_eq_none_iff] at hlast
      rw [List.head?_eq_none_iff] at hfirst
      exact absurd (by simp [hlast, hfirst]) hsome
    | some n =>
      rw [hlast, hfirst] at h
      refine ⟨by simp, ?_⟩
      have hmem : n ∈ front ++ back := List.mem_append_right _ (List.mem_of_mem_head? hfirst)
      dsimp only at h
      cases hn : orderById n with
      | none =>
        rw [hn] at h
        obtain rfl := Option.some.inj h
        refine ⟨?_, 0, by simp⟩
        rintro n' hn' q hq
        obtain rfl : n = n' := by simpa using hn'
        rw [hn] at hq
        cases hq
      | some y =>
        rw [hn] at h
        have hround : k = ((y.floor + -orderStep : Int) : Rat) :=
          round_step (hmoderate n hmem y hn) (by unfold orderStep; omega) (by simpa [sub_eq_add_neg] using h)
        refine ⟨?_, _, hround⟩
        rintro n' hn' q hq
        obtain rfl : n = n' := by simpa using hn'
        rw [hn] at hq
        obtain rfl := Option.some.inj hq
        have hlt : ((y.floor + -orderStep : Int) : Rat) < ((y.floor : Int) : Rat) := by
          exact_mod_cast (by unfold orderStep; omega)
        rw [hround]
        exact lt_of_lt_of_le hlt (Rat.floor_le y)
  | some p =>
    have hmem : p ∈ front ++ back := List.mem_append_left _ (List.mem_of_getLast? hlast)
    rw [hlast] at h
    dsimp only at h
    cases hp : orderById p with
    | none => simp [hp] at h
    | some x =>
      cases hn : back.head?.bind orderById with
      | none =>
        rw [hp, hn] at h
        have hround := round_step (hmoderate p hmem x hp) (by unfold orderStep; omega) h
        refine ⟨?_, ?_, _, hround⟩
        · rintro p' hp'
          obtain rfl : p = p' := by simpa using hp'
          exact ⟨x, hp, hround ▸ hfloor x⟩
        · intro n hfirst q hq
          have hfirst' : back.head? = some n := hfirst
          rw [hfirst', Option.bind_some, hq] at hn
          cases hn
      | some y =>
        rw [hp, hn] at h
        obtain ⟨hxk, hky, hint⟩ := midpoint_spec h
        refine ⟨?_, ?_, hint⟩
        · rintro p' hp'
          obtain rfl : p = p' := by simpa using hp'
          exact ⟨x, hp, hxk⟩
        · intro n hfirst q hq
          have hfirst' : back.head? = some n := hfirst
          rw [hfirst', Option.bind_some, hq] at hn
          obtain rfl := Option.some.inj hn
          exact hky

end

/-! ### A list under a request -/

/-- The ids of a request that are in the list, then the others as they were. -/
def requestedIds (shownIds orderedIds : List String) : List String :=
  finalOrderedIds shownIds (uniqueValidIds orderedIds shownIds)

/-- What a list and the order it is shown in have to do with each other. -/
structure Reorderable {α K : Type} [LinearOrder K] (o : SiblingList α) (cmp : α → α → Ordering) (key : α → K)
    (rank : Rat → K) (all : List α) : Prop where
  nodup : (all.map o.id).Nodup
  nonempty : ∀ a ∈ all, o.id a ≠ ""
  write_id : ∀ a ∈ o.siblings all, ∀ n, o.id (o.write a n) = o.id a
  write_sibling : ∀ a ∈ o.siblings all, ∀ n, o.isSibling (o.write a n) = true
  write_order : ∀ a ∈ o.siblings all, ∀ n, o.order (o.write a n) = some n
  hasOrder : ∀ a n, o.hasOrder a n = true → o.order a = some n
  moderate : ∀ a ∈ o.siblings all, ∀ q, o.order a = some q → IsModerate q
  total : ∀ a b, cmp a b ≠ .gt ∨ cmp b a ≠ .gt
  trans : ∀ a b c, cmp a b ≠ .gt → cmp b c ≠ .gt → cmp a c ≠ .gt
  ordersBy : OrdersBy (fun a b => cmp a b ≠ .gt) key
  rank_mono : StrictMono rank
  key_order : ∀ a q, o.order a = some q → key a = rank q
  /-- An element without an order is shown after those that have one. -/
  missing : ∀ a ∈ o.siblings all, o.order a = none → ∀ q, rank q < key a
  shown : o.currentIds all = displayedIds o.id o.isSibling cmp all

/-- `all'` is `all` but for the element of one id. -/
def OnlyWrites {α : Type} (id : α → String) (moved : String) (all all' : List α) : Prop :=
  List.Forall₂ (fun a a' => a' = a ∨ id a = moved) all all'

/-- What a request brings about. -/
structure Realises [Doubles] {α : Type} (o : SiblingList α) (cmp : α → α → Ordering) (all all' : List α)
    (orderedIds : List String) : Prop where
  /-- The valid ids of the request are shown first, the others behind them as they were. -/
  shown : displayedIds o.id o.isSibling cmp all' = requestedIds (displayedIds o.id o.isSibling cmp all) orderedIds
  integral : List.Forall₂ (fun a a' => a' = a ∨ ∃ z : Int, o.order a' = some (z : Rat)) all all'
  /-- Where the move of one id is asked for, such a move is found, and where there is room between its new
  neighbours only its element is written. -/
  single : ∀ x ∈ displayedIds o.id o.isSibling cmp all,
    displayedIds o.id o.isSibling cmp all ≠ requestedIds (displayedIds o.id o.isSibling cmp all) orderedIds →
    (displayedIds o.id o.isSibling cmp all).erase x =
      (requestedIds (displayedIds o.id o.isSibling cmp all) orderedIds).erase x →
    ∃ moved ∈ displayedIds o.id o.isSibling cmp all,
      (displayedIds o.id o.isSibling cmp all).erase moved =
        (requestedIds (displayedIds o.id o.isSibling cmp all) orderedIds).erase moved ∧
      ∀ p n x y, [p, moved, n] <:+: requestedIds (displayedIds o.id o.isSibling cmp all) orderedIds →
        o.orderById all p = some x → o.orderById all n = some y → (midpoint x y).isSome →
        OnlyWrites o.id moved all all'

theorem requestedIds_perm {shownIds : List String} (h : shownIds.Nodup) (orderedIds : List String) :
    (requestedIds shownIds orderedIds).Perm shownIds := by
  have hrequested : (uniqueValidIds orderedIds shownIds).Nodup := nodup_eraseDups _
  have hnodup : (requestedIds shownIds orderedIds).Nodup := by
    unfold requestedIds finalOrderedIds
    rw [List.nodup_append]
    refine ⟨hrequested, h.filter _, ?_⟩
    rintro a ha b hb rfl
    simp only [List.mem_filter, decide_eq_true_eq] at hb
    exact hb.2 ha
  rw [List.perm_ext_iff_of_nodup hnodup h]
  intro id
  simp only [requestedIds, finalOrderedIds, uniqueValidIds, List.mem_append, List.mem_filter, List.mem_eraseDups,
    decide_eq_true_eq]
  tauto

/-- Elements can be looked up by distinct ids. -/
theorem exists_lookup {α : Type} {id : α → String} {l : List α} (h : (l.map id).Nodup) (a₀ : α) :
    ∃ get : String → α, ∀ a ∈ l, get (id a) = a := by
  refine ⟨fun i => (l.find? fun a => id a == i).getD a₀, fun a ha => ?_⟩
  have hfound : (l.find? fun b => id b == id a).isSome := List.find?_isSome.2 ⟨a, ha, by simp⟩
  obtain ⟨b, hb⟩ := Option.isSome_iff_exists.1 hfound
  have hid : id b = id a := by simpa using List.find?_some hb
  simp only [hb, Option.getD_some]
  exact List.inj_on_of_nodup_map h (List.mem_of_find?_eq_some hb) ha hid

theorem pairwise_idxOf {l : List String} (h : l.Nodup) : l.Pairwise fun a b => l.idxOf a < l.idxOf b := by
  rw [List.pairwise_iff_getElem]
  intro i j hi hj hij
  rwa [h.idxOf_getElem i hi, h.idxOf_getElem j hj]

theorem nextIds_of_no_request {α : Type} {o : SiblingList α} {all : List α} {orderedIds : List String}
    (hnone : uniqueValidIds orderedIds (o.currentIds all) = []) :
    o.nextIds all orderedIds = o.currentIds all := by
  rw [SiblingList.nextIds, hnone]
  simp [finalOrderedIds]

section
variable {α K : Type} [LinearOrder K] {o : SiblingList α} {cmp : α → α → Ordering} {key : α → K}
  {rank : Rat → K} {all : List α}

namespace Reorderable

variable (h : Reorderable o cmp key rank all)
include h

theorem applyPlan_sibling (plan : SparseOrderPlan) {a : α} (ha : a ∈ all) :
    o.isSibling (o.applyPlan plan a) = o.isSibling a := by
  unfold SiblingList.applyPlan
  split
  · split
    · rename_i hwritten
      obtain ⟨hsibling, -⟩ := Bool.and_eq_true_iff.1 hwritten
      rw [h.write_sibling a (List.mem_filter.2 ⟨ha, hsibling⟩), hsibling]
    · rfl
  · rfl

theorem applyPlan_id (plan : SparseOrderPlan) {a : α} (ha : a ∈ all) : o.id (o.applyPlan plan a) = o.id a := by
  unfold SiblingList.applyPlan
  split
  · split
    · rename_i hwritten
      obtain ⟨hsibling, -⟩ := Bool.and_eq_true_iff.1 hwritten
      exact h.write_id a (List.mem_filter.2 ⟨ha, hsibling⟩) _
    · rfl
  · rfl

/-- A sibling has the order the plan gives it. -/
theorem applyPlan_order {plan : SparseOrderPlan} {a : α} {n : Rat} (ha : a ∈ o.siblings all)
    (hplan : orderFromPlan plan (o.id a) = some n) : o.order (o.applyPlan plan a) = some n := by
  have hsibling := (List.mem_filter.1 ha).2
  rw [SiblingList.applyPlan, hplan]
  dsimp only
  rw [hsibling, Bool.true_and]
  split
  · exact h.write_order a ha n
  · rename_i hkept
    exact h.hasOrder a n (by simpa using hkept)

theorem siblings_applyPlan (plan : SparseOrderPlan) :
    (all.map (o.applyPlan plan)).filter o.isSibling = (o.siblings all).map (o.applyPlan plan) := by
  rw [List.filter_map, SiblingList.siblings]
  congr 1
  apply List.filter_congr
  intro a ha
  exact h.applyPlan_sibling plan ha

theorem siblings_nodup : ((o.siblings all).map o.id).Nodup :=
  h.nodup.sublist (List.filter_sublist.map o.id)

theorem currentIds_nodup : (o.currentIds all).Nodup :=
  ((List.perm_insertionSort _ _).map o.id).nodup_iff.2 h.siblings_nodup

theorem nextIds_perm (orderedIds : List String) : (o.nextIds all orderedIds).Perm (o.currentIds all) :=
  requestedIds_perm h.currentIds_nodup orderedIds

/-- What is shown after the siblings were written. -/
theorem displayedIds_applyPlan {plan : SparseOrderPlan} {arrangement : List α} (hperm : arrangement.Perm (o.siblings all))
    (hsorted : ((o.siblings all).map (o.applyPlan plan)).insertionSort (fun a b => cmp a b ≠ .gt) =
      arrangement.map (o.applyPlan plan)) :
    displayedIds o.id o.isSibling cmp (all.map (o.applyPlan plan)) = arrangement.map o.id := by
  rw [displayedIds, h.siblings_applyPlan, hsorted, List.map_map]
  apply List.map_congr_left
  intro a ha
  exact h.applyPlan_id plan (List.mem_filter.1 (hperm.mem_iff.1 ha)).1

theorem orderById_eq {a : α} (ha : a ∈ o.siblings all) : o.orderById all (o.id a) = o.order a := by
  have hfound : ((o.siblings all).find? fun b => o.id b == o.id a).isSome :=
    List.find?_isSome.2 ⟨a, ha, by simp⟩
  obtain ⟨b, hb⟩ := Option.isSome_iff_exists.1 hfound
  have hid : o.id b = o.id a := by simpa using List.find?_some hb
  have heq : b = a := List.inj_on_of_nodup_map h.siblings_nodup (List.mem_of_find?_eq_some hb) ha hid
  rw [SiblingList.orderById, hb, heq]
  rfl

theorem written_nodup (plan : SparseOrderPlan) : ((o.siblings all).map (o.applyPlan plan)).Nodup := by
  apply List.Nodup.of_map o.id
  have hids : ((o.siblings all).map (o.applyPlan plan)).map o.id = (o.siblings all).map o.id := by
    rw [List.map_map]
    apply List.map_congr_left
    intro a ha
    exact h.applyPlan_id plan (List.mem_filter.1 ha).1
  rw [hids]
  exact h.siblings_nodup

/-- The siblings by their ids, and the order they are shown in. -/
theorem exists_siblingById (hsome : o.currentIds all ≠ []) :
    ∃ get : String → α, (∀ i ∈ o.currentIds all, get i ∈ o.siblings all ∧ o.id (get i) = i) ∧
      (o.currentIds all).map get = (o.siblings all).insertionSort (fun a b => cmp a b ≠ .gt) := by
  have hshown := h.shown
  obtain ⟨i, hi⟩ := List.exists_mem_of_ne_nil _ hsome
  obtain ⟨a₀, -, -⟩ := List.mem_map.1 hi
  obtain ⟨get, hget⟩ := exists_lookup h.siblings_nodup a₀
  refine ⟨get, fun i hi => ?_, ?_⟩
  · obtain ⟨a, ha, rfl⟩ := List.mem_map.1 hi
    rw [List.mem_insertionSort] at ha
    rw [hget a ha]
    exact ⟨ha, rfl⟩
  · rw [hshown, displayedIds, List.map_map]
    refine (List.map_congr_left fun a ha => ?_).trans (List.map_id' _)
    exact hget a ((List.mem_insertionSort _).1 ha)

variable {nextIds : List String}

theorem shown_of_rebalance (hperm : nextIds.Perm (o.currentIds all)) (hsome : o.currentIds all ≠ []) :
    displayedIds o.id o.isSibling cmp (all.map (o.applyPlan (.rebalance nextIds))) = nextIds := by
  have : Std.Total fun a b : α => cmp a b ≠ .gt := ⟨h.total⟩
  have : IsTrans α fun a b => cmp a b ≠ .gt := ⟨h.trans⟩
  obtain ⟨get, hget, hsorted⟩ := h.exists_siblingById hsome
  have hmem : ∀ i ∈ nextIds, get i ∈ o.siblings all ∧ o.id (get i) = i := fun i hi => hget i (hperm.mem_iff.1 hi)
  have harrangement : (nextIds.map get).Perm (o.siblings all) := by
    have := hperm.map get
    rw [hsorted] at this
    exact this.trans (List.perm_insertionSort _ _)
  have hids : (nextIds.map get).map o.id = nextIds := by
    rw [List.map_map]
    exact (List.map_congr_left fun i hi => (hmem i hi).2).trans (List.map_id' _)
  have hkeys : (nextIds.map get).Pairwise fun a b =>
      key (o.applyPlan (.rebalance nextIds) a) < key (o.applyPlan (.rebalance nextIds) b) := by
    rw [List.pairwise_map]
    refine (pairwise_idxOf (hperm.nodup_iff.2 h.currentIds_nodup)).imp_of_mem fun {i j} hi hj hlt => ?_
    have horder : ∀ i ∈ nextIds, key (o.applyPlan (.rebalance nextIds) (get i)) =
        rank ((nextIds.idxOf i * 1024 : Nat) : Rat) := by
      intro i hi
      obtain ⟨hsibling, hid⟩ := hmem i hi
      exact h.key_order _ _ (h.applyPlan_order hsibling (by rw [hid, orderFromPlan, if_pos hi]))
    rw [horder i hi, horder j hj]
    apply h.rank_mono
    have : nextIds.idxOf i * 1024 < nextIds.idxOf j * 1024 := by omega
    exact_mod_cast this
  rw [h.displayedIds_applyPlan harrangement
    (insertionSort_renumbered h.ordersBy (h.written_nodup _) harrangement hkeys), hids]

theorem shown_of_single {front back : List String} {moved : String} {n : Rat}
    (hperm : (front ++ moved :: back).Perm (o.currentIds all))
    (hrest : (front ++ back).Sublist (o.currentIds all)) (hnot : moved ∉ front ++ back)
    (hfront : ∀ p ∈ front.getLast?, ∃ q, o.orderById all p = some q ∧ q < n)
    (hback : ∀ i ∈ back.head?, ∀ q, o.orderById all i = some q → n < q) :
    displayedIds o.id o.isSibling cmp (all.map (o.applyPlan (.single moved n))) = front ++ moved :: back := by
  have : Std.Total fun a b : α => cmp a b ≠ .gt := ⟨h.total⟩
  have : IsTrans α fun a b => cmp a b ≠ .gt := ⟨h.trans⟩
  have hmoved : moved ∈ o.currentIds all := hperm.mem_iff.1 (by simp)
  obtain ⟨get, hget, hsorted⟩ := h.exists_siblingById (List.ne_nil_of_mem hmoved)
  have hmem : ∀ i ∈ front ++ moved :: back, get i ∈ o.siblings all ∧ o.id (get i) = i :=
    fun i hi => hget i (hperm.mem_iff.1 hi)
  have hothers : ∀ i ∈ front ++ back, get i ∈ o.siblings all ∧ o.id (get i) = i :=
    fun i hi => hget i (hrest.subset hi)
  have harrangement : (front.map get ++ get moved :: back.map get).Perm (o.siblings all) := by
    have := hperm.map get
    rw [hsorted] at this
    simpa using this.trans (List.perm_insertionSort _ _)
  have hkeep : ∀ a ∈ front.map get ++ back.map get, o.applyPlan (.single moved n) a = a := by
    intro a ha
    rw [← List.map_append] at ha
    obtain ⟨i, hi, rfl⟩ := List.mem_map.1 ha
    have hne : moved ≠ i := fun heq => hnot (heq ▸ hi)
    rw [SiblingList.applyPlan, (hothers i hi).2, orderFromPlan, if_neg hne]
  have hkey : key (o.applyPlan (.single moved n) (get moved)) = rank n := by
    obtain ⟨hsibling, hid⟩ := hget moved hmoved
    exact h.key_order _ _ (h.applyPlan_order hsibling (by rw [hid, orderFromPlan, if_pos rfl]))
  have hfront' : ∀ a ∈ (front.map get).getLast?, key a < key (o.applyPlan (.single moved n) (get moved)) := by
    intro a ha
    rw [List.getLast?_map] at ha
    obtain ⟨p, hp, rfl⟩ := Option.map_eq_some_iff.1 ha
    obtain ⟨hsibling, hid⟩ := hothers p (List.mem_append_left _ (List.mem_of_getLast? hp))
    obtain ⟨q, hq, hlt⟩ := hfront p hp
    rw [← hid, h.orderById_eq hsibling] at hq
    rw [hkey, h.key_order _ _ hq]
    exact h.rank_mono hlt
  have hback' : ∀ b ∈ (back.map get).head?, key (o.applyPlan (.single moved n) (get moved)) < key b := by
    intro b hb
    rw [List.head?_map] at hb
    obtain ⟨i, hi, rfl⟩ := Option.map_eq_some_iff.1 hb
    obtain ⟨hsibling, hid⟩ := hothers i (List.mem_append_right _ (List.mem_of_mem_head? hi))
    rw [hkey]
    cases horder : o.order (get i) with
    | none => exact h.missing _ hsibling horder n
    | some q =>
      rw [h.key_order _ _ horder]
      apply h.rank_mono
      exact hback i hi q (by rw [← hid, h.orderById_eq hsibling, horder])
  have hresult := insertionSort_moved h.ordersBy (h.siblings_nodup.of_map o.id) (h.written_nodup _) harrangement
    (by rw [← List.map_append, ← hsorted]; exact hrest.map get) hkeep hfront' hback'
  have hshown : displayedIds o.id o.isSibling cmp (all.map (o.applyPlan (.single moved n))) =
      (front.map get ++ get moved :: back.map get).map o.id := by
    apply h.displayedIds_applyPlan harrangement
    rw [hresult, List.map_append, List.map_cons]
    congr 1
    · refine ((List.map_congr_left fun a ha => ?_).trans (List.map_id' _)).symm
      exact hkeep a (List.mem_append_left _ ha)
    · congr 1
      refine ((List.map_congr_left fun a ha => ?_).trans (List.map_id' _)).symm
      exact hkeep a (List.mem_append_right _ ha)
  rw [hshown, ← List.map_cons, ← List.map_append, List.map_map]
  exact (List.map_congr_left fun i hi => (hmem i hi).2).trans (List.map_id' _)

theorem nextIds_nodup (orderedIds : List String) : (o.nextIds all orderedIds).Nodup :=
  (h.nextIds_perm orderedIds).nodup_iff.2 h.currentIds_nodup

theorem currentIds_nonempty {i : String} (hi : i ∈ o.currentIds all) : i ≠ "" := by
  obtain ⟨a, ha, rfl⟩ := List.mem_map.1 hi
  rw [List.mem_insertionSort] at ha
  exact h.nonempty a (List.mem_filter.1 ha).1

theorem currentIds_moderate {i : String} (hi : i ∈ o.currentIds all) {q : Rat} (hq : o.orderById all i = some q) :
    IsModerate q := by
  obtain ⟨a, ha, rfl⟩ := List.mem_map.1 hi
  rw [List.mem_insertionSort] at ha
  rw [h.orderById_eq ha] at hq
  exact h.moderate a ha q hq

/-- A found move is that of one id. -/
theorem split_of_found {orderedIds : List String} {m : String}
    (hfound : findSingleMovedId (o.currentIds all) (o.nextIds all orderedIds) = some m) :
    ∃ front back, o.nextIds all orderedIds = front ++ m :: back ∧ front ++ back = (o.currentIds all).erase m ∧
      m ∉ front := by
  obtain ⟨-, hnext, hmoved⟩ := findSingleMovedId_spec hfound
  obtain ⟨front, back, hsplit, hrest, hfront⟩ := movedIds_split hnext hmoved (h.nextIds_nodup orderedIds)
  refine ⟨front, back, hsplit, ?_, hfront⟩
  rw [hrest, List.erase_eq_eraseIdx_of_idxOf rfl]

theorem integral_applyPlan {plan : SparseOrderPlan}
    (hplan : ∀ i n, orderFromPlan plan i = some n → ∃ z : Int, n = z) :
    List.Forall₂ (fun a a' => a' = a ∨ ∃ z : Int, o.order a' = some (z : Rat)) all (all.map (o.applyPlan plan)) := by
  rw [List.forall₂_map_right_iff, List.forall₂_same]
  intro a ha
  cases horder : orderFromPlan plan (o.id a) with
  | none =>
    left
    rw [SiblingList.applyPlan, horder]
  | some n =>
    by_cases hsibling : o.isSibling a = true
    · right
      obtain ⟨z, rfl⟩ := hplan _ _ horder
      exact ⟨z, h.applyPlan_order (List.mem_filter.2 ⟨ha, hsibling⟩) horder⟩
    · left
      rw [SiblingList.applyPlan, horder]
      simp [hsibling]

variable [Doubles]

/-- The three ways a request is met. -/
theorem plan_cases (orderedIds : List String) :
    (o.plan all orderedIds = none ∧ o.currentIds all = o.nextIds all orderedIds) ∨
      (o.currentIds all ≠ o.nextIds all orderedIds ∧ ∃ m k,
        o.plan all orderedIds = some (.single m k) ∧
        findSingleMovedId (o.currentIds all) (o.nextIds all orderedIds) = some m ∧
        sparseOrderForMove (o.nextIds all orderedIds) m (o.orderById all) = some k) ∨
      (o.currentIds all ≠ o.nextIds all orderedIds ∧
        o.plan all orderedIds = some (.rebalance (o.nextIds all orderedIds)) ∧
        ∀ m, findSingleMovedId (o.currentIds all) (o.nextIds all orderedIds) = some m →
          sparseOrderForMove (o.nextIds all orderedIds) m (o.orderById all) = none) := by
  by_cases hrequest : uniqueValidIds orderedIds (o.currentIds all) = []
  · left
    exact ⟨by rw [SiblingList.plan, if_pos hrequest], (nextIds_of_no_request hrequest).symm⟩
  by_cases hsame : o.currentIds all = o.nextIds all orderedIds
  · left
    exact ⟨by rw [SiblingList.plan, if_neg hrequest, createSparseOrderPlan, if_pos hsame], hsame⟩
  right
  rw [SiblingList.plan, if_neg hrequest, createSparseOrderPlan, if_neg hsame]
  cases hfound : findSingleMovedId (o.currentIds all) (o.nextIds all orderedIds) with
  | none => exact .inr ⟨hsame, rfl, by simp⟩
  | some m =>
    have hm : m ≠ "" := h.currentIds_nonempty (findSingleMovedId_spec hfound).1
    have hkept : (some m).filter (· != "") = some m := by simp [Option.filter, hm]
    rw [hkept, Option.bind_some]
    cases horder : sparseOrderForMove (o.nextIds all orderedIds) m (o.orderById all) with
    | none =>
      refine .inr ⟨hsame, rfl, fun m' hm' => ?_⟩
      rw [← Option.some.inj hm', horder]
    | some k => exact .inl ⟨hsame, m, k, rfl, rfl, horder⟩

/-- The order of a moved element against those of the others. -/
theorem sparse_spec {orderedIds : List String} {m : String} {k : Rat} {front back : List String}
    (hne : o.currentIds all ≠ o.nextIds all orderedIds) (hsplit : o.nextIds all orderedIds = front ++ m :: back)
    (hrest : front ++ back = (o.currentIds all).erase m) (hfront : m ∉ front)
    (horder : sparseOrderForMove (o.nextIds all orderedIds) m (o.orderById all) = some k) :
    (∀ p ∈ front.getLast?, ∃ q, o.orderById all p = some q ∧ q < k) ∧
      (∀ n ∈ back.head?, ∀ q, o.orderById all n = some q → k < q) ∧ ∃ z : Int, k = z := by
  have hsub : ∀ i ∈ front ++ back, i ∈ o.currentIds all := by
    intro i hi
    rw [hrest] at hi
    exact List.mem_of_mem_erase hi
  rw [hsplit] at horder
  refine sparseOrderForMove_spec (fun i hi => h.currentIds_nonempty (hsub i hi)) hfront
    (fun i hi q hq => h.currentIds_moderate (hsub i hi) hq) ?_ horder
  intro hnil
  apply hne
  obtain ⟨rfl, rfl⟩ := List.append_eq_nil_iff.1 hnil
  have hperm := h.nextIds_perm orderedIds
  rw [hsplit, List.nil_append] at hperm
  rw [hsplit, List.nil_append, List.singleton_perm.1 hperm]

/-- Where there is room between two neighbours with orders, the moved element gets one there. -/
theorem sparseOrderForMove_isSome {orderedIds : List String} {p m n : String} {x y : Rat}
    (hplace : [p, m, n] <:+: o.nextIds all orderedIds) (hp : o.orderById all p = some x)
    (hn : o.orderById all n = some y) (hroom : (midpoint x y).isSome) :
    (sparseOrderForMove (o.nextIds all orderedIds) m (o.orderById all)).isSome := by
  obtain ⟨before, after, hsplit⟩ := hplace
  have hnext : o.nextIds all orderedIds = (before ++ [p]) ++ m :: ([n] ++ after) := by
    rw [← hsplit]
    simp
  have hmem : ∀ i ∈ o.nextIds all orderedIds, i ≠ "" :=
    fun i hi => h.currentIds_nonempty ((h.nextIds_perm orderedIds).mem_iff.1 hi)
  have hnodup := h.nextIds_nodup orderedIds
  rw [hnext] at hmem hnodup ⊢
  have hm : m ∉ before ++ [p] := fun hin => (List.nodup_append.1 hnodup).2.2 m hin m (by simp) rfl
  unfold sparseOrderForMove
  dsimp only
  rw [neighbourId_pred (fun i hi => hmem i (List.mem_append_left _ hi)) hm,
    neighbourId_succ (fun i hi => hmem i (List.mem_append_right _ (List.mem_cons_of_mem _ hi))) hm]
  simpa [hp, hn] using hroom

theorem realises_shown (orderedIds : List String) :
    displayedIds o.id o.isSibling cmp (o.reorder all orderedIds) = o.nextIds all orderedIds := by
  rcases h.plan_cases orderedIds with ⟨hplan, hsame⟩ | ⟨hne, m, k, hplan, hfound, horder⟩ | ⟨hne, hplan, -⟩
  · rw [SiblingList.reorder, hplan, ← hsame, h.shown]
  · obtain ⟨front, back, hsplit, hrest, hfront⟩ := h.split_of_found hfound
    obtain ⟨hprevious, hnext, -⟩ := h.sparse_spec hne hsplit hrest hfront horder
    have hback : m ∉ back := by
      have hnodup := h.nextIds_nodup orderedIds
      rw [hsplit, List.nodup_append, List.nodup_cons] at hnodup
      exact hnodup.2.1.1
    rw [SiblingList.reorder, hplan, hsplit]
    apply h.shown_of_single (hsplit ▸ h.nextIds_perm orderedIds) (hrest ▸ List.erase_sublist) _ hprevious hnext
    simp [hfront, hback]
  · rw [SiblingList.reorder, hplan]
    apply h.shown_of_rebalance (h.nextIds_perm orderedIds)
    intro hnil
    apply hne
    have hperm := h.nextIds_perm orderedIds
    rw [hnil] at hperm ⊢
    exact (List.perm_nil.1 hperm).symm

theorem realises_integral (orderedIds : List String) :
    List.Forall₂ (fun a a' => a' = a ∨ ∃ z : Int, o.order a' = some (z : Rat)) all (o.reorder all orderedIds) := by
  rcases h.plan_cases orderedIds with ⟨hplan, -⟩ | ⟨hne, m, k, hplan, hfound, horder⟩ | ⟨-, hplan, -⟩
  · rw [SiblingList.reorder, hplan]
    exact List.forall₂_same.2 fun a _ => .inl rfl
  · obtain ⟨front, back, hsplit, hrest, hfront⟩ := h.split_of_found hfound
    obtain ⟨-, -, z, hz⟩ := h.sparse_spec hne hsplit hrest hfront horder
    rw [SiblingList.reorder, hplan]
    apply h.integral_applyPlan
    intro i n hn
    rw [orderFromPlan] at hn
    split at hn
    · exact ⟨z, (Option.some.inj hn).symm.trans hz⟩
    · cases hn
  · rw [SiblingList.reorder, hplan]
    apply h.integral_applyPlan
    intro i n hn
    rw [orderFromPlan] at hn
    split at hn
    · exact ⟨((o.nextIds all orderedIds).idxOf i * 1024 : Nat), by rw [← Option.some.inj hn]; simp⟩
    · cases hn

omit h in
theorem onlyWrites_of_single {orderedIds : List String} {m : String} {k : Rat}
    (hplan : o.plan all orderedIds = some (.single m k)) : OnlyWrites o.id m all (o.reorder all orderedIds) := by
  rw [OnlyWrites, SiblingList.reorder, hplan, List.forall₂_map_right_iff, List.forall₂_same]
  intro a ha
  by_cases hm : o.id a = m
  · exact .inr hm
  · left
    rw [SiblingList.applyPlan, orderFromPlan, if_neg (fun heq => hm heq.symm)]

theorem realises_single (orderedIds : List String) {x : String} (hx : x ∈ o.currentIds all)
    (hne : o.currentIds all ≠ o.nextIds all orderedIds)
    (hrest : (o.currentIds all).erase x = (o.nextIds all orderedIds).erase x) :
    ∃ moved ∈ o.currentIds all, (o.currentIds all).erase moved = (o.nextIds all orderedIds).erase moved ∧
      ∀ p n x y, [p, moved, n] <:+: o.nextIds all orderedIds → o.orderById all p = some x →
        o.orderById all n = some y → (midpoint x y).isSome → OnlyWrites o.id moved all (o.reorder all orderedIds) := by
  have hx' := (h.nextIds_perm orderedIds).mem_iff.2 hx
  obtain ⟨m, hfound⟩ := Option.isSome_iff_exists.1
    (findSingleMovedId_isSome h.currentIds_nodup (h.nextIds_nodup orderedIds) hne hx hx' hrest)
  obtain ⟨front, back, hsplit, hothers, hfront⟩ := h.split_of_found hfound
  refine ⟨m, (findSingleMovedId_spec hfound).1, ?_, ?_⟩
  · rw [← hothers, hsplit, List.erase_append_right _ hfront, List.erase_cons_head]
  intro p n a b hplace hp hn hroom
  have hsome := h.sparseOrderForMove_isSome hplace hp hn hroom
  rcases h.plan_cases orderedIds with ⟨-, hsame⟩ | ⟨-, m', k, hplan, hfound', -⟩ | ⟨-, -, hnone⟩
  · exact absurd hsame hne
  · obtain rfl : m = m' := Option.some.inj (hfound.symm.trans hfound')
    exact onlyWrites_of_single hplan
  · rw [hnone m hfound] at hsome
    cases hsome

/-- A list that is sorted as it is shown is shown as it was asked for. -/
theorem realises (orderedIds : List String) : Realises o cmp all (o.reorder all orderedIds) orderedIds := by
  refine ⟨?_, h.realises_integral orderedIds, ?_⟩
  · rw [← h.shown]
    exact h.realises_shown orderedIds
  · rw [← h.shown]
    exact fun x hx hne hrest => h.realises_single orderedIds hx hne hrest

end Reorderable

end

end Mindwtr.Store
