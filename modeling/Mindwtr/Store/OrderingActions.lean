import Mindwtr.Store.OrderingRealised

/-!
# The reordering actions

Each of the four sparse lists is `Reorderable` where the action sorts its siblings as they are shown; a request of
distinct areas numbers all active ones by their places (`reorderAreas_shown`). `reorder_realises` collects the five,
`reordered_astray` what goes wrong outside.
-/

namespace Mindwtr.Store

open Mindwtr.Js Mindwtr.Sync Mindwtr.Lib

/-! ### The comparators -/

/-- An order, where a missing one is infinite. -/
def sortKey : Option Rat → WithTop Rat
  | some q => q
  | none => ⊤

theorem sortKey_strictMono : StrictMono fun q : Rat => sortKey (some q) := WithTop.coe_strictMono

theorem compareKeys_eq (a b : Option Rat) : compareKeys a b = compare (sortKey a) (sortKey b) := by
  cases a with
  | none =>
    cases b with
    | none => exact (compare_eq_iff_eq.2 rfl).symm
    | some b => exact (compare_gt_iff_gt.2 (WithTop.coe_lt_top b)).symm
  | some a =>
    cases b with
    | none => exact (compare_lt_iff_lt.2 (WithTop.coe_lt_top a)).symm
    | some b =>
      rcases lt_trichotomy a b with hlt | rfl | hgt
      · rw [compareKeys, compare_lt_iff_lt.2 hlt]
        exact (compare_lt_iff_lt.2 (WithTop.coe_lt_coe.2 hlt)).symm
      · rw [compareKeys, compare_eq_iff_eq.2 rfl]
        exact (compare_eq_iff_eq.2 rfl).symm
      · rw [compareKeys, compare_gt_iff_gt.2 hgt]
        exact (compare_gt_iff_gt.2 (WithTop.coe_lt_coe.2 hgt)).symm

/-- Ids by their code units. -/
def compareIds (a b : String) : Ordering := if jsLt a b then .lt else if jsLt b a then .gt else .eq

theorem compareIds_ne_gt {a b : String} : compareIds a b ≠ .gt ↔ jsLt b a = false := by
  unfold compareIds
  rcases jsLt_trichotomy a b with h | rfl | h
  · simp [h, jsLt_asymm h]
  · simp [jsLt_irrefl]
  · simp [h, jsLt_asymm h]

instance : Std.TransCmp compareIds where
  eq_swap {a b} := by
    unfold compareIds
    rcases jsLt_trichotomy a b with h | rfl | h
    · simp [h, jsLt_asymm h]
    · simp [jsLt_irrefl]
    · simp [h, jsLt_asymm h]
  isLE_trans {a b c} hab hbc := by
    rw [Ordering.isLE_iff_ne_gt, ← ne_eq, compareIds_ne_gt] at *
    by_contra hca
    rw [Bool.not_eq_false] at hca
    rcases jsLt_trichotomy b c with h | rfl | h
    · rw [jsLt_trans h hca] at hab
      cases hab
    · rw [hca] at hab
      cases hab
    · rw [h] at hbc
      cases hbc

instance {α : Type} (f : α → String) : Std.TransCmp fun a b => compareIds (f a) (f b) where
  eq_swap {_ _} := @Std.OrientedCmp.eq_swap _ compareIds _ _ _
  isLE_trans {_ _ _} := @Std.TransCmp.isLE_trans _ compareIds _ _ _ _

section
variable {α K : Type} [LinearOrder K] {o : SiblingList α} {cmp tie : α → α → Ordering} {key : α → K}
  {rank : Rat → K} {all : List α}

/-- The action sorts the siblings as they are shown. -/
theorem currentIds_eq_displayedIds (h : ∀ a ∈ o.siblings all, ∀ b ∈ o.siblings all, o.sortsBefore a b = (cmp a b != .gt)) :
    o.currentIds all = displayedIds o.id o.isSibling cmp all := by
  have hsorted := List.map_insertionSort (r := fun a b => o.sortsBefore a b = true) (s := fun a b => cmp a b ≠ .gt) id
    (o.siblings all) (fun a ha b hb => by simp [h a ha b hb])
  rw [List.map_id, List.map_id] at hsorted
  rw [SiblingList.currentIds, displayedIds, hsorted]
  rfl

/-- A list shown by keys. -/
theorem reorderable_of_then [Std.TransCmp tie] (hcmp : cmp = fun a b => (compare (key a) (key b)).then (tie a b))
    (hids : (all.map o.id).Nodup) (hnonempty : ∀ a ∈ all, o.id a ≠ "")
    (hwrite : ∀ a ∈ o.siblings all, ∀ n, o.id (o.write a n) = o.id a ∧ o.isSibling (o.write a n) = true ∧
      o.order (o.write a n) = some n)
    (hhas : ∀ a n, o.hasOrder a n = true → o.order a = some n)
    (hmoderate : ∀ a ∈ o.siblings all, ∀ q, o.order a = some q → IsModerate q) (hrank : StrictMono rank)
    (hkey : ∀ a q, o.order a = some q → key a = rank q)
    (hmissing : ∀ a ∈ o.siblings all, o.order a = none → ∀ q, rank q < key a)
    (hshown : o.currentIds all = displayedIds o.id o.isSibling cmp all) : Reorderable o cmp key rank all := by
  have htrans : Std.TransCmp cmp := hcmp ▸ transCmp_then
  exact {
    nodup := hids
    nonempty := hnonempty
    write_id a ha n := (hwrite a ha n).1
    write_sibling a ha n := (hwrite a ha n).2.1
    write_order a ha n := (hwrite a ha n).2.2
    hasOrder := hhas
    moderate := hmoderate
    total a b := by
      by_contra hboth
      obtain ⟨hab, hba⟩ := not_or.1 hboth
      rw [not_not] at hab hba
      rw [Std.OrientedCmp.gt_iff_lt.1 hab] at hba
      cases hba
    trans a b c := Std.TransCmp.le_trans
    ordersBy := by
      rw [hcmp]
      exact ordersBy_then
    rank_mono := hrank
    key_order := hkey
    missing := hmissing
    shown := hshown }

end

/-- The elements have ids of their own. -/
def HaveIds {α : Type} (id : α → String) (all : List α) : Prop := (all.map id).Nodup ∧ ∀ a ∈ all, id a ≠ ""

/-- The siblings have finite orders, none of them beyond what can be counted on from. -/
def HaveOrders {α : Type} (isSibling : α → Bool) (order : α → Option Rat) (all : List α) : Prop :=
  ∀ a ∈ all, isSibling a → ∃ q, order a = some q ∧ IsModerate q

theorem HaveOrders.moderate {α : Type} {o : SiblingList α} {all : List α} (h : HaveOrders o.isSibling o.order all) :
    ∀ a ∈ o.siblings all, ∀ q, o.order a = some q → IsModerate q := by
  intro a ha q hq
  obtain ⟨hmem, hsibling⟩ := List.mem_filter.1 ha
  obtain ⟨q', hq', hmoderate⟩ := h a hmem hsibling
  obtain rfl : q = q' := Option.some.inj (hq.symm.trans hq')
  exact hmoderate

theorem HaveOrders.not_missing {α : Type} {o : SiblingList α} {all : List α} (h : HaveOrders o.isSibling o.order all)
    {a : α} (ha : a ∈ o.siblings all) : o.order a ≠ none := by
  obtain ⟨hmem, hsibling⟩ := List.mem_filter.1 ha
  obtain ⟨q, hq, -⟩ := h a hmem hsibling
  simp [hq]

theorem realises_unchanged [Doubles] {α : Type} {o : SiblingList α} {cmp : α → α → Ordering} {all : List α} :
    Realises o cmp all all [] := by
  have hsame : ∀ shownIds, requestedIds shownIds [] = shownIds := by
    intro shownIds
    simp [requestedIds, uniqueValidIds, finalOrderedIds]
  refine ⟨(hsame _).symm, List.forall₂_same.2 fun a _ => .inl rfl, ?_⟩
  intro x _ hne
  exact absurd (hsame _).symm hne

theorem stampTask_of_not_purged (edit : Edit) {task : Task} (h : truthy task.purgedAt = false) :
    stampTask edit task = { task with
      updatedAt := some (.str edit.now)
      rev := some (.num (nextRevision task.rev))
      revBy := some (.str edit.deviceId) } := by
  unfold stampTask compactPurgedTaskForLocalStorage
  rw [if_neg (by simp [h])]

section
variable [Runtime] {edit : Edit}

/-! ### Tasks of a project -/

theorem compareTasksByProjectOrder_eq : compareTasksByProjectOrder = fun a b =>
    (compare (sortKey (taskOrder a)) (sortKey (taskOrder b))).then
      ((compare (sortKey ((safeParseDate a.createdAt).map (Int.cast ·)))
        (sortKey ((safeParseDate b.createdAt).map (Int.cast ·)))).then (compareIds a.id b.id)) := by
  funext a b
  rw [compareTasksByProjectOrder, compareKeys_eq, compareKeys_eq]
  rfl

theorem projectTaskList_reorderable {projectId : String} {sectionId : Option (Option String)} {tasks : List Task}
    (hids : HaveIds (·.id) tasks) (hpurged : ∀ task ∈ tasks, isInProject projectId sectionId task →
      truthy task.purgedAt = false)
    (hmoderate : ∀ task ∈ tasks, isInProject projectId sectionId task → ∀ q ∈ taskOrder task, IsModerate q) :
    Reorderable (projectTaskList projectId sectionId edit) compareTasksByProjectOrder (fun task => sortKey (taskOrder task))
      (fun q => sortKey (some q)) tasks := by
  have : Std.TransCmp fun a b : Task =>
      (compare (sortKey ((safeParseDate a.createdAt).map (Int.cast ·)))
        (sortKey ((safeParseDate b.createdAt).map (Int.cast ·)))).then (compareIds a.id b.id) := transCmp_then
  apply reorderable_of_then compareTasksByProjectOrder_eq hids.1 hids.2
  · intro task htask n
    obtain ⟨hmem, hsibling⟩ := List.mem_filter.1 htask
    have hwritten : truthy { task with order := some (.num n), orderNum := some (.num n) }.purgedAt = false :=
      hpurged task hmem hsibling
    have hstamped := stampTask_of_not_purged edit hwritten
    refine ⟨?_, ?_, ?_⟩
    · exact congrArg (·.id) hstamped
    · exact (congrArg (isInProject projectId sectionId) hstamped).trans hsibling
    · exact congrArg taskOrder hstamped
  · intro task n hhas
    have horder : task.order = some (.num n) := by
      have := (Bool.and_eq_true_iff.1 hhas).1
      simpa using this
    simp [projectTaskList, taskOrder, finiteOrder, horder, Json.asNum?]
  · intro task htask q hq
    obtain ⟨hmem, hsibling⟩ := List.mem_filter.1 htask
    exact hmoderate task hmem hsibling q hq
  · exact sortKey_strictMono
  · intro task q hq
    exact congrArg sortKey hq
  · intro task _ hnone q
    have hkey : sortKey (taskOrder task) = ⊤ := congrArg sortKey hnone
    rw [hkey]
    exact WithTop.coe_lt_top q
  · exact currentIds_eq_displayedIds fun a _ b _ => rfl

/-! ### Tasks of a board column -/

theorem boardTaskList_reorderable {status : String} {tasks : List Task} {incoming : Task → Task → Ordering}
    [Std.TransCmp incoming] (hids : HaveIds (·.id) tasks)
    (hpurged : ∀ task ∈ tasks, isInColumn status task → truthy task.purgedAt = false)
    (hmoderate : ∀ task ∈ tasks, isInColumn status task → ∀ q ∈ finiteOrder task.boardOrder, IsModerate q)
    (hshown : (boardTaskList status edit).currentIds tasks =
      displayedIds (·.id) (isInColumn status) (compareBoardOrder incoming) tasks) :
    Reorderable (boardTaskList status edit) (compareBoardOrder incoming)
      (fun task => sortKey (finiteOrder task.boardOrder)) (fun q => sortKey (some q)) tasks := by
  have hcmp : compareBoardOrder incoming = fun a b =>
      (compare (sortKey (finiteOrder a.boardOrder)) (sortKey (finiteOrder b.boardOrder))).then (incoming a b) := by
    funext a b
    rw [compareBoardOrder, compareKeys_eq]
  apply reorderable_of_then hcmp hids.1 hids.2
  · intro task htask n
    obtain ⟨hmem, hsibling⟩ := List.mem_filter.1 htask
    have hwritten : truthy { task with boardOrder := some (.num n) }.purgedAt = false := hpurged task hmem hsibling
    have hstamped := stampTask_of_not_purged edit hwritten
    refine ⟨?_, ?_, ?_⟩
    · exact congrArg (·.id) hstamped
    · exact (congrArg (isInColumn status) hstamped).trans hsibling
    · exact congrArg (fun task => finiteOrder task.boardOrder) hstamped
  · intro task n hhas
    have horder : task.boardOrder = some (.num n) := by simpa [boardTaskList] using hhas
    simp [boardTaskList, finiteOrder, horder, Json.asNum?]
  · intro task htask q hq
    obtain ⟨hmem, hsibling⟩ := List.mem_filter.1 htask
    exact hmoderate task hmem hsibling q hq
  · exact sortKey_strictMono
  · intro task q hq
    exact congrArg sortKey hq
  · intro task _ hnone q
    have hkey : sortKey (finiteOrder task.boardOrder) = ⊤ := congrArg sortKey hnone
    rw [hkey]
    exact WithTop.coe_lt_top q
  · exact hshown

/-! ### Sections and projects -/

theorem sectionList_reorderable {projectId : String} {allSections : List Section} (hlocale : Std.TransCmp compareTitles)
    (hids : HaveIds (·.id) allSections)
    (horders : HaveOrders (isSectionOf projectId) (fun sec => finiteOrder sec.order) allSections) :
    Reorderable (sectionList projectId edit) compareProjectSections (fun sec => (finiteOrder sec.order).getD 0) id
      allSections := by
  have : Std.TransCmp fun a b : Section => compareTitles (titleOf a.title) (titleOf b.title) := {
    eq_swap := hlocale.eq_swap
    isLE_trans := hlocale.isLE_trans }
  have horders' : HaveOrders (sectionList projectId edit).isSibling (sectionList projectId edit).order allSections :=
    horders
  apply reorderable_of_then rfl hids.1 hids.2
  · intro sec hsec n
    exact ⟨rfl, (List.mem_filter.1 hsec).2, rfl⟩
  · intro sec n hhas
    have horder : sec.order = some (.num n) := by simpa [sectionList] using hhas
    simp [sectionList, finiteOrder, horder, Json.asNum?]
  · exact horders'.moderate
  · exact strictMono_id
  · intro sec q hq
    have hkey : finiteOrder sec.order = some q := hq
    simp [hkey]
  · intro sec hsec hnone
    exact absurd hnone (horders'.not_missing hsec)
  · apply currentIds_eq_displayedIds
    intro a ha b hb
    obtain ⟨x, hx⟩ := Option.ne_none_iff_exists'.1 (horders'.not_missing ha)
    obtain ⟨y, hy⟩ := Option.ne_none_iff_exists'.1 (horders'.not_missing hb)
    have hx' : finiteOrder a.order = some x := hx
    have hy' : finiteOrder b.order = some y := hy
    simp only [sectionList, hx', hy', compareKeys, Option.getD_some]

theorem projectList_reorderable {areaId : Option String} {allProjects : List Project}
    (hlocale : Std.TransCmp compareTitles) (hids : HaveIds (·.id) allProjects)
    (horders : HaveOrders (isInArea areaId) (fun project => finiteOrder project.order) allProjects)
    (hshown : (projectList areaId edit).currentIds allProjects =
      displayedIds (·.id) (isInArea areaId) compareProjectGroups allProjects) :
    Reorderable (projectList areaId edit) compareProjectGroups (fun project => (finiteOrder project.order).getD 0) id
      allProjects := by
  have : Std.TransCmp fun a b : Project => compareTitles (titleOf a.title) (titleOf b.title) := {
    eq_swap := hlocale.eq_swap
    isLE_trans := hlocale.isLE_trans }
  have horders' : HaveOrders (projectList areaId edit).isSibling (projectList areaId edit).order allProjects := horders
  apply reorderable_of_then rfl hids.1 hids.2
  · intro project hproject n
    exact ⟨rfl, (List.mem_filter.1 hproject).2, rfl⟩
  · intro project n hhas
    have horder : project.order = some (.num n) := by simpa [projectList] using hhas
    simp [projectList, finiteOrder, horder, Json.asNum?]
  · exact horders'.moderate
  · exact strictMono_id
  · intro project q hq
    have hkey : finiteOrder project.order = some q := hq
    simp [hkey]
  · intro project hproject hnone
    exact absurd hnone (horders'.not_missing hproject)
  · exact hshown

end

/-! ### Areas -/

theorem reverse_idxOf {l : List String} (hl : l.Nodup) {id : String} (hid : id ∈ l) :
    l.length - 1 - l.reverse.idxOf id = l.idxOf id := by
  have hlt : l.reverse.idxOf id < l.reverse.length := List.idxOf_lt_length_of_mem (List.mem_reverse.2 hid)
  have hget := List.getElem_idxOf hlt
  rw [List.getElem_reverse] at hget
  have hlt' : l.length - 1 - l.reverse.idxOf id < l.length := by
    rw [List.length_reverse] at hlt
    omega
  have hfirst := hl.idxOf_getElem _ hlt'
  rw [hget] at hfirst
  exact hfirst.symm

theorem uniqueValidIds_eq {orderedIds validIds : List String} (hnodup : orderedIds.Nodup)
    (hvalid : ∀ id ∈ orderedIds, id ∈ validIds) : uniqueValidIds orderedIds validIds = orderedIds := by
  rw [uniqueValidIds, List.filter_eq_self.2 (by simpa using hvalid)]
  exact eraseDups_of_nodup hnodup

/-- The active areas have finite orders. -/
def AreNumbered (allAreas : List Area) : Prop :=
  ∀ area ∈ allAreas, isActiveArea area = true → (finiteOrder area.order).isSome

def areaKey (area : Area) : Rat := (finiteOrder area.order).getD 0

theorem compareAreas_eq {a b : Area} (ha : (finiteOrder a.order).isSome) (hb : (finiteOrder b.order).isSome) :
    compareAreas a b = compare (areaKey a) (areaKey b) := by
  obtain ⟨x, hx⟩ := Option.isSome_iff_exists.1 ha
  obtain ⟨y, hy⟩ := Option.isSome_iff_exists.1 hb
  simp [compareAreas, areaKey, hx, hy]

/-- Numbered areas are sorted by their orders. -/
theorem insertionSort_compareAreas {areas : List Area} (h : ∀ area ∈ areas, (finiteOrder area.order).isSome) :
    areas.insertionSort (fun a b => compareAreas a b ≠ .gt) = areas.insertionSort fun a b => areaKey a ≤ areaKey b := by
  have hsorted := List.map_insertionSort (r := fun a b => compareAreas a b ≠ .gt)
    (s := fun a b => areaKey a ≤ areaKey b) id areas (fun a ha b hb => by
      rw [compareAreas_eq (h a ha) (h b hb), ne_eq, compare_gt_iff_gt, not_lt]
      rfl)
  rwa [List.map_id, List.map_id] at hsorted

/-- The areas that are shown, in the order they are shown in. -/
def shownAreas (allAreas : List Area) : List String := displayedIds (·.id) isActiveArea compareAreas allAreas

/-- A request of distinct active areas. -/
structure IsAreaRequest (allAreas : List Area) (orderedIds : List String) : Prop where
  nodup : orderedIds.Nodup
  active : ∀ id ∈ orderedIds, id ∈ (allAreas.filter isActiveArea).map (·.id)
  nonempty : orderedIds ≠ []

section
variable {allAreas : List Area} {orderedIds : List String} {edit : Edit}

theorem mem_shownAreas {id : String} : id ∈ shownAreas allAreas ↔ id ∈ (allAreas.filter isActiveArea).map (·.id) := by
  simp only [shownAreas, displayedIds, List.mem_map, List.mem_insertionSort]

theorem requestedIds_of_areas (hrequest : IsAreaRequest allAreas orderedIds) :
    requestedIds (shownAreas allAreas) orderedIds =
      orderedIds ++ (shownAreas allAreas).filter fun id => decide (id ∉ orderedIds) := by
  rw [requestedIds, uniqueValidIds_eq hrequest.nodup fun id hid => mem_shownAreas.2 (hrequest.active id hid),
    finalOrderedIds]

/-- The areas outside the request stay in the order they were shown in. -/
theorem remaining_eq (hids : HaveIds (·.id) allAreas) (hnumbered : AreNumbered allAreas) :
    (((allAreas.filter isActiveArea).filter fun area => decide (area.id ∉ orderedIds)).insertionSort
        fun a b => compareAreas a b ≠ .gt).map (·.id) =
      (shownAreas allAreas).filter fun id => decide (id ∉ orderedIds) := by
  have hactive : ∀ area ∈ allAreas.filter isActiveArea, (finiteOrder area.order).isSome := by
    intro area harea
    obtain ⟨hmem, hsibling⟩ := List.mem_filter.1 harea
    exact hnumbered area hmem hsibling
  have : Std.Total fun a b : Area => areaKey a ≤ areaKey b := ⟨fun a b => le_total _ _⟩
  have : IsTrans Area fun a b => areaKey a ≤ areaKey b := ⟨fun a b c => le_trans⟩
  rw [insertionSort_compareAreas fun area harea => hactive area (List.mem_filter.1 harea).1,
    insertionSort_filter ((hids.1.of_map _).filter _), shownAreas, displayedIds, insertionSort_compareAreas hactive,
    List.filter_map]
  rfl

theorem areaOrder_eq (hids : HaveIds (·.id) allAreas) (hnumbered : AreNumbered allAreas)
    (hrequest : IsAreaRequest allAreas orderedIds) {area : Area} (harea : area ∈ allAreas.filter isActiveArea) :
    areaOrder (allAreas.filter isActiveArea) orderedIds area.id =
      some ((requestedIds (shownAreas allAreas) orderedIds).idxOf area.id) := by
  have hreordered : orderedIds.filter (fun id => decide (id ∈ (allAreas.filter isActiveArea).map (·.id))) = orderedIds := by
    rw [List.filter_eq_self]
    intro id hid
    simpa using hrequest.active id hid
  unfold areaOrder
  dsimp only
  rw [hreordered, remaining_eq hids hnumbered, requestedIds_of_areas hrequest]
  by_cases hmem : area.id ∈ orderedIds
  · rw [if_pos hmem, reverse_idxOf hrequest.nodup hmem, List.idxOf_append_of_mem hmem]
  · have hshown : area.id ∈ (shownAreas allAreas).filter fun id => decide (id ∉ orderedIds) :=
      List.mem_filter.2 ⟨mem_shownAreas.2 (List.mem_map_of_mem harea), by simpa using hmem⟩
    rw [if_neg hmem, if_pos hshown, List.idxOf_append_of_notMem hmem]

/-- Under a request each active area gets its place as its order. -/
theorem reorderAreas_eq (hids : HaveIds (·.id) allAreas) (hnumbered : AreNumbered allAreas)
    (hrequest : IsAreaRequest allAreas orderedIds) :
    reorderAreas allAreas orderedIds edit = allAreas.map fun area =>
      if isActiveArea area then
        stampArea edit { area with
          order := some (.num ((requestedIds (shownAreas allAreas) orderedIds).idxOf area.id : Nat)) }
      else area := by
  rw [reorderAreas, if_neg hrequest.nonempty]
  apply List.map_congr_left
  intro area harea
  split
  · rename_i hactive
    rw [areaOrder_eq hids hnumbered hrequest (List.mem_filter.2 ⟨harea, hactive⟩)]
  · rfl

theorem reorderAreas_shown (hids : HaveIds (·.id) allAreas) (hnumbered : AreNumbered allAreas)
    (hrequest : IsAreaRequest allAreas orderedIds) :
    shownAreas (reorderAreas allAreas orderedIds edit) = requestedIds (shownAreas allAreas) orderedIds := by
  have : Std.Total fun a b : Area => areaKey a ≤ areaKey b := ⟨fun a b => le_total _ _⟩
  have : IsTrans Area fun a b => areaKey a ≤ areaKey b := ⟨fun a b c => le_trans⟩
  let next := requestedIds (shownAreas allAreas) orderedIds
  let active := allAreas.filter isActiveArea
  let write : Area → Area := fun area => stampArea edit { area with order := some (.num (next.idxOf area.id : Nat)) }
  have hactive : (reorderAreas allAreas orderedIds edit).filter isActiveArea = active.map write := by
    rw [reorderAreas_eq hids hnumbered hrequest, List.filter_map]
    have hkept : allAreas.filter (isActiveArea ∘ fun area => if isActiveArea area then write area else area) = active := by
      apply List.filter_congr
      intro area _
      by_cases hsibling : isActiveArea area = true
      · rw [Function.comp_apply, if_pos hsibling]
        exact rfl
      · rw [Function.comp_apply, if_neg hsibling]
    rw [hkept]
    apply List.map_congr_left
    intro area harea
    rw [if_pos (List.mem_filter.1 harea).2]
  have hshownNodup : (shownAreas allAreas).Nodup := by
    rw [shownAreas, displayedIds]
    exact ((List.perm_insertionSort _ _).map _).nodup_iff.2 (hids.1.sublist (List.filter_sublist.map _))
  have hnextPerm : next.Perm (shownAreas allAreas) := requestedIds_perm hshownNodup orderedIds
  have hactiveIds : (active.map (·.id)).Nodup := hids.1.sublist (List.filter_sublist.map _)
  obtain ⟨id₀, hid₀⟩ := List.exists_mem_of_ne_nil _ hrequest.nonempty
  obtain ⟨area₀, -, -⟩ := List.mem_map.1 (hrequest.active id₀ hid₀)
  obtain ⟨get, hget⟩ := exists_lookup hactiveIds area₀
  have hmem : ∀ id ∈ next, get id ∈ active ∧ (get id).id = id := by
    intro id hid
    obtain ⟨area, harea, rfl⟩ := List.mem_map.1 (mem_shownAreas.1 (hnextPerm.mem_iff.1 hid))
    rw [hget area harea]
    exact ⟨harea, rfl⟩
  have harrangement : (next.map get).Perm active := by
    have hshown : (active.map (·.id)).Perm (shownAreas allAreas) := ((List.perm_insertionSort _ _).map _).symm
    have hback : (active.map (·.id)).map get = active := by
      rw [List.map_map]
      exact (List.map_congr_left hget).trans (List.map_id' _)
    rw [← hback]
    exact (hnextPerm.trans hshown.symm).map get
  have hkeys : (next.map get).Pairwise fun a b => areaKey (write a) < areaKey (write b) := by
    rw [List.pairwise_map]
    refine (pairwise_idxOf (hnextPerm.nodup_iff.2 hshownNodup)).imp_of_mem fun {i j} hi hj hlt => ?_
    have hkey : ∀ id ∈ next, areaKey (write (get id)) = (next.idxOf id : Nat) := by
      intro id hid
      have horder : areaKey (write (get id)) = (next.idxOf (get id).id : Nat) := rfl
      rw [horder, (hmem id hid).2]
    rw [hkey i hi, hkey j hj]
    exact_mod_cast hlt
  have hwrittenNodup : (active.map write).Nodup := by
    apply List.Nodup.of_map (·.id)
    rwa [List.map_map]
  have hordersBy : OrdersBy (fun a b : Area => areaKey a ≤ areaKey b) areaKey :=
    fun a b hlt => ⟨le_of_lt hlt, not_le.2 hlt⟩
  have hsorted := insertionSort_renumbered hordersBy hwrittenNodup harrangement hkeys
  rw [shownAreas, displayedIds, hactive, insertionSort_compareAreas, hsorted, List.map_map, List.map_map]
  · exact (List.map_congr_left fun id hid => (hmem id hid).2).trans (List.map_id' _)
  · intro area harea
    obtain ⟨a, -, rfl⟩ := List.mem_map.1 harea
    rfl

end

/-! ### The five actions -/

/-- An area is as it was, or has its place in the list as its order. -/
def NumbersPlaces (allAreas allAreas' : List Area) : Prop :=
  ∀ area ∈ allAreas', isActiveArea area = false ∧ area ∈ allAreas ∨
    finiteOrder area.order = some ((shownAreas allAreas').idxOf area.id : Rat)

theorem reorderAreas_numbers {allAreas : List Area} {orderedIds : List String} {edit : Edit}
    (hids : HaveIds (·.id) allAreas) (hnumbered : AreNumbered allAreas) (hrequest : IsAreaRequest allAreas orderedIds) :
    NumbersPlaces allAreas (reorderAreas allAreas orderedIds edit) := by
  intro area harea
  rw [reorderAreas_shown hids hnumbered hrequest]
  rw [reorderAreas_eq hids hnumbered hrequest] at harea
  obtain ⟨before, hbefore, rfl⟩ := List.mem_map.1 harea
  by_cases hactive : isActiveArea before = true
  · right
    rw [if_pos hactive]
    rfl
  · left
    rw [if_neg hactive]
    exact ⟨by simpa using hactive, hbefore⟩

/-- Each list is shown as it was asked for. The tasks of a project are sorted by the action as they are shown, and so
are sections, whose orders are finite; of a board column and of the projects of an area this is required. -/
theorem reorder_realises [Runtime] [Doubles] (hlocale : Std.TransCmp compareTitles) (edit : Edit)
    (orderedIds : List String) :
    (∀ (tasks : List Task) (projectId : String) (sectionId : Option (Option String)), projectId ≠ "" →
      HaveIds (·.id) tasks →
      (∀ task ∈ tasks, isInProject projectId sectionId task →
        truthy task.purgedAt = false ∧ ∀ q ∈ taskOrder task, IsModerate q) →
      Realises (projectTaskList projectId sectionId edit) compareTasksByProjectOrder tasks
        (reorderProjectTasks tasks projectId orderedIds sectionId edit) orderedIds) ∧
    (∀ (allProjects : List Project) (allSections : List Section) (projectId : String), projectId ≠ "" →
      (∃ project ∈ allProjects, project.id = projectId ∧ truthy project.deletedAt = false) →
      HaveIds (·.id) allSections →
      HaveOrders (isSectionOf projectId) (fun sec => finiteOrder sec.order) allSections →
      Realises (sectionList projectId edit) compareProjectSections allSections
        (reorderSections allProjects allSections projectId orderedIds edit) orderedIds) ∧
    (∀ (tasks : List Task) (status : String) (incoming : Task → Task → Ordering), status ≠ "" →
      Std.TransCmp incoming → HaveIds (·.id) tasks →
      (∀ task ∈ tasks, isInColumn status task →
        truthy task.purgedAt = false ∧ ∀ q ∈ finiteOrder task.boardOrder, IsModerate q) →
      (boardTaskList status edit).currentIds tasks =
        displayedIds (·.id) (isInColumn status) (compareBoardOrder incoming) tasks →
      Realises (boardTaskList status edit) (compareBoardOrder incoming) tasks
        (reorderBoardTasks tasks status orderedIds edit) orderedIds) ∧
    (∀ (allProjects : List Project) (areaId : Option String), HaveIds (·.id) allProjects →
      HaveOrders (isInArea areaId) (fun project => finiteOrder project.order) allProjects →
      (projectList areaId edit).currentIds allProjects =
        displayedIds (·.id) (isInArea areaId) compareProjectGroups allProjects →
      Realises (projectList areaId edit) compareProjectGroups allProjects
        (reorderProjects allProjects orderedIds areaId edit) orderedIds) ∧
    ∀ allAreas : List Area, HaveIds (·.id) allAreas → AreNumbered allAreas → IsAreaRequest allAreas orderedIds →
      shownAreas (reorderAreas allAreas orderedIds edit) = requestedIds (shownAreas allAreas) orderedIds ∧
        NumbersPlaces allAreas (reorderAreas allAreas orderedIds edit) := by
  refine ⟨?_, ?_, ?_, ?_, ?_⟩
  · intro tasks projectId sectionId hproject hids htasks
    by_cases hrequest : orderedIds = []
    · rw [reorderProjectTasks, if_pos (.inr hrequest), hrequest]
      exact realises_unchanged
    rw [reorderProjectTasks, if_neg (not_or.mpr ⟨hproject, hrequest⟩)]
    have hlist : Reorderable (projectTaskList projectId sectionId edit) compareTasksByProjectOrder _ _ tasks :=
      projectTaskList_reorderable hids (fun task hmem hin => (htasks task hmem hin).1)
        (fun task hmem hin => (htasks task hmem hin).2)
    exact hlist.realises orderedIds
  · intro allProjects allSections projectId hproject hlive hids horders
    by_cases hrequest : orderedIds = []
    · rw [reorderSections, if_pos (.inr (.inl hrequest)), hrequest]
      exact realises_unchanged
    have hany : allProjects.any (fun project => project.id == projectId && !truthy project.deletedAt) = true := by
      obtain ⟨project, hmem, hid, hdeleted⟩ := hlive
      exact List.any_eq_true.mpr ⟨project, hmem, by simp [hid, hdeleted]⟩
    rw [reorderSections, if_neg (by simp [hproject, hrequest, hany])]
    exact (sectionList_reorderable hlocale hids horders).realises orderedIds
  · intro tasks status incoming hstatus hincoming hids htasks hshown
    by_cases hrequest : orderedIds = []
    · rw [reorderBoardTasks, if_pos (.inr hrequest), hrequest]
      exact realises_unchanged
    rw [reorderBoardTasks, if_neg (not_or.mpr ⟨hstatus, hrequest⟩)]
    have hlist := boardTaskList_reorderable hids (fun task hmem hin => (htasks task hmem hin).1)
      (fun task hmem hin => (htasks task hmem hin).2) hshown
    exact hlist.realises orderedIds
  · intro allProjects areaId hids horders hshown
    by_cases hrequest : orderedIds = []
    · rw [reorderProjects, if_pos hrequest, hrequest]
      exact realises_unchanged
    rw [reorderProjects, if_neg hrequest]
    exact (projectList_reorderable hlocale hids horders hshown).realises orderedIds
  · intro allAreas hids hnumbered hrequest
    exact ⟨reorderAreas_shown hids hnumbered hrequest, reorderAreas_numbers hids hnumbered hrequest⟩

/-- The doubles nearest to sums and quotients of integers. -/
@[reducible] def wideDoubles : Doubles where
  round q :=
    if -2 ^ 53 ≤ q ∧ q ≤ 2 ^ 53 then some q
    else
      let ulp : Rat := 2 ^ (Nat.log2 q.floor.natAbs - 52)
      let below := (q / ulp).floor
      let up := 1 / 2 < q / ulp - below ∨ q / ulp - below = 1 / 2 ∧ below % 2 = 1
      let rounded : Rat := (if up then below + 1 else below : Int) * ulp
      if rounded < 2 ^ 1024 ∧ -2 ^ 1024 < rounded then some rounded else none
  round_int n hlow hhigh := by
    rw [if_pos]
    exact ⟨by exact_mod_cast hlow, by exact_mod_cast hhigh⟩

/-- The collator of the examples is the order of code units. -/
theorem transCmp_isoRuntime : Std.TransCmp (@compareTitles isoRuntime) := by
  have heq : @compareTitles isoRuntime = compareIds := by
    funext a b
    have hcompare : @Runtime.localeCompare isoRuntime a b = if a = b then 0 else if jsLt a b then -1 else 1 := rfl
    rw [@compareTitles.eq_def isoRuntime, compareIds, hcompare]
    by_cases hab : a = b
    · subst hab
      simp [jsLt_irrefl]
    · rw [if_neg hab, jsLt_of_ne hab]
      cases jsLt a b <;> rfl
  rw [heq]
  infer_instance

attribute [local instance] isoRuntime wideDoubles

def drag : Edit := { now := "2026-03-02T09:00:00.000Z", deviceId := "phone" }

def orderedArea (id : String) (n : Rat) : Area := { id := id, order := some (.num n) }
def orderedTask (id : String) (n : Rat) : Task :=
  { id := id, projectId := some (.str "home"), order := some (.num n), orderNum := some (.num n) }
def orderedProject (id title : String) : Project := { id := id, title := some (.str title), order := some (.num 0) }
def columnTask (id createdAt : String) : Task :=
  { id := id, status := some (.str "next"), createdAt := some (.str createdAt) }

def homeTasks : List Task := [orderedTask "a" 0, orderedTask "b" 1000, orderedTask "c" 2000, orderedTask "d" 3000]

def projectOrder (tasks : List Task) : List String :=
  displayedIds (·.id) (isInProject "home" none) compareTasksByProjectOrder tasks

/-- Between two neighbours one task is written. -/
theorem reorder_realises_between :
    Realises (projectTaskList "home" none drag) compareTasksByProjectOrder homeTasks
        (reorderProjectTasks homeTasks "home" ["a", "d", "b", "c"] none drag) ["a", "d", "b", "c"] ∧
      projectOrder (reorderProjectTasks homeTasks "home" ["a", "d", "b", "c"] none drag) = ["a", "d", "b", "c"] ∧
      (reorderProjectTasks homeTasks "home" ["a", "d", "b", "c"] none drag).map (·.order) =
        [some (.num 0), some (.num 1000), some (.num 2000), some (.num 500)] := by
  have hids : HaveIds (·.id) homeTasks := by
    constructor <;> decide +kernel
  have hshape : ∀ task ∈ homeTasks, isInProject "home" none task →
      truthy task.purgedAt = false ∧ ∀ q ∈ taskOrder task, IsModerate q := by
    unfold IsModerate
    decide +kernel
  exact ⟨(reorder_realises transCmp_isoRuntime drag ["a", "d", "b", "c"]).1 homeTasks "home" none (by decide) hids hshape,
    by decide +kernel, by decide +kernel⟩

def fourAreas : List Area := [orderedArea "a" 0, orderedArea "b" 1000, orderedArea "c" 2000, orderedArea "d" 3000]
def threeAreas : List Area := [orderedArea "a" 0, orderedArea "b" 1, orderedArea "c" 2]
def home : Project := { id := "home" }
def homeSections : List Section :=
  [{ id := "a", projectId := some (.str "home") },
    { id := "b", projectId := some (.str "home"), order := some (.num 5) }]
def rooms : List Project := [orderedProject "b" "Beds", orderedProject "a" "Attic"]
def column : List Task := [columnTask "a" "2026-02-02T00:00:00.000Z", columnTask "b" "2026-02-01T00:00:00.000Z"]
def crowdedTasks : List Task := [orderedTask "a" 0, orderedTask "b" 1, orderedTask "c" 2, orderedTask "d" 3000]
def distantTasks : List Task := [orderedTask "a" 0, orderedTask "b" 1, orderedTask "c" (2 ^ 63)]
def purgedTasks : List Task :=
  [orderedTask "a" 0, { orderedTask "b" 1 with purgedAt := some (.str "2026-02-02T00:00:00.000Z") }]

def sectionOrder (allSections : List Section) : List String :=
  displayedIds (·.id) (isSectionOf "home") compareProjectSections allSections

def roomOrder (allProjects : List Project) : List String :=
  displayedIds (·.id) (isInArea none) compareProjectGroups allProjects

def columnOrder (tasks : List Task) : List String :=
  displayedIds (·.id) (isInColumn "next") (compareBoardOrder fun a b => compareIds a.id b.id) tasks

theorem reordered_astray :
    -- one area moved between two others that are far apart: all are numbered anew
    ¬OnlyWrites (·.id) "d" fourAreas (reorderAreas fourAreas ["a", "d", "b", "c"] drag) ∧
    -- ids of no area count as places
    shownAreas (reorderAreas threeAreas ["gone", "away", "c"] drag) ≠
      requestedIds (shownAreas threeAreas) ["gone", "away", "c"] ∧
    -- a missing order is shown as 0 and sorted by the action as infinite
    sectionOrder (reorderSections [home] homeSections "home" ["b", "a"] drag) ≠
      requestedIds (sectionOrder homeSections) ["b", "a"] ∧
    -- ties are shown by title or as the tasks come in, and sorted by the action otherwise
    roomOrder (reorderProjects rooms ["b"] none drag) ≠ requestedIds (roomOrder rooms) ["b"] ∧
    columnOrder (reorderBoardTasks column "next" ["b"] drag) ≠ requestedIds (columnOrder column) ["b"] ∧
    -- `b` moved between `c` and `d`, but `c` is taken for the moved one, where there is no room
    ¬OnlyWrites (·.id) "b" crowdedTasks
      (reorderProjectTasks crowdedTasks "home" ["a", "c", "b", "d"] none drag) ∧
    -- the next order is not a double
    projectOrder (reorderProjectTasks distantTasks "home" ["b", "c", "a"] none drag) ≠
      requestedIds (projectOrder distantTasks) ["b", "c", "a"] ∧
    -- a purged task is cut down when it is written
    projectOrder (reorderProjectTasks purgedTasks "home" ["b", "a"] none drag) ≠
      requestedIds (projectOrder purgedTasks) ["b", "a"] := by
  unfold OnlyWrites
  decide +kernel

end Mindwtr.Store
