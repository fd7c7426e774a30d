import Mindwtr.Entity.TaskLoad
import Mindwtr.Sync.Compaction

/-!
# Reordering

`ordering-actions.ts` and `reorderAreas` of `area-actions.ts`. Four of the lists keep sparse orders: an action
sorts the siblings its own way, puts the requested ids in front of the others, and where that moves a single
element writes that one an order between its neighbours, else new orders for all. Areas are numbered anew by
each action. The lists are shown in an order of their own: `displayed…`.
-/

namespace Mindwtr.Js

/-- Sums and quotients of doubles: the double nearest to the result, `none` where that is infinite. -/
class Doubles where
  round : Rat → Option Rat
  round_int : ∀ n : Int, -2 ^ 53 ≤ n → n ≤ 2 ^ 53 → round n = some (n : Rat)

end Mindwtr.Js

namespace Mindwtr.Store

open Mindwtr.Js Mindwtr.Sync

def orderStep : Int := 1024

/-! ### Lists of ids -/

/-- The valid ids of a request, each at its first occurrence. -/
def uniqueValidIds (orderedIds validIds : List String) : List String :=
  (orderedIds.filter fun id => decide (id ∈ validIds)).eraseDups

def finalOrderedIds (currentIds orderedIds : List String) : List String :=
  orderedIds ++ currentIds.filter fun id => decide (id ∉ orderedIds)

/-- The ids whose place differs, each pair in the order in which the code meets it. -/
def changedIds (currentIds nextIds : List String) : List String :=
  (currentIds.zip nextIds).flatMap fun (current, next) =>
    if current = next then [] else if current = "" then [next] else [next, current]

/-- `currentIds` with `id` taken out and put in where it stands in `nextIds`. -/
def movedIds (currentIds nextIds : List String) (id : String) : List String :=
  (currentIds.eraseIdx (currentIds.idxOf id)).insertIdx (nextIds.idxOf id) id

def findSingleMovedId (currentIds nextIds : List String) : Option String :=
  if currentIds.length ≠ nextIds.length ∨ currentIds = nextIds ∨ ¬currentIds.Nodup ∨ ¬nextIds.Nodup then none
  else
    (changedIds currentIds nextIds).find? fun id =>
      decide (id ∈ currentIds ∧ id ∈ nextIds ∧ movedIds currentIds nextIds id = nextIds)

/-! ### The plan -/

section
variable [Doubles]

/-- The id beside another one, where there is one that is not empty. -/
def neighbourId (ids : List String) (index : Option Nat) : Option String :=
  (index.bind fun i => ids[i]?).filter (· != "")

def predIndex : Nat → Option Nat
  | 0 => none
  | n + 1 => some n

/-- `Math.floor((previousOrder + nextOrder) / 2)`, where it lies between the two. -/
def midpoint (previousOrder nextOrder : Rat) : Option Rat :=
  let mid := ((Doubles.round (previousOrder + nextOrder)).bind fun sum => Doubles.round (sum / 2)).map Rat.floor
  mid.bind fun mid => if (mid : Rat) ≤ previousOrder ∨ nextOrder ≤ mid then none else some (mid : Rat)

/-- `none` where no order can be found that is finite. -/
def sparseOrderForMove (nextIds : List String) (movedId : String) (orderById : String → Option Rat) : Option Rat :=
  let index := nextIds.idxOf movedId
  let previousId := neighbourId nextIds (predIndex index)
  let nextId := neighbourId nextIds (some (index + 1))
  match previousId, nextId with
  | none, none => some ((orderById movedId).getD 0)
  | none, some nextId =>
    match orderById nextId with
    | none => some 0
    | some nextOrder => Doubles.round ((nextOrder.floor - orderStep : Int) : Rat)
  | some previousId, nextId =>
    match orderById previousId, nextId.bind orderById with
    | none, _ => none
    | some previousOrder, none => Doubles.round ((previousOrder.floor + orderStep : Int) : Rat)
    | some previousOrder, some nextOrder => midpoint previousOrder nextOrder

inductive SparseOrderPlan where
  | single (id : String) (order : Rat)
  | rebalance (nextIds : List String)
deriving DecidableEq, Repr

def createSparseOrderPlan (currentIds nextIds : List String) (orderById : String → Option Rat) :
    Option SparseOrderPlan :=
  if currentIds = nextIds then none
  else
    let single := ((findSingleMovedId currentIds nextIds).filter (· != "")).bind fun id =>
      (sparseOrderForMove nextIds id orderById).map (.single id)
    some (single.getD (.rebalance nextIds))

def orderFromPlan : SparseOrderPlan → String → Option Rat
  | .single movedId order, id => if movedId = id then some order else none
  | .rebalance nextIds, id => if id ∈ nextIds then some ((nextIds.idxOf id * 1024 : Nat) : Rat) else none

/-! ### The actions -/

/-- What an action knows of its list. -/
structure SiblingList (α : Type) where
  id : α → String
  isSibling : α → Bool
  /-- The comparator of the action does not put the second one first. -/
  sortsBefore : α → α → Bool
  order : α → Option Rat
  /-- The element has this order already. -/
  hasOrder : α → Rat → Bool
  /-- The element with another order, stamped as a local edit. -/
  write : α → Rat → α

namespace SiblingList

variable {α : Type}

def siblings (o : SiblingList α) (all : List α) : List α := all.filter o.isSibling

def currentIds (o : SiblingList α) (all : List α) : List String :=
  ((o.siblings all).insertionSort fun a b => o.sortsBefore a b = true).map o.id

def orderById (o : SiblingList α) (all : List α) (id : String) : Option Rat :=
  ((o.siblings all).find? fun a => o.id a == id).bind o.order

/-- The siblings in the order in which the request puts them. -/
def nextIds (o : SiblingList α) (all : List α) (orderedIds : List String) : List String :=
  finalOrderedIds (o.currentIds all) (uniqueValidIds orderedIds (o.currentIds all))

def plan (o : SiblingList α) (all : List α) (orderedIds : List String) : Option SparseOrderPlan :=
  if uniqueValidIds orderedIds (o.currentIds all) = [] then none
  else createSparseOrderPlan (o.currentIds all) (o.nextIds all orderedIds) (o.orderById all)

/-- One element under a plan. -/
def applyPlan (o : SiblingList α) (plan : SparseOrderPlan) (a : α) : α :=
  match orderFromPlan plan (o.id a) with
  | some nextOrder => if o.isSibling a && !o.hasOrder a nextOrder then o.write a nextOrder else a
  | none => a

def reorder (o : SiblingList α) (all : List α) (orderedIds : List String) : List α :=
  match o.plan all orderedIds with
  | some plan => all.map (o.applyPlan plan)
  | none => all

end SiblingList

end

/-- Who edits, and when. -/
structure Edit where
  now : String
  deviceId : String

/-- An order that is a finite number. -/
def finiteOrder (value : Option Json) : Option Rat := asNum? value

/-! ### Tasks of a project -/

def taskOrder (task : Task) : Option Rat := (finiteOrder task.order).or (finiteOrder task.orderNum)

/-- Two sort keys, where a missing one is infinite. -/
def compareKeys (a b : Option Rat) : Ordering :=
  match a, b with
  | some a, some b => compare a b
  | some _, none => .lt
  | none, some _ => .gt
  | none, none => .eq

section
variable [Runtime]

def compareTasksByProjectOrder (a b : Task) : Ordering :=
  (compareKeys (taskOrder a) (taskOrder b)).then <|
    (compareKeys ((safeParseDate a.createdAt).map (Int.cast ·)) ((safeParseDate b.createdAt).map (Int.cast ·))).then <|
      if jsLt a.id b.id then .lt else if jsLt b.id a.id then .gt else .eq

/-- Whether a task is in the project, and in the section where one is asked for; `some none` asks for the tasks
outside the sections. -/
def isInProject (projectId : String) (sectionId : Option (Option String)) (task : Task) : Bool :=
  task.projectId == some (.str projectId) && !truthy task.deletedAt &&
    match sectionId with
    | none => true
    | some sectionId =>
      if (sectionId.getD "") = "" then !truthy task.sectionId else task.sectionId == sectionId.map .str

def stampTask (edit : Edit) (task : Task) : Task :=
  compactPurgedTaskForLocalStorage { task with
    updatedAt := some (.str edit.now)
    rev := some (.num (nextRevision task.rev))
    revBy := some (.str edit.deviceId) }

def projectTaskList (projectId : String) (sectionId : Option (Option String)) (edit : Edit) : SiblingList Task where
  id := (·.id)
  isSibling := isInProject projectId sectionId
  sortsBefore a b := compareTasksByProjectOrder a b != .gt
  order := taskOrder
  hasOrder task n := task.order == some (.num n) && task.orderNum == some (.num n)
  write task n := stampTask edit { task with order := some (.num n), orderNum := some (.num n) }

def reorderProjectTasks [Doubles] (allTasks : List Task) (projectId : String) (orderedIds : List String)
    (sectionId : Option (Option String)) (edit : Edit) : List Task :=
  if projectId = "" ∨ orderedIds = [] then allTasks
  else (projectTaskList projectId sectionId edit).reorder allTasks orderedIds

/-! ### Sections of a project -/

def isSectionOf (projectId : String) (sec : Section) : Bool :=
  sec.projectId == some (.str projectId) && !truthy sec.deletedAt

def titleOf (title : Option Json) : String := (asStr? title).getD ""

def compareTitles (a b : String) : Ordering := compare (Runtime.localeCompare a b) 0

def stampSection (edit : Edit) (sec : Section) : Section :=
  { sec with
    updatedAt := some (.str edit.now)
    rev := some (.num (nextRevision sec.rev))
    revBy := some (.str edit.deviceId) }

def sectionList (projectId : String) (edit : Edit) : SiblingList Section where
  id := (·.id)
  isSibling := isSectionOf projectId
  sortsBefore a b :=
    (compareKeys (finiteOrder a.order) (finiteOrder b.order)).then
      (compareTitles (titleOf a.title) (titleOf b.title)) != .gt
  order sec := finiteOrder sec.order
  hasOrder sec n := sec.order == some (.num n)
  write sec n := stampSection edit { sec with order := some (.num n) }

def reorderSections [Doubles] (allProjects : List Project) (allSections : List Section) (projectId : String)
    (orderedIds : List String) (edit : Edit) : List Section :=
  if projectId = "" ∨ orderedIds = [] ∨
      !allProjects.any (fun project => project.id == projectId && !truthy project.deletedAt) then allSections
  else (sectionList projectId edit).reorder allSections orderedIds

/-- `compareProjectSections` of `project-utils.ts`. -/
def compareProjectSections (a b : Section) : Ordering :=
  (compare ((finiteOrder a.order).getD 0) ((finiteOrder b.order).getD 0)).then
    (compareTitles (titleOf a.title) (titleOf b.title))

/-! ### Tasks of a board column -/

def isInColumn (status : String) (task : Task) : Bool :=
  task.status == some (.str status) && !truthy task.deletedAt

/-- `new Date(a.createdAt).getTime() - new Date(b.createdAt).getTime()`, which is 0 to a sort where it is `NaN`. -/
def compareCreation (a b : Task) : Ordering :=
  match dateTime a.createdAt, dateTime b.createdAt with
  | some a, some b => compare a b
  | _, _ => .eq

def boardTaskList (status : String) (edit : Edit) : SiblingList Task where
  id := (·.id)
  isSibling := isInColumn status
  sortsBefore a b :=
    (compareKeys (finiteOrder a.boardOrder) (finiteOrder b.boardOrder)).then (compareCreation a b) != .gt
  order task := finiteOrder task.boardOrder
  hasOrder task n := task.boardOrder == some (.num n)
  write task n := stampTask edit { task with boardOrder := some (.num n) }

def reorderBoardTasks [Doubles] (allTasks : List Task) (status : String) (orderedIds : List String) (edit : Edit) :
    List Task :=
  if status = "" ∨ orderedIds = [] then allTasks else (boardTaskList status edit).reorder allTasks orderedIds

/-- `sortTasksByBoardOrder` of tasks that come in sorted by `incoming`. -/
def compareBoardOrder (incoming : Task → Task → Ordering) (a b : Task) : Ordering :=
  (compareKeys (finiteOrder a.boardOrder) (finiteOrder b.boardOrder)).then (incoming a b)

/-! ### Projects of an area -/

/-- `(project.areaId ?? undefined) === targetAreaId && !project.deletedAt`. -/
def isInArea (areaId : Option String) (project : Project) : Bool :=
  coalesce project.areaId none == areaId.map .str && !truthy project.deletedAt

def stampProject (edit : Edit) (project : Project) : Project :=
  { project with
    updatedAt := some (.str edit.now)
    rev := some (.num (nextRevision project.rev))
    revBy := some (.str edit.deviceId) }

def projectList (areaId : Option String) (edit : Edit) : SiblingList Project where
  id := (·.id)
  isSibling := isInArea areaId
  sortsBefore a b := compare ((finiteOrder a.order).getD 0) ((finiteOrder b.order).getD 0) != .gt
  order project := finiteOrder project.order
  hasOrder project n := project.order == some (.num n)
  write project n := stampProject edit { project with order := some (.num n) }

def reorderProjects [Doubles] (allProjects : List Project) (orderedIds : List String) (areaId : Option String)
    (edit : Edit) : List Project :=
  if orderedIds = [] then allProjects else (projectList areaId edit).reorder allProjects orderedIds

/-- The comparator of `buildProjectGroups`. -/
def compareProjectGroups (a b : Project) : Ordering :=
  (compare ((finiteOrder a.order).getD 0) ((finiteOrder b.order).getD 0)).then
    (compareTitles (titleOf a.title) (titleOf b.title))

end

/-! ### Areas -/

def isActiveArea (area : Area) : Bool := !truthy area.deletedAt

/-- `a.order - b.order`, which is 0 to a sort where it is `NaN`. -/
def compareAreas (a b : Area) : Ordering :=
  match finiteOrder a.order, finiteOrder b.order with
  | some a, some b => compare a b
  | _, _ => .eq

/-- The number of an active area: its last place in the request, or after the requested ones. -/
def areaOrder (activeAreas : List Area) (orderedIds : List String) (id : String) : Option Nat :=
  let activeIds := activeAreas.map (·.id)
  let reordered := orderedIds.filter fun id => decide (id ∈ activeIds)
  let remaining := (activeAreas.filter fun area => decide (area.id ∉ orderedIds)).insertionSort
    fun a b => compareAreas a b ≠ .gt
  if id ∈ reordered then some (orderedIds.length - 1 - orderedIds.reverse.idxOf id)
  else if id ∈ remaining.map (·.id) then some (reordered.length + (remaining.map (·.id)).idxOf id)
  else none

def stampArea (edit : Edit) (area : Area) : Area :=
  { area with
    updatedAt := some (.str edit.now)
    rev := some (.num (nextRevision area.rev))
    revBy := some (.str edit.deviceId) }

def reorderAreas (allAreas : List Area) (orderedIds : List String) (edit : Edit) : List Area :=
  if orderedIds = [] then allAreas
  else
    let activeAreas := allAreas.filter isActiveArea
    allAreas.map fun area =>
      if isActiveArea area then
        match areaOrder activeAreas orderedIds area.id with
        | some n => stampArea edit { area with order := some (.num n) }
        | none => stampArea edit area
      else area

/-! ### What is shown -/

/-- The ids of a list as its comparator sorts them. -/
def displayedIds {α : Type} (id : α → String) (isSibling : α → Bool) (compare : α → α → Ordering) (all : List α) :
    List String :=
  ((all.filter isSibling).insertionSort fun a b => compare a b ≠ .gt).map id

end Mindwtr.Store
