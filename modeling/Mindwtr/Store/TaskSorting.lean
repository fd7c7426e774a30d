import Mindwtr.Entity.LocalCalendar
import Mindwtr.Lib.ComparatorChain
import Mindwtr.Store.Ordering

/-!
# Sorting tasks

`sortTasksBySavedPreference`, `sortFocusNextActions` and the comparators of deadline boosts in `task-utils.ts`.
Dates are compared by their difference, and a date that a task does not have is `Infinity`; some comparisons look
first whether the two are the same, others do not, and give `NaN` for two missing dates. A sort takes `NaN` for 0.
-/

namespace Mindwtr.Store

open Mindwtr.Js Mindwtr.Lib

/-! ### Numbers -/

/-- The numbers that are compared. -/
inductive Number where
  | finite (n : Rat)
  | infinity
  | nan
deriving DecidableEq, Repr

/-- The sign of `a - b`. -/
def Number.minus : Number → Number → Option Ordering
  | .finite a, .finite b => some (compare a b)
  | .finite _, .infinity => some .lt
  | .infinity, .finite _ => some .gt
  | _, _ => none

/-- The same after `a !== b` was asked. -/
def Number.guardedMinus (a b : Number) : Option Ordering :=
  if a = b ∧ a ≠ .nan then some .eq else a.minus b

def orInfinity (n : Option Rat) : Number := (n.map Number.finite).getD .infinity

/-! ### Keys -/

def taskPrioritySortRank (priority : Option Json) : Nat :=
  match asStr? priority with
  | some "low" => 1
  | some "medium" => 2
  | some "high" => 3
  | some "urgent" => 4
  | _ => 0

def taskEnergySortRank (energyLevel : Option Json) : Nat :=
  match asStr? energyLevel with
  | some "low" => 1
  | some "medium" => 2
  | some "high" => 3
  | _ => 0

section
variable [Runtime]

def safeTime (value : Option Json) (fallback : Number) : Number :=
  match asStr? value with
  | none => fallback
  | some s => if s = "" then fallback else ((dateParse s).map fun ms => Number.finite ms).getD fallback

def customTimeEstimateToMinutes (estimate : String) : Option Int :=
  if estimate.startsWith "custom:" then
    (Runtime.toNumber (estimate.drop 7).copy).bind fun minutes =>
      if isInfinite minutes ∨ minutes < 1 then none else some (max 1 (mathRound minutes))
  else none

def timeEstimateToMinutes (estimate : String) : Int :=
  match customTimeEstimateToMinutes estimate with
  | some minutes => minutes
  | none =>
    match estimate with
    | "5min" => 5
    | "10min" => 10
    | "15min" => 15
    | "30min" => 30
    | "1hr" => 60
    | "2hr" => 120
    | "3hr" => 180
    | "4hr" | "4hr+" => 240
    | _ => 30

def timeEstimateSortRank (estimate : Option Json) : Number :=
  match asStr? estimate with
  | none | some "" => .infinity
  | some "4hr+" => .finite 241
  | some estimate => .finite (timeEstimateToMinutes estimate)

end

section
variable [LocalCalendar]

/-- Without a time, a due date is the end of its day. -/
def safeParseDueDate (dateStr : String) : Option Date :=
  (safeParseDate (some (.str dateStr))).map fun parsed =>
    if hasTimeComponent dateStr then some parsed else endOfDay parsed

def safeDueTime (value : Option Json) (fallback : Number) : Number :=
  match asStr? value with
  | none => fallback
  | some s =>
    if s = "" then fallback
    else
      match safeParseDueDate s with
      | none => fallback
      | some date => (date.map fun ms => Number.finite ms).getD .nan

/-! ### Saved preferences -/

inductive SortField where
  | default | due | start | review | title | timeEstimate | created | createdDesc | completed | priority | energy
  | project | updated
deriving DecidableEq, Repr

structure SortTasksBySavedPreferenceOptions where
  projects : List Project := []
  prioritizeByPriority : Bool := false
  /-- `sortOrder === 'desc'`. -/
  descending : Bool := false

def sortedProjects (projects : List Project) : List Project :=
  sortByComparator false
    (fun a b => firstDifference [(orInfinity (finiteOrder a.order)).guardedMinus (orInfinity (finiteOrder b.order)),
      some (compareTitles (titleOf a.title) (titleOf b.title))])
    (projects.filter fun project => !truthy project.deletedAt)

def projectOrderMap (projects : List Project) : JsMap Nat :=
  JsMap.ofList ((sortedProjects projects).zipIdx.map fun e => (e.1.id, e.2))

def projectTitleMap (projects : List Project) : JsMap String :=
  JsMap.ofList ((sortedProjects projects).map fun project => (project.id, titleOf project.title))

/-- `task.projectId ? (values.get(task.projectId) ?? …) : …`. -/
def ofProject {α : Type} (values : JsMap α) (task : Task) : Option α :=
  ((asStr? task.projectId).filter (· != "")).bind values.get?

def projectPlace (projects : List Project) (task : Task) : Number :=
  orInfinity ((ofProject (projectOrderMap projects) task).map fun index => (index : Rat))

def titleOfProject (projects : List Project) (task : Task) : String :=
  (ofProject (projectTitleMap projects) task).getD ""

section
variable (options : SortTasksBySavedPreferenceOptions) (a b : Task)

def byCreatedAsc : Option Ordering := (safeTime a.createdAt (.finite 0)).minus (safeTime b.createdAt (.finite 0))
def byCreatedDesc : Option Ordering := (safeTime b.createdAt (.finite 0)).minus (safeTime a.createdAt (.finite 0))
def byTitle : Option Ordering := some (compareTitles (titleOf a.title) (titleOf b.title))
def byId : Option Ordering := some (compareTitles a.id b.id)
def byDue : Option Ordering := (safeDueTime a.dueDate .infinity).minus (safeDueTime b.dueDate .infinity)
def byStart : Option Ordering := (safeTime a.startTime .infinity).minus (safeTime b.startTime .infinity)
def byReview : Option Ordering := (safeTime a.reviewAt .infinity).minus (safeTime b.reviewAt .infinity)
def byUpdated : Option Ordering := (safeTime b.updatedAt (.finite 0)).minus (safeTime a.updatedAt (.finite 0))
def byPriority : Option Ordering := some (compare (taskPrioritySortRank b.priority) (taskPrioritySortRank a.priority))
def byEnergy : Option Ordering := some (compare (taskEnergySortRank b.energyLevel) (taskEnergySortRank a.energyLevel))
def byTimeEstimate : Option Ordering :=
  (timeEstimateSortRank a.timeEstimate).minus (timeEstimateSortRank b.timeEstimate)
def byProject : Option Ordering :=
  firstDifference [(projectPlace options.projects a).guardedMinus (projectPlace options.projects b),
    some (compareTitles (titleOfProject options.projects a) (titleOfProject options.projects b))]

def withFallbacks (comparers : List (Option Ordering)) : Option Ordering := firstDifference (comparers ++ [byId a b])

/-- The comparator of `sortTasksBySavedPreference`, before its direction. -/
def compareBySavedPreference (sortBy : SortField) : Option Ordering :=
  match sortBy with
  | .due => withFallbacks a b [byDue a b, byCreatedAsc a b]
  | .start =>
    if options.prioritizeByPriority then withFallbacks a b [byStart a b, byPriority a b, byCreatedAsc a b]
    else withFallbacks a b [byStart a b, byCreatedAsc a b]
  | .review => withFallbacks a b [byReview a b, byCreatedAsc a b]
  | .title => withFallbacks a b [byTitle a b, byCreatedAsc a b]
  | .created => withFallbacks a b [byCreatedAsc a b]
  | .createdDesc => withFallbacks a b [byCreatedDesc a b]
  | .priority =>
    if options.prioritizeByPriority then
      withFallbacks a b [byPriority a b, byDue a b, byStart a b, byCreatedAsc a b]
    else withFallbacks a b [byDue a b, byStart a b, byCreatedAsc a b]
  | .energy => withFallbacks a b [byEnergy a b, byDue a b, byStart a b, byCreatedAsc a b]
  | .timeEstimate => withFallbacks a b [byTimeEstimate a b, byDue a b, byStart a b, byCreatedAsc a b]
  | .project => withFallbacks a b [byProject options a b, byCreatedAsc a b]
  | .updated => withFallbacks a b [byUpdated a b, byCreatedAsc a b]
  | .completed | .default => withFallbacks a b [byCreatedAsc a b]

end

def sortTasksBySavedPreference (tasks : List Task) (sortBy : SortField) (options : SortTasksBySavedPreferenceOptions) :
    List Task :=
  if sortBy = .default then tasks
  else sortByComparator options.descending (fun a b => compareBySavedPreference options a b sortBy) tasks

/-! ### Next actions -/

structure ProjectDeadlineBoost where
  projectDueTime : Number
  projectOrder : Number
  projectTitle : String

def taskOrderNumber (task : Task) : Number := orInfinity (taskOrder task)

def compareProjectDeadlineBoostTasks (a b : Task) : Option Ordering :=
  firstDifference [(taskOrderNumber a).guardedMinus (taskOrderNumber b),
    (safeTime a.createdAt .infinity).minus (safeTime b.createdAt .infinity),
    some (compareTitles (titleOf a.title) (titleOf b.title)), some (compareTitles a.id b.id)]

def compareProjectDeadlineBoosts (boostA boostB : Option ProjectDeadlineBoost) (taskA taskB : Task) :
    Option Ordering :=
  match boostA, boostB with
  | some _, none => some .lt
  | none, some _ => some .gt
  | none, none => some .eq
  | some boostA, some boostB =>
    firstDifference [boostA.projectDueTime.guardedMinus boostB.projectDueTime,
      boostA.projectOrder.guardedMinus boostB.projectOrder,
      some (compareTitles boostA.projectTitle boostB.projectTitle), compareProjectDeadlineBoostTasks taskA taskB]

structure SortFocusNextActionsOptions where
  /-- `options.now.getTime()`. -/
  nowMs : Int
  /-- Where it is a finite number. -/
  dueSoonWindowDays : Option Rat := none
  prioritizeByPriority : Bool := false
  projectDeadlineBoosts : JsMap ProjectDeadlineBoost := JsMap.empty

def focusNextDueSoonWindowDays : Int := 30

def dueSoonWindowMs (options : SortFocusNextActionsOptions) : Int :=
  ((options.dueSoonWindowDays.map fun days => max 0 days.floor).getD focusNextDueSoonWindowDays) * 24 * 60 * 60 * 1000

def getFocusNextActionBucket (due : Number) (options : SortFocusNextActionsOptions) : Nat :=
  match due with
  | .finite dueMs => if dueMs ≤ ((options.nowMs + dueSoonWindowMs options : Int) : Rat) then 0 else 2
  | _ => 1

section
variable (options : SortFocusNextActionsOptions) (a b : Task)

def dueOf : Number := safeDueTime a.dueDate .infinity

def bucketOf : Nat := getFocusNextActionBucket (dueOf a) options

/-- The comparator of `sortFocusNextActions`. -/
def compareFocusNextActions : Option Ordering :=
  firstDifference [
    some (compare (bucketOf options a) (bucketOf options b)),
    if bucketOf options a ≠ 1 then (dueOf a).guardedMinus (dueOf b) else some .eq,
    if bucketOf options a = 1 then
      compareProjectDeadlineBoosts (options.projectDeadlineBoosts.get? a.id) (options.projectDeadlineBoosts.get? b.id) a b
    else some .eq,
    if options.prioritizeByPriority then byPriority a b else some .eq,
    (safeTime a.startTime .infinity).guardedMinus (safeTime b.startTime .infinity),
    byCreatedAsc a b, byTitle a b, byId a b]

end

def sortFocusNextActions (tasks : List Task) (options : SortFocusNextActionsOptions) : List Task :=
  sortByComparator false (compareFocusNextActions options) tasks

end

end Mindwtr.Store
