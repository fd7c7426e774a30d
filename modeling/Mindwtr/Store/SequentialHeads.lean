import Mindwtr.Store.TaskSorting
import Mindwtr.Store.TaskUpdate

/-!
# The first task of a sequential project

`getFocusSequentialFirstTaskIds` and `getTaskFocusEligibility` of `task-utils.ts`. The candidates of a sequential
project, or of each of its sections, are collected under a text made of the two ids, and each collection is gone
through once for its first task.
-/

namespace Mindwtr.Store

open Mindwtr.Js Mindwtr.Lib

def noSectionGroup : String := "__no_section__"

/-! ### Sections -/

section
variable [Runtime]

structure SequentialSectionOrder where
  sectionById : JsMap Section
  rankById : JsMap Nat

def liveSections (sections : List Section) : List Section := sections.filter fun sec => !truthy sec.deletedAt

def projectOfSection (sec : Section) : String := (asStr? sec.projectId).getD ""

def compareSequentialSections (a b : Section) : Option Ordering :=
  firstDifference [some (compare ((finiteOrder a.order).getD 0) ((finiteOrder b.order).getD 0)),
    some (compareTitles (titleOf a.title) (titleOf b.title)), some (compareTitles a.id b.id)]

def sortSequentialSections (sections : List Section) : List Section :=
  sortByComparator false compareSequentialSections sections

/-- Each section under its id with its place among the sections of its project. -/
def sectionPlaces (sections : List Section) : List (String × Nat) :=
  (JsMap.groupBy (fun sec => some (projectOfSection sec)) sections).entries.flatMap fun group =>
    (sortSequentialSections group.2).zipIdx.map fun e => (e.1.id, e.2)

def buildSequentialSectionOrder (sections : Option (List Section)) : Option SequentialSectionOrder :=
  sections.map fun sections =>
    { sectionById := JsMap.ofItems (·.id) (liveSections sections)
      rankById := JsMap.ofList (sectionPlaces (liveSections sections)) }

def getSequentialTaskSectionId (task : Task) (sectionOrder : Option SequentialSectionOrder) : Option String :=
  (nonEmptyString task.sectionId).bind fun sectionId =>
    match sectionOrder with
    | none => some sectionId
    | some order => (order.sectionById.get? sectionId).bind fun sec =>
        if sec.projectId = task.projectId then some sec.id else none

def getSequentialTaskGroupKey (task : Task) (sectionScopedProjectIds : Finset String)
    (sectionOrder : Option SequentialSectionOrder) : Option String :=
  (nonEmptyString task.projectId).map fun projectId =>
    if projectId ∈ sectionScopedProjectIds then
      projectId ++ ":" ++ ((getSequentialTaskSectionId task sectionOrder).filter (· != "")).getD noSectionGroup
    else projectId

/-! ### The order of tasks -/

def getSequentialTaskOrderKey (task : Task) (hasOrder : Bool) : Number :=
  if hasOrder then orInfinity (taskOrder task)
  else orInfinity ((safeParseDate task.createdAt).map fun ms => (ms : Rat))

/-- `sectionId ? (rankById.get(sectionId) ?? Infinity) : Infinity`. -/
def sectionRank (order : SequentialSectionOrder) (sectionId : Option String) : Number :=
  orInfinity (((sectionId.filter (· != "")).bind order.rankById.get?).map fun rank => (rank : Rat))

def compareSequentialTasks (a b : Task) (hasOrder : Bool) : Option Ordering :=
  firstDifference [(getSequentialTaskOrderKey a hasOrder).guardedMinus (getSequentialTaskOrderKey b hasOrder),
    (safeTime a.createdAt .infinity).guardedMinus (safeTime b.createdAt .infinity), some (compareTitles a.id b.id)]

def compareSequentialManualHierarchy (a b : Task) (hasOrder : Bool) (sectionOrder : Option SequentialSectionOrder) :
    Option Ordering :=
  match sectionOrder with
  | none => compareSequentialTasks a b hasOrder
  | some order =>
    if a.projectId ≠ b.projectId then compareSequentialTasks a b hasOrder
    else
      let aSectionId := getSequentialTaskSectionId a sectionOrder
      let bSectionId := getSequentialTaskSectionId b sectionOrder
      if sectionRank order aSectionId ≠ sectionRank order bSectionId then
        (sectionRank order aSectionId).minus (sectionRank order bSectionId)
      else if aSectionId ≠ bSectionId then
        some (compareTitles (aSectionId.getD noSectionGroup) (bSectionId.getD noSectionGroup))
      else compareSequentialTasks a b hasOrder

end

/-! ### Candidates -/

def isSequentialChainStatus (status : Option Json) : Bool :=
  asStr? status == some "next" || asStr? status == some "waiting"

def isFocusedToday (task : Task) : Bool := task.isFocusedToday == some (.bool true)

def hasSequentialOrder (tasks : List Task) : Bool := tasks.any fun task => (taskOrder task).isSome

/-- The options of `getFocusSequentialFirstTaskIds`. -/
structure FocusSequentialOptions where
  now : Int
  sectionScopedProjectIds : Finset String := ∅
  sections : Option (List Section) := none

structure ScheduleKey where
  rank : Nat
  time : Number
deriving DecidableEq, Repr

section
variable [LocalCalendar]

def isDueForReview (reviewAt : Option Json) (now : Int) : Bool := (safeParseDate reviewAt).any fun date => date ≤ now

def isFocusSequentialCandidate (task : Task) (now : Int) : Bool :=
  isFocusedToday task || isSequentialChainStatus task.status || isDueForReview task.reviewAt now

/-- The due date, if it comes by the end of the day; that of a waiting task earns nothing. -/
def scheduledDue (task : Task) (now : Int) : Option Rat :=
  match safeDueTime task.dueDate .nan, newDate (getFullYear now) (getMonth now) (getDate now) (23, 59, 59, 999) with
  | .finite dueMs, some endOfToday =>
    if dueMs ≤ endOfToday ∧ asStr? task.status ≠ some "waiting" then some dueMs else none
  | _, _ => none

def scheduledReview (task : Task) (now : Int) : Option Rat :=
  if isDueForReview task.reviewAt now then (safeParseDate task.reviewAt).map fun ms => (ms : Rat) else none

def getFocusSequentialScheduleKey (task : Task) (now : Int) : ScheduleKey :=
  if isFocusedToday task then { rank := 0, time := .finite 0 }
  else
    match scheduledDue task now, scheduledReview task now with
    | some dueMs, some reviewMs => { rank := 1, time := .finite (min dueMs reviewMs) }
    | some dueMs, none => { rank := 1, time := .finite dueMs }
    | none, some reviewMs => { rank := 1, time := .finite reviewMs }
    | none, none => { rank := 2, time := .infinity }

/-! ### First tasks -/

/-- Whether a task comes before the first one so far. -/
def comesFirst (now : Int) (hasOrder : Bool) (sectionOrder : Option SequentialSectionOrder) (task best : Task) : Bool :=
  let key := getFocusSequentialScheduleKey task now
  let bestKey := getFocusSequentialScheduleKey best now
  decide (key.rank < bestKey.rank) ||
    key.rank == bestKey.rank &&
      (key.time.minus bestKey.time == some .lt ||
        key.time == bestKey.time &&
          compareSequentialManualHierarchy task best hasOrder sectionOrder == some .lt)

/-- The first task of a group. A first task so far whose id is empty counts as none. -/
def firstSequentialTask (now : Int) (sectionOrder : Option SequentialSectionOrder) (tasks : List Task) : Option Task :=
  keepFirst (comesFirst now (hasSequentialOrder tasks) sectionOrder) (fun best => best.id == "") tasks

/-- The group of a task that takes part. -/
def sequentialCandidateKey (sequentialProjectIds : Finset String) (options : FocusSequentialOptions)
    (sectionOrder : Option SequentialSectionOrder) (task : Task) : Option String :=
  (getSequentialTaskGroupKey task options.sectionScopedProjectIds sectionOrder).filter fun _ =>
    decide (∃ projectId ∈ nonEmptyString task.projectId, projectId ∈ sequentialProjectIds) &&
      isFocusSequentialCandidate task options.now

def getFocusSequentialFirstTaskIds (tasks : List Task) (sequentialProjectIds : Finset String)
    (options : FocusSequentialOptions) : Finset String :=
  let sectionOrder := buildSequentialSectionOrder options.sections
  let tasksByGroup := JsMap.groupBy (sequentialCandidateKey sequentialProjectIds options sectionOrder) tasks
  (tasksByGroup.entries.filterMap fun group =>
    ((firstSequentialTask options.now sectionOrder group.2).map (·.id)).filter (· != "")).toFinset

/-! ### Eligibility -/

def isTaskInActiveProject (task : Task) (projects : JsMap Project) : Bool :=
  match (nonEmptyString task.projectId).bind projects.get? with
  | none => true
  | some project =>
    !truthy project.deletedAt && (asStr? project.status == some "active" || project.isFocused == some (.bool true))

/-- `shouldShowTaskForStart(task, { now })`. -/
def shouldShowTaskForStart (task : Task) (now : Int) : Bool := !isTaskFutureStart task now

def focusEligibilityActiveStatuses : List String := ["inbox", "next", "waiting", "someday"]

/-- A list of projects, or a map of them that was made before. -/
inductive ProjectLookup where
  | list (projects : List Project)
  | map (projects : JsMap Project)

def getFocusEligibilityProjectMap : ProjectLookup → JsMap Project
  | .list projects => JsMap.ofItems (·.id) projects
  | .map projects => projects

def sequentialProjectIdsOf (projectMap : JsMap Project) : Finset String :=
  ((projectMap.entries.map Prod.snd).filter (fun project => truthy project.isSequential)).map (·.id) |>.toFinset

def sectionScopedProjectIdsOf (projectMap : JsMap Project) : Finset String :=
  ((projectMap.entries.map Prod.snd).filter fun project =>
    truthy project.isSequential && asStr? project.sequentialScope == some "section").map (·.id) |>.toFinset

structure TaskFocusEligibilityContext where
  projects : JsMap Project
  sequentialProjectIds : Finset String
  sectionScopedProjectIds : Finset String
  sequentialFirstTaskIds : Finset String

structure TaskFocusEligibilityOptions where
  tasks : List Task
  projects : ProjectLookup
  sections : Option (List Section) := none
  now : Int
  sequentialProjectIds : Option (Finset String) := none
  sectionScopedProjectIds : Option (Finset String) := none
  sequentialFirstTaskIds : Option (Finset String) := none

/-- The tasks among which the first ones are looked for. -/
def focusEligibilityTasks (tasks : List Task) (projectMap : JsMap Project) : List Task :=
  tasks.filter fun task => !truthy task.deletedAt &&
    decide (∃ status ∈ asStr? task.status, status ∈ focusEligibilityActiveStatuses) &&
    isTaskInActiveProject task projectMap

def buildTaskFocusEligibilityContext (tasks : List Task) (projects : ProjectLookup) (sections : Option (List Section))
    (now : Int) : TaskFocusEligibilityContext :=
  let projectMap := getFocusEligibilityProjectMap projects
  { projects := projectMap
    sequentialProjectIds := sequentialProjectIdsOf projectMap
    sectionScopedProjectIds := sectionScopedProjectIdsOf projectMap
    sequentialFirstTaskIds := getFocusSequentialFirstTaskIds (focusEligibilityTasks tasks projectMap)
      (sequentialProjectIdsOf projectMap)
      { now, sectionScopedProjectIds := sectionScopedProjectIdsOf projectMap, sections } }

inductive FocusEligibilityReason where
  | eligible
  | deferred
  | sequential
  | clarify
deriving DecidableEq, Repr

structure TaskFocusEligibilityResult where
  eligible : Bool
  reason : FocusEligibilityReason
deriving DecidableEq, Repr

def getTaskFocusEligibility (task : Task) (options : TaskFocusEligibilityOptions) : TaskFocusEligibilityResult :=
  let now := options.now
  let projectMap := getFocusEligibilityProjectMap options.projects
  let sequentialProjectIds := options.sequentialProjectIds.getD (sequentialProjectIdsOf projectMap)
  let sectionScopedProjectIds := options.sectionScopedProjectIds.getD (sectionScopedProjectIdsOf projectMap)
  let sequentialFirstTaskIds := options.sequentialFirstTaskIds.getD
    (getFocusSequentialFirstTaskIds (focusEligibilityTasks options.tasks projectMap) sequentialProjectIds
      { now, sectionScopedProjectIds, sections := options.sections })
  let isSequentialBlocked :=
    decide (∃ projectId ∈ nonEmptyString task.projectId, projectId ∈ sequentialProjectIds) &&
      decide (task.id ∉ sequentialFirstTaskIds)
  let isVisibleForStart := shouldShowTaskForStart task now
  let isVisibleActiveTask := isTaskInActiveProject task projectMap && isVisibleForStart
  let isReviewDueEligible := asStr? task.status != some "inbox" && isDueForReview task.reviewAt now
  if isVisibleActiveTask && !isSequentialBlocked && (asStr? task.status == some "next" || isReviewDueEligible) then
    { eligible := true, reason := .eligible }
  else if !isVisibleForStart then { eligible := false, reason := .deferred }
  else if isSequentialBlocked then { eligible := false, reason := .sequential }
  else { eligible := false, reason := .clarify }

end

end Mindwtr.Store
