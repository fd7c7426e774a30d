import Mindwtr.Desktop.Arbitration
import Mindwtr.Sync.ContainerRepair

/-!
# The native check of references

`sanitize_dangling_container_references` of `storage.rs`, which every document passes before the desktop stores it. What
refers to a row that is not there, or from a live row to one that is not live, loses the reference; a live section
without a live project becomes a tombstone. The time and the writer of a repair are `repairNow` and `repairRevBy`.
-/

namespace Mindwtr.Desktop

open Mindwtr.Js Mindwtr.Sync

def holdsTime (value : Option Json) : Bool := (asStr? value).any (· != "")

def optionalId (value : Option Json) : Option String := (asStr? value).filter fun v => strTrim v != ""

/-! ### Rows that are not live

`entity_is_deleted` of a row; areas and sections have `purgedAt` among the properties that are not their own. -/

def areaIsDeleted (area : Area) : Bool := holdsTime area.deletedAt || holdsTime (lookup "purgedAt" area.extra)
def projectIsDeleted (project : Project) : Bool := holdsTime project.deletedAt || holdsTime project.purgedAt
def sectionIsDeleted (sec : Section) : Bool := holdsTime sec.deletedAt || holdsTime (lookup "purgedAt" sec.extra)
def taskIsDeleted (task : Task) : Bool := holdsTime task.deletedAt || holdsTime task.purgedAt

/-- A reference that was found wrong: its kind, the id of the row and the id it names. -/
abbrev ReferenceIssue := String × String × String

def stampReferenceRepair (repairNow repairRevBy : String) (tombstone : Bool) (m : SyncMeta) : SyncMeta :=
  let revision := ((asInteger? m.rev).map fun n => max 0 (min n maxCoreRevision)).getD 0
  { m with
    deletedAt := if tombstone then some (.str repairNow) else m.deletedAt
    updatedAt := some (.str repairNow)
    rev := some (.num (min (revision + 1) maxCoreRevision : Int))
    revBy := some (.str repairRevBy) }

/-- A section and its project, where that is one of `projectIds`. -/
def sectionProject? (projectIds : List String) (sec : Section) : Option (String × String) := do
  let id ← optionalId (some (.str sec.id))
  let projectId ← optionalId sec.projectId
  if projectIds.contains projectId then some (id, projectId) else none

def sectionProjects (sections : List Section) (keep : Section → Bool) (projectIds : List String) : JsMap String :=
  JsMap.ofList ((sections.filter keep).filterMap (sectionProject? projectIds))

/-- The section was deleted when its project was archived. -/
def isArchivedWithProject (sec : Section) : Bool :=
  holdsTime sec.projectArchivedAt && asStr? sec.deletedAt == asStr? sec.projectArchivedAt

/-- What the references of tasks are looked up in. -/
structure SanitiserIndex where
  areaIds : List String
  liveAreaIds : List String
  projectIds : List String
  liveProjectIds : List String
  sectionProjects : JsMap String
  liveSectionProjects : JsMap String
  archivedSectionProjects : JsMap String

section
variable (repairNow repairRevBy : String)

def sanitizeProject (areaIds liveAreaIds : List String) (project : Project) : Project × List ReferenceIssue :=
  match optionalId project.areaId with
  | none => (project, [])
  | some areaId =>
    if (if projectIsDeleted project then areaIds else liveAreaIds).contains areaId then (project, [])
    else
      ({ project with
          toSyncMeta :=
            if projectIsDeleted project then project.toSyncMeta
            else stampReferenceRepair repairNow repairRevBy false project.toSyncMeta
          areaId := none },
        [("project.areaId", project.id, areaId)])

def sanitizeSection (projectIds liveProjectIds : List String) (sec : Section) : Section × List ReferenceIssue :=
  let projectId := (optionalId sec.projectId).getD ""
  if (if sectionIsDeleted sec then projectIds else liveProjectIds).contains projectId then (sec, [])
  else if sectionIsDeleted sec then (sec, [])
  else
    ({ sec with toSyncMeta := stampReferenceRepair repairNow repairRevBy true sec.toSyncMeta },
      [("section.projectId", sec.id, projectId)])

/-- The project of a task, which takes its section along. -/
def sanitizeTaskProject (x : SanitiserIndex) (task : Task) : Task × List ReferenceIssue :=
  match optionalId task.projectId with
  | none => (task, [])
  | some projectId =>
    if (if taskIsDeleted task then x.projectIds else x.liveProjectIds).contains projectId then (task, [])
    else
      ({ task with projectId := none, sectionId := none },
        ("task.projectId", task.id, projectId) ::
          ((optionalId task.sectionId).map fun sectionId => ("task.sectionId", task.id, sectionId)).toList)

def sanitizeTaskSection (x : SanitiserIndex) (task : Task) : Task × List ReferenceIssue :=
  match optionalId task.sectionId with
  | none => (task, [])
  | some sectionId =>
    let taskProjectId := optionalId task.projectId
    let sectionProjectId := (if taskIsDeleted task then x.sectionProjects else x.liveSectionProjects).get? sectionId
    let isArchivedSectionReference :=
      taskProjectId.any (fun projectId => x.archivedSectionProjects.get? sectionId == some projectId) &&
        (asStr? task.status).any fun status => status == "done" || status == "archived" || status == "reference"
    if (sectionProjectId.isNone || taskProjectId.any fun projectId => sectionProjectId != some projectId) &&
        !isArchivedSectionReference then
      ({ task with sectionId := none }, [("task.sectionId", task.id, sectionId)])
    else (task, [])

def sanitizeTaskArea (x : SanitiserIndex) (task : Task) : Task × List ReferenceIssue :=
  match optionalId task.areaId with
  | none => (task, [])
  | some areaId =>
    if (if taskIsDeleted task then x.areaIds else x.liveAreaIds).contains areaId then (task, [])
    else ({ task with areaId := none }, [("task.areaId", task.id, areaId)])

/-- The references of a task one after the other; a live task that lost one is stamped. -/
def sanitizeTask (x : SanitiserIndex) (task : Task) : Task × List ReferenceIssue :=
  let (withProject, projectIssues) := sanitizeTaskProject x task
  let (withSection, sectionIssues) := sanitizeTaskSection x withProject
  let (withArea, areaIssues) := sanitizeTaskArea x withSection
  let issues := projectIssues ++ sectionIssues ++ areaIssues
  if issues = [] ∨ taskIsDeleted task then (withArea, issues)
  else ({ withArea with toSyncMeta := stampReferenceRepair repairNow repairRevBy false withArea.toSyncMeta }, issues)

/-- The index of a document whose sections are `sections` by now. -/
def sanitiserIndex (data : AppData) (sections : List Section) : SanitiserIndex :=
  let projectIds := data.projects.map (·.id)
  let liveProjectIds := (data.projects.filter fun project => !projectIsDeleted project).map (·.id)
  let archivedProjectIds := (data.projects.filter fun project =>
    !projectIsDeleted project && asStr? project.status == some "archived").filterMap fun project =>
      optionalId (some (.str project.id))
  { areaIds := data.areas.map (·.id)
    liveAreaIds := (data.areas.filter fun area => !areaIsDeleted area).map (·.id)
    projectIds
    liveProjectIds
    sectionProjects := sectionProjects sections (fun _ => true) projectIds
    liveSectionProjects := sectionProjects sections (fun sec => !sectionIsDeleted sec) liveProjectIds
    archivedSectionProjects := sectionProjects sections isArchivedWithProject archivedProjectIds }

def sanitizeDanglingContainerReferences (data : AppData) : AppData × List ReferenceIssue :=
  let x := sanitiserIndex data data.sections
  let projects := data.projects.map (sanitizeProject repairNow repairRevBy x.areaIds x.liveAreaIds)
  let sections := data.sections.map (sanitizeSection repairNow repairRevBy x.projectIds x.liveProjectIds)
  let tasks := data.tasks.map (sanitizeTask repairNow repairRevBy (sanitiserIndex data (sections.map (·.1))))
  ({ data with projects := projects.map (·.1), sections := sections.map (·.1), tasks := tasks.map (·.1) },
    projects.flatMap (·.2) ++ sections.flatMap (·.2) ++ tasks.flatMap (·.2))

end

end Mindwtr.Desktop
