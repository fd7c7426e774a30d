import Mindwtr.Js.Throw
import Mindwtr.Sync.Compaction
import Mindwtr.Sync.SettingsMerge

/-!
# The document that is sent

`sanitizeAppDataForRemote` with its fingerprint (`sync-helpers.ts`). A document keeps what belongs to the device in
its settings and in the files of its attachments; none of that is sent. A live file that is missing and has no cloud
key is sent as a tombstone, and so is the file of a deleted owner.
-/

namespace Mindwtr.Sync

open Mindwtr.Js

/-! ### Documents -/

/-- The settings of a document; `others` are those that never leave the device. -/
structure DocumentSettings extends AppSettings where
  others : Record

structure AppData where
  tasks : List Task
  projects : List Project
  sections : List Section
  areas : List Area
  people : Option (List Person)
  settings : DocumentSettings

def DocumentSettings.fields (s : DocumentSettings) : List (String × Option Json) :=
  [("theme", s.theme), ("appearance", s.appearance), ("keybindingStyle", s.keybindingStyle), ("language", s.language),
    ("weekStart", s.weekStart), ("dateFormat", s.dateFormat), ("timeFormat", s.timeFormat), ("gtd", s.gtd),
    ("features", s.features), ("quickAddAutoClean", s.quickAddAutoClean),
    ("markdownEditorAssist", s.markdownEditorAssist), ("syncPreferences", s.syncPreferences),
    ("syncPreferencesUpdatedAt", s.syncPreferencesUpdatedAt), ("externalCalendars", s.externalCalendars),
    ("savedFilters", s.savedFilters), ("ai", s.ai)] ++ extraFields s.others

def recordsJson {α : Type} [MergeableEntity α] (items : List α) : Json :=
  .arr (items.map fun item => .obj (MergeableEntity.record item))

def AppData.toJson (data : AppData) : Json :=
  .obj (definedEntries [("tasks", some (recordsJson data.tasks)), ("projects", some (recordsJson data.projects)),
    ("sections", some (recordsJson data.sections)), ("areas", some (recordsJson data.areas)),
    ("people", data.people.map recordsJson), ("settings", some (.obj (definedEntries data.settings.fields)))])

/-! ### Attachments -/

def missingAttachmentTimestampSentinel : String := "1970-01-01T00:00:00.000Z"
def missingSettingsSyncTimestampSentinel : String := "1970-01-01T00:00:00.000Z"

def hasNonEmptyValue (value : Option Json) : Bool := value.any isNonEmptyString

def stripDeviceState (attachment : Attachment) : Attachment :=
  { attachment with
    uri := some (.str "")
    localStatus := none
    contentMtimeMs := none
    contentSize := none
    pendingContentUpload := none }

/-- The file has no copy that another device could fetch. -/
def neverReachesRemote (ownerDeleted : Bool) (attachment : Attachment) : Bool :=
  !truthy attachment.deletedAt && !hasNonEmptyValue attachment.cloudKey &&
    (ownerDeleted || attachment.localStatus == some (.str "missing"))

def sanitizeAttachment (ownerDeleted : Bool) (attachment : Attachment) : Attachment :=
  if attachment.kind ≠ some (.str "file") then attachment
  else if neverReachesRemote ownerDeleted attachment then
    let fallbackUpdatedAt :=
      if hasNonEmptyValue attachment.updatedAt then attachment.updatedAt
      else some (.str missingAttachmentTimestampSentinel)
    { stripDeviceState attachment with deletedAt := fallbackUpdatedAt, updatedAt := fallbackUpdatedAt }
  else stripDeviceState attachment

def sanitizeAttachments (attachments : Option (List Attachment)) (ownerDeleted : Bool) : Option (List Attachment) :=
  attachments.map fun list => list.map (sanitizeAttachment ownerDeleted)

def sanitizeTask (task : Task) : Task :=
  if truthy task.purgedAt then compactPurgedTaskTombstone task
  else { task with attachments := sanitizeAttachments task.attachments (truthy task.deletedAt) }

def sanitizeProject (project : Project) : Project :=
  if truthy project.purgedAt then compactPurgedProjectTombstone project
  else { project with attachments := sanitizeAttachments project.attachments (truthy project.deletedAt) }

/-! ### Settings -/

/-- The synced copy of the assistant's settings. -/
def sanitizeAi (ai : Option Json) : Json :=
  let speechToText := lookup "speechToText" (recordOf ai)
  let sanitized :=
    if truthy speechToText then some (.obj (setProp "offlineModelPath" none (recordOf speechToText)))
    else speechToText
  .obj (setProp "speechToText" sanitized (setProp "apiKey" none (recordOf ai)))

def isSettingsSyncGroupEnabled (preferences : Option Json) (group : SettingsSyncGroup) : Bool :=
  truthy (coalesce (prop preferences group.key) (some (.bool (decide (group = .gtd)))))

/-- `prefs[group] === true`. -/
def isOptedIn (preferences : Option Json) (group : SettingsSyncGroup) : Bool :=
  prop preferences group.key == some (.bool true)

section
variable [Runtime]

/-- The latest time a `Date` can hold. -/
def maxDateMs : Int := 8640000000000000

def advanceLatestSyncTimestamp (values : List (Option Json)) : Option String :=
  match dateParse missingSettingsSyncTimestampSentinel with
  | none => none
  | some start =>
    let latestTime := (values.filterMap fun v => (asStr? v).bind dateParse).foldl max start
    if latestTime + 1 ≤ maxDateMs then some (Runtime.toISOString (latestTime + 1)) else none

/-- A missing GTD preference counts as enabled, and is sent as such under a time of its own. -/
def remotePreferencesUpdatedAt (settings : DocumentSettings) : Option Json :=
  let updatedAt :=
    if truthy settings.syncPreferencesUpdatedAt then some (recordOf settings.syncPreferencesUpdatedAt) else none
  let materialized := isSettingsSyncGroupEnabled settings.syncPreferences .gtd &&
    (prop settings.syncPreferences "gtd").isNone
  let materializedAt := advanceLatestSyncTimestamp
    [prop settings.syncPreferencesUpdatedAt "preferences", prop settings.syncPreferencesUpdatedAt "gtd"]
  match materialized, materializedAt with
  | true, some time => some (.obj (setProp "preferences" (some (.str time)) (updatedAt.getD [])))
  | _, _ => updatedAt.map .obj

def remotePreferences (settings : DocumentSettings) : Record :=
  if isSettingsSyncGroupEnabled settings.syncPreferences .gtd then
    setProp "gtd" (some (.bool true)) (recordOf settings.syncPreferences)
  else recordOf settings.syncPreferences

/-- It throws on a calendar whose address is not a text. -/
def isLocalCalendarSourceUrl (item : Json) : Except JsError Bool :=
  match prop (some item) "url" with
  | some (.str url) => .ok (isLocalUrl url)
  | none => .error (.typeError "Cannot read properties of undefined (reading 'trim')")
  | some .null => .error (.typeError "Cannot read properties of null (reading 'trim')")
  | some _ => .error (.typeError "url.trim is not a function")

def sentCalendars : List Json → Except JsError (List Json)
  | [] => .ok []
  | item :: items => do
    let isLocal ← isLocalCalendarSourceUrl item
    let rest ← sentCalendars items
    return if isLocal then rest else item :: rest

def sanitizeCalendars (calendars : Option Json) : Except JsError (Option Json) :=
  match calendars with
  | some (.arr items) => (sentCalendars items).map fun items => some (.arr items)
  | _ =>
    if truthy calendars then .error (.typeError "settings.externalCalendars.filter is not a function")
    else .ok calendars

/-- The value of a group that is in sync. -/
def whenOn (on : Bool) (value : Option Json) : Option Json := if on then value else none

/-- The settings that are sent, with the calendars. `now` is the time a saved filter without a creation time gets. -/
def syncedSettings (now : String) (settings : DocumentSettings) (externalCalendars : Option Json) :
    DocumentSettings :=
  let appearance := isOptedIn settings.syncPreferences .appearance
  let language := isOptedIn settings.syncPreferences .language
  let gtd := isSettingsSyncGroupEnabled settings.syncPreferences .gtd
  let snapshot := getGtdSyncSnapshot settings.toAppSettings
  { theme := whenOn appearance settings.theme
    appearance := whenOn appearance settings.appearance
    keybindingStyle := whenOn appearance settings.keybindingStyle
    language := whenOn language settings.language
    weekStart := whenOn language settings.weekStart
    dateFormat := whenOn language settings.dateFormat
    timeFormat := whenOn language settings.timeFormat
    gtd := whenOn gtd (nonEmptyRecord snapshot.gtd)
    features := whenOn gtd (nonEmptyRecord snapshot.features)
    quickAddAutoClean := whenOn gtd snapshot.quickAddAutoClean
    markdownEditorAssist := whenOn gtd snapshot.markdownEditorAssist
    syncPreferences := some (.obj (remotePreferences settings))
    syncPreferencesUpdatedAt := remotePreferencesUpdatedAt settings
    externalCalendars
    savedFilters := whenOn (isOptedIn settings.syncPreferences .savedFilters)
      (some (savedFiltersJson (normalizeSavedFilters now settings.savedFilters)))
    ai := whenOn (isOptedIn settings.syncPreferences .ai)
      (if truthy settings.ai then some (sanitizeAi settings.ai) else none)
    others := [] }

def sanitizeSettingsForRemote (now : String) (settings : DocumentSettings) : Except JsError DocumentSettings :=
  let externalCalendars :=
    if isOptedIn settings.syncPreferences .externalCalendars then sanitizeCalendars settings.externalCalendars
    else .ok none
  externalCalendars.map (syncedSettings now settings)

def sanitizeAppDataForRemote (now : String) (data : AppData) : Except JsError AppData := do
  let settings ← sanitizeSettingsForRemote now data.settings
  return { data with
    tasks := data.tasks.map sanitizeTask
    projects := data.projects.map sanitizeProject
    sections := compactSectionsForPurgedProjects data.sections data.projects false
    settings }

/-! ### The fingerprint -/

def idOf? (item : Json) : Option String := asStr? (prop (some item) "id")

/-- A list whose items all have an id is compared by id. -/
def sortById (items : List Json) : List Json :=
  if items.all fun item => (idOf? item).isSome then
    items.insertionSort fun a b => !jsLt ((idOf? b).getD "") ((idOf? a).getD "")
  else items

mutual

def normalizeForSyncComparison : Json → Json
  | .arr items => .arr (sortById (normalizeItems items))
  | .obj entries => .obj (propertyOrder (sortKeys (normalizeEntries entries)))
  | v => v

def normalizeItems : List Json → List Json
  | [] => []
  | v :: rest => normalizeForSyncComparison v :: normalizeItems rest

def normalizeEntries : List (String × Json) → List (String × Json)
  | [] => []
  | (k, v) :: rest =>
    -- assigning `__proto__` makes no own property
    if k = "__proto__" then normalizeEntries rest else (k, normalizeForSyncComparison v) :: normalizeEntries rest

end

def toStableSyncJson (value : Json) : String := stringify (normalizeForSyncComparison value)

/-- The halves of the hash after one code unit. -/
def stableHashStep (state : UInt32 × UInt32) (code : Nat × Nat) : UInt32 × UInt32 :=
  let (unit, index) := code
  let left := (state.1 ^^^ UInt32.ofNat unit) * 0x01000193
  let right := (state.2 ^^^ UInt32.ofNat (unit + index)) * 0x85ebca6b
  (left, right ^^^ (right >>> 13))

def toHex (n : UInt32) : String := padStart 8 (String.ofList (Nat.toDigits 16 n.toNat))

def hashStableSyncJson (value : String) : String :=
  let (left, right) := (utf16 value).zipIdx.foldl stableHashStep (0x811c9dc5, 0x9e3779b9)
  toHex left ++ toHex right

def computeStableValueFingerprint (value : Json) : String :=
  let json := toStableSyncJson value
  "stable-v2:" ++ toString (utf16 json).length ++ ":" ++ hashStableSyncJson json

def computeSyncPayloadFingerprint (now : String) (data : AppData) : Except JsError String :=
  (sanitizeAppDataForRemote now data).map fun remote => computeStableValueFingerprint remote.toJson

end

end Mindwtr.Sync
