import Mindwtr.Sync.SavedFilters

/-!
# The merge of settings

`mergeSettingsForSync` of `sync-merge-settings.ts`. The synced settings are in six groups, each with a time of
its last change. The values of a group are merged field by field: the group with the later time gives the value
where both sides have one. What comes out is then checked, and a value that no setting can have falls back to
that of the local side.
-/

namespace Mindwtr.Sync

open Mindwtr.Js

/-- The settings that take part in the merge. -/
structure AppSettings where
  theme : Option Json
  appearance : Option Json
  keybindingStyle : Option Json
  language : Option Json
  weekStart : Option Json
  dateFormat : Option Json
  timeFormat : Option Json
  gtd : Option Json
  features : Option Json
  quickAddAutoClean : Option Json
  markdownEditorAssist : Option Json
  syncPreferences : Option Json
  syncPreferencesUpdatedAt : Option Json
  externalCalendars : Option Json
  savedFilters : Option Json
  ai : Option Json

inductive SettingsSyncGroup where
  | appearance | language | gtd | externalCalendars | ai | savedFilters
deriving DecidableEq

def SettingsSyncGroup.key : SettingsSyncGroup → String
  | .appearance => "appearance"
  | .language => "language"
  | .gtd => "gtd"
  | .externalCalendars => "externalCalendars"
  | .ai => "ai"
  | .savedFilters => "savedFilters"

def settingsSyncGroupKeys : List String :=
  ["appearance", "language", "gtd", "externalCalendars", "ai", "savedFilters"]

/-! ### Options -/

def themeValues : List String :=
  ["light", "dark", "system", "eink", "nord", "sepia", "material3-light", "material3-dark", "oled",
    "catppuccin-macchiato", "dracula"]
def languageValues : List String :=
  ["en", "vi", "zh", "zh-Hant", "es", "hi", "ar", "de", "ru", "ja", "fr", "pt", "pl", "cs", "ko", "it", "tr", "nl",
    "fa", "sv", "system"]
def weekStartValues : List String := ["system", "monday", "saturday", "sunday"]
def timeFormatValues : List String := ["system", "12h", "24h"]
def keybindingStyleValues : List String := ["vim", "emacs", "standard"]
def densityValues : List String := ["comfortable", "compact", "condensed"]
def textSizeValues : List String := ["small", "default", "large", "extra-large"]
def mobileQuickAccessViewValues : List String := ["review", "projects", "calendar", "contexts"]
def defaultProjectFlowModeValues : List String := ["parallel", "sequential"]
def defaultTaskAreaModeValues : List String := ["none", "fixed", "active"]
def aiProviderValues : List String := ["gemini", "openai", "anthropic"]
def aiReasoningEffortValues : List String := ["minimal", "low", "medium", "high"]
def sttProviderValues : List String := ["openai", "gemini", "whisper", "parakeet"]
def sttModeValues : List String := ["smart_parse", "transcribe_only"]
def sttFieldStrategyValues : List String := ["smart", "title_only", "description_only"]
def aiRequestTimeoutOptions : List Rat := [30, 60, 120, 300]
def minFocusTaskLimit : Int := 1
def maxFocusTaskLimit : Int := 10

def gtdSyncedFieldKeys : List String :=
  ["timeEstimatePresets", "taskEditor", "autoArchiveDays", "defaultCaptureMethod", "defaultScheduleTime",
    "defaultAreaMode", "defaultAreaId", "focusTaskLimit", "focusGroupBy", "defaultProjectFlowMode",
    "naturalLanguageDates", "viewSections", "saveAudioAttachments", "weeklyReview", "dailyReview", "pomodoro"]
def gtdSyncedInboxProcessingFieldKeys : List String :=
  ["twoMinuteEnabled", "twoMinuteFirst", "projectFirst", "contextStepEnabled", "scheduleEnabled", "referenceEnabled"]
def gtdSyncedFeatureFieldKeys : List String := ["priorities", "timeEstimates", "pomodoro", "timeline"]

/-! ### Checks of single values -/

def isBoolean (v : Json) : Bool := v == .bool true || v == .bool false

def isString (v : Json) : Bool := v.asStr?.isSome

def isNonEmptyString (v : Json) : Bool := v.asStr?.any fun s => !isBlank s

def isNonNegative (v : Json) : Bool := v.asNum?.any fun n => 0 ≤ n

/-- A value that does not pass its check is replaced by that of the local side. -/
def sanitizeField (accepts : Json → Bool) (value fallback : Option Json) : Option Json :=
  value.bind fun v => if accepts v then some v else fallback

/-- The fallback of a switch is taken only where it is one. -/
def sanitizeBoolean (value fallback : Option Json) : Option Json := sanitizeField isBoolean value (booleanOf fallback)

def sanitizeBooleanRecord (value fallback : Option Json) (booleanKeys : List String) : Option Record :=
  value.bind fun v =>
    match v.asObj? with
    | none => fallback.bind Json.asObj?
    | some record =>
      some (assignProps booleanKeys (fun key => sanitizeBoolean (lookup key record) (prop fallback key)) record)

/-- The checks of a record's fields, one after the other. -/
def sanitizeFields (checks : List (String × (Json → Bool))) (fallback : Option Json) (record : Record) : Record :=
  checks.foldl (fun record check =>
    setProp check.1 (sanitizeField check.2 (lookup check.1 record) (prop fallback check.1)) record) record

def ifTruthy (v : Option Json) : Option Json := if truthy v then v else none

/-! ### Sanitising the groups -/

def appearanceChecks : List (String × (Json → Bool)) :=
  [("density", memberOf densityValues), ("textSize", memberOf textSizeValues), ("showFutureStarts", isBoolean),
    ("mobileQuickAccessView", memberOf mobileQuickAccessViewValues)]

/-- A field that does not pass brings the local record in under the rest. -/
def sanitizeAppearanceField (fallback : Option Json) (state : Record × Bool) (check : String × (Json → Bool)) :
    Record × Bool :=
  match lookup check.1 state.1 with
  | none => state
  | some v =>
    if check.2 v then state
    else (setProp check.1 (prop fallback check.1) (spread (recordOf fallback) state.1), true)

def sanitizeAppearance (value fallback : Option Json) : Option Json :=
  value.bind fun v =>
    match v.asObj? with
    | none => ifTruthy fallback
    | some record =>
      let (next, didSanitizeAppearance) := appearanceChecks.foldl (sanitizeAppearanceField fallback) (record, false)
      if didSanitizeAppearance && next.isEmpty && (recordOf fallback).isEmpty then none else some (.obj next)

def sanitizeTimeEstimatePresets (v : Json) (fallback : Option Json) : Option Json :=
  match v.asArr? with
  | none => fallback
  | some presets =>
    let strings := presets.filter fun item => item.asStr?.any fun s => s != ""
    if strings.isEmpty && !presets.isEmpty then fallback else some (.arr strings)

def sanitizeInboxProcessing (v : Json) (fallback : Option Json) : Option Json :=
  match sanitizeBooleanRecord (some v) fallback gtdSyncedInboxProcessingFieldKeys with
  | none => fallback
  | some record =>
    match lookup "defaultMode" record with
    | none => some (.obj record)
    | some mode =>
      if memberOf ["guided", "quick"] mode then some (.obj record)
      else some (.obj (setProp "defaultMode" (ifTruthy (prop fallback "defaultMode")) record))

def sanitizeBooleans (booleanKeys : List String) (v : Json) (fallback : Option Json) : Option Json :=
  match sanitizeBooleanRecord (some v) fallback booleanKeys with
  | none => fallback
  | some record => some (.obj record)

def clampMinutes (n : Rat) : Int := max 1 (min 180 (mathRound n))

def sanitizeDurations (durations : Json) (fallback : Option Json) : Option Json :=
  match durations.asObj? with
  | none => ifTruthy fallback
  | some record =>
    some (.obj (assignProps ["focusMinutes", "breakMinutes"] (fun key =>
      match asNum? (lookup key record) with
      | some n => some (.num (clampMinutes n))
      | none => prop fallback key) record))

def sanitizePomodoro (v : Json) (fallback : Option Json) : Option Json :=
  match sanitizeBooleanRecord (some v) fallback ["linkTask", "autoStartBreaks", "autoStartFocus", "completionAlert"] with
  | none => fallback
  | some record =>
    match lookup "customDurations" record with
    | none => some (.obj record)
    | some durations =>
      let customDurations := sanitizeDurations durations (prop fallback "customDurations")
      some (.obj (setProp "customDurations" customDurations record))

def normalizeFocusTaskLimit (n : Rat) : Int := min maxFocusTaskLimit (max minFocusTaskLimit n.floor)

def sanitizeFocusTaskLimit (v : Json) (fallback : Option Json) : Option Json :=
  match v.asNum? with
  | none => fallback
  | some n =>
    if n < minFocusTaskLimit ∨ maxFocusTaskLimit < n then fallback else some (.num (normalizeFocusTaskLimit n))

/-- Sub-values of a wrong kind are dropped, what is unknown passes. -/
def sanitizeTaskEditor (v : Json) (fallback : Option Json) : Option Json :=
  match v.asObj? with
  | none => fallback
  | some record =>
    let keep (accepts : Json → Bool) (key : String) : Option Json := (lookup key record).filter accepts
    let record := assignProps ["order", "hidden"] (keep fun v => v.asArr?.isSome) record
    let record := assignProps ["sections", "sectionOpen"] (keep isObjectRecord) record
    let record := setProp "presentation" (keep isString "presentation") record
    some (.obj (setProp "defaultsVersion" (keep (fun v => v.asNum?.isSome) "defaultsVersion") record))

def sanitizeGtdValue (key : String) (v : Json) (fallback : Option Json) : Option Json :=
  let keepIf (accepts : Bool) : Option Json := if accepts then some v else fallback
  match key with
  | "timeEstimatePresets" => sanitizeTimeEstimatePresets v fallback
  | "autoArchiveDays" => keepIf (isNonNegative v)
  | "defaultCaptureMethod" => keepIf (memberOf ["text", "audio"] v)
  | "saveAudioAttachments" | "naturalLanguageDates" => keepIf (isBoolean v)
  | "inboxProcessing" => sanitizeInboxProcessing v fallback
  | "weeklyReview" => sanitizeBooleans ["includeContextStep"] v fallback
  | "dailyReview" => sanitizeBooleans ["includeFocusStep"] v fallback
  | "pomodoro" => sanitizePomodoro v fallback
  | "focusTaskLimit" => sanitizeFocusTaskLimit v fallback
  | "focusGroupBy" => keepIf (memberOf focusGroupByValues v)
  | "defaultAreaMode" => keepIf (memberOf defaultTaskAreaModeValues v)
  | "defaultAreaId" => keepIf (v == .null || isNonEmptyString v)
  | "taskEditor" => sanitizeTaskEditor v fallback
  | "defaultProjectFlowMode" => keepIf (memberOf defaultProjectFlowModeValues v)
  | _ => some v

def gtdSanitizedKeys : List String :=
  ["timeEstimatePresets", "autoArchiveDays", "defaultCaptureMethod", "saveAudioAttachments", "naturalLanguageDates",
    "inboxProcessing", "weeklyReview", "dailyReview", "pomodoro", "focusTaskLimit", "focusGroupBy", "defaultAreaMode",
    "defaultAreaId", "taskEditor", "defaultProjectFlowMode"]

def sanitizeGtd (value fallback : Option Json) : Option Json :=
  value.bind fun v =>
    match v.asObj? with
    | none => ifTruthy fallback
    | some record =>
      some (.obj (assignProps gtdSanitizedKeys (fun key =>
        (lookup key record).bind fun v => sanitizeGtdValue key v (prop fallback key)) record))

def sanitizeFeatures (value fallback : Option Json) : Option Json :=
  value.bind fun v =>
    match v.asObj? with
    | none => ifTruthy fallback
    | some record =>
      some (.obj (assignProps gtdSyncedFeatureFieldKeys (fun key =>
        sanitizeBoolean (lookup key record) (prop fallback key)) record))

/-- Keeps the keys whose value passes; a record without any falls back. -/
def sanitizeKeys (keys : List String) (accepts : Json → Bool) (value fallback : Option Json) : Option Json :=
  match value with
  | some (.obj record) =>
    (nonEmptyRecord (pickProps keys fun key => (lookup key record).filter accepts)).or (ifTruthy fallback)
  | _ => ifTruthy fallback

section
variable [Runtime]

def isValidTimestampJson (v : Json) : Bool := v.asStr?.any fun s => (dateParse s).isSome

def sanitizeSyncPreferences (value fallback : Option Json) : Option Json :=
  sanitizeKeys settingsSyncGroupKeys isBoolean value fallback

def sanitizeSyncPreferencesUpdatedAt (value fallback : Option Json) : Option Json :=
  sanitizeKeys ("preferences" :: settingsSyncGroupKeys) isValidTimestampJson value fallback

/-! ### Calendars -/

structure ExternalCalendar where
  id : String
  name : String
  url : String
  enabled : Bool
  color : Option String
deriving DecidableEq

def externalCalendarColors : List String :=
  ["#2563EB", "#7C3AED", "#DB2777", "#EA580C", "#059669", "#0891B2", "#4F46E5", "#65A30D"]

def normalizeExternalCalendarColor (value : Option Json) : Option String :=
  ((asStr? value).map fun s => Runtime.toUpperCase (trim s)).filter externalCalendarColors.contains

/-- `isValidCalendar` and `sanitizeCalendar`. -/
def sanitizeCalendar (item : Json) : Option ExternalCalendar :=
  let nonBlank (key : String) : Option String := (asStr? (prop (some item) key)).filter fun s => !isBlank s
  match nonBlank "id", nonBlank "name", nonBlank "url", prop (some item) "enabled" with
  | some id, some name, some url, some (.bool enabled) =>
    some ⟨trim id, trim name, trim url, enabled, normalizeExternalCalendarColor (prop (some item) "color")⟩
  | _, _, _, _ => none

def isLocalUrl (url : String) : Bool :=
  let url := Runtime.toLowerCase (trim url)
  url.startsWith "file://" || url.startsWith "content://"

def isLocalCalendarSource (calendar : ExternalCalendar) : Bool := isLocalUrl calendar.url

def ExternalCalendar.toJson (calendar : ExternalCalendar) : Json :=
  .obj ([("id", .str calendar.id), ("name", .str calendar.name), ("url", .str calendar.url),
    ("enabled", .bool calendar.enabled)] ++ (calendar.color.map fun color => ("color", Json.str color)).toList)

def calendarsOf (items : List Json) : List ExternalCalendar := items.filterMap sanitizeCalendar

/-- The calendars of the list by id, and those of the local files of the fallback. -/
def mergeCalendarSources (items : List Json) (fallback : Option Json) : JsMap ExternalCalendar :=
  let deduped := JsMap.ofItems ExternalCalendar.id ((calendarsOf items).filter fun c => !isLocalCalendarSource c)
  let localSources := (calendarsOf ((fallback.bind Json.asArr?).getD [])).filter isLocalCalendarSource
  localSources.foldl (fun deduped source =>
    if (deduped.get? source.id).isSome then deduped else deduped.set source.id source) deduped

def sanitizeExternalCalendars (value fallback : Option Json) : Option Json :=
  match value with
  | some (.arr items) =>
    let deduped := mergeCalendarSources items fallback
    if !items.isEmpty && deduped.entries.isEmpty && truthy fallback then fallback
    else some (.arr (deduped.entries.map fun e => e.2.toJson))
  | _ => ifTruthy fallback

/-! ### The assistant -/

/-- The key stays on its device; so does the model path, which only a device that has it for the same model
keeps. -/
def sanitizeAiForSync (ai localAi : Option Json) : Option Json :=
  if !truthy ai then ai
  else
    let sanitized := setProp "apiKey" none (recordOf ai)
    if truthy (lookup "speechToText" sanitized) then
      let speechToText := lookup "speechToText" sanitized
      let localSpeechToText := prop localAi "speechToText"
      let keepLocalOfflineModelPath := truthy (prop localSpeechToText "offlineModelPath") &&
        prop speechToText "provider" == prop localSpeechToText "provider" &&
        prop speechToText "model" == prop localSpeechToText "model"
      let path := if keepLocalOfflineModelPath then prop localSpeechToText "offlineModelPath" else none
      some (.obj (setProp "speechToText" (some (.obj (setProp "offlineModelPath" path (recordOf speechToText))))
        sanitized))
    else some (.obj sanitized)

def aiChecks : List (String × (Json → Bool)) :=
  [("enabled", isBoolean), ("provider", memberOf aiProviderValues), ("baseUrl", isNonEmptyString),
    ("model", isNonEmptyString), ("openAIExtraBodyParams", isObjectRecord),
    ("reasoningEffort", memberOf aiReasoningEffortValues), ("thinkingBudget", isNonNegative),
    ("copilotModel", isNonEmptyString)]

def speechToTextChecks : List (String × (Json → Bool)) :=
  [("enabled", isBoolean), ("provider", memberOf sttProviderValues), ("model", isNonEmptyString),
    ("language", isNonEmptyString), ("mode", memberOf sttModeValues),
    ("fieldStrategy", memberOf sttFieldStrategyValues)]

def isSupportedRequestTimeout (v : Json) : Bool := v.asNum?.any aiRequestTimeoutOptions.contains

def supportedRequestTimeout (v : Option Json) : Option Json := v.filter isSupportedRequestTimeout

def sanitizeSpeechToText (value fallback : Option Json) : Option Json :=
  value.bind fun v =>
    match v.asObj? with
    | none => ifTruthy fallback
    | some record => some (.obj (sanitizeFields speechToTextChecks fallback record))

def sanitizeAiSettings (value fallback : Option Json) : Option Json :=
  match value with
  | some (.obj record) =>
    let next := sanitizeFields aiChecks fallback record
    let requestTimeoutSeconds :=
      (supportedRequestTimeout (lookup "requestTimeoutSeconds" next)).or
        (supportedRequestTimeout (prop fallback "requestTimeoutSeconds"))
    let next := setProp "requestTimeoutSeconds" requestTimeoutSeconds next
    let speechToText := sanitizeSpeechToText (lookup "speechToText" next) (prop fallback "speechToText")
    sanitizeAiForSync (some (.obj (setProp "speechToText" speechToText next))) fallback
  | _ => if truthy fallback then sanitizeAiForSync fallback fallback else none

def sanitizeMergedSettingsForSync (now : String) (merged localSettings : AppSettings) : AppSettings where
  theme := sanitizeField (memberOf themeValues) merged.theme localSettings.theme
  appearance := sanitizeAppearance merged.appearance localSettings.appearance
  keybindingStyle := sanitizeField (memberOf keybindingStyleValues) merged.keybindingStyle localSettings.keybindingStyle
  language := sanitizeField (memberOf languageValues) merged.language localSettings.language
  weekStart := sanitizeField (memberOf weekStartValues) merged.weekStart localSettings.weekStart
  dateFormat := sanitizeField isString merged.dateFormat localSettings.dateFormat
  timeFormat := sanitizeField (memberOf timeFormatValues) merged.timeFormat localSettings.timeFormat
  gtd := sanitizeGtd merged.gtd localSettings.gtd
  features := sanitizeFeatures merged.features localSettings.features
  quickAddAutoClean := sanitizeBoolean merged.quickAddAutoClean localSettings.quickAddAutoClean
  markdownEditorAssist := sanitizeBoolean merged.markdownEditorAssist localSettings.markdownEditorAssist
  syncPreferences := sanitizeSyncPreferences merged.syncPreferences localSettings.syncPreferences
  syncPreferencesUpdatedAt :=
    sanitizeSyncPreferencesUpdatedAt merged.syncPreferencesUpdatedAt localSettings.syncPreferencesUpdatedAt
  externalCalendars := sanitizeExternalCalendars merged.externalCalendars localSettings.externalCalendars
  savedFilters := merged.savedFilters.map fun v => savedFiltersJson (normalizeSavedFilters now (some v))
  ai := sanitizeAiSettings merged.ai localSettings.ai

end

end Mindwtr.Sync
