import Mindwtr.Sync.Settings

/-!
# Merging the groups

`mergeSettingsForSync` itself. Every group is resolved by `mergeGroup`; the fields of a record are resolved by
`chooseGroupFieldValue`, which is symmetric once one of the two sides is the later one
(`chooseGroupFieldValue_swap`).
-/

namespace Mindwtr.Sync

open Mindwtr.Js

/-! ### Fields -/

/-- `JSON.stringify` tells different JSON values apart. -/
def isSameValue (left right : Json) : Bool := decide (left = right)

def chooseGroupFieldValue (localValue incomingValue : Option Json) (incomingWins : Bool) : Option Json :=
  match localValue, incomingValue with
  | localValue, none => localValue
  | none, some incomingValue => some incomingValue
  | some localValue, some incomingValue =>
    if isSameValue localValue incomingValue then some localValue
    else if incomingWins then some incomingValue
    else some localValue

/-- The keys of both records, those of the local one first. Assigning `__proto__` makes no own property. -/
def mergedKeys (localRecord incomingRecord : Record) : List String :=
  let localKeys := localRecord.map Prod.fst
  (localKeys ++ (incomingRecord.map Prod.fst).filter fun key => !localKeys.contains key).filter (· != "__proto__")

def mergeRecordFields (localRecord incomingRecord : Record) (incomingWins : Bool) : Record :=
  pickProps (mergedKeys localRecord incomingRecord) fun key =>
    chooseGroupFieldValue (lookup key localRecord) (lookup key incomingRecord) incomingWins

/-- Without a conflict the times do not matter. -/
def Unopposed (left right : Option Json) : Prop := left = none ∨ right = none ∨ left = right

theorem chooseGroupFieldValue_swap {left right : Option Json} {wins wins' : Bool}
    (h : wins' = !wins ∨ Unopposed left right) :
    chooseGroupFieldValue left right wins = chooseGroupFieldValue right left wins' := by
  cases left with
  | none => cases right <;> rfl
  | some left =>
    cases right with
    | none => rfl
    | some right =>
      by_cases hsame : left = right
      · simp [chooseGroupFieldValue, isSameValue, hsame]
      · have hwins : wins' = !wins := h.resolve_right (by simp [Unopposed, hsame])
        have hsame' : right ≠ left := fun h => hsame h.symm
        cases wins <;> simp [chooseGroupFieldValue, isSameValue, hsame, hsame', hwins]

theorem chooseGroupFieldValue_eq_or (left right : Option Json) (wins : Bool) :
    chooseGroupFieldValue left right wins = left ∨ chooseGroupFieldValue left right wins = right := by
  unfold chooseGroupFieldValue
  split
  · exact .inl rfl
  · exact .inr rfl
  · split
    · exact .inl rfl
    · split
      · exact .inr rfl
      · exact .inl rfl

/-- A value that only one side has is taken from it. -/
theorem chooseGroupFieldValue_or (left right : Option Json) (wins : Bool) :
    chooseGroupFieldValue left right wins = if wins then right.or left else left.or right := by
  cases left with
  | none => cases right <;> cases wins <;> rfl
  | some left =>
    cases right with
    | none => cases wins <;> rfl
    | some right =>
      by_cases hsame : left = right
      · simp [chooseGroupFieldValue, isSameValue, hsame]
      · simp [chooseGroupFieldValue, isSameValue, hsame]

theorem chooseGroupFieldValue_eq_none {left right : Option Json} {wins : Bool} :
    chooseGroupFieldValue left right wins = none ↔ left = none ∧ right = none := by
  rw [chooseGroupFieldValue_or]
  cases wins
  · simp
  · simp [and_comm]

theorem lookup_of_notMem_keys {key : String} {record : Record} (h : key ∉ record.map Prod.fst) :
    lookup key record = none := by
  rw [lookup_eq_find]
  exact JsMap.find_eq_none_iff.2 h

theorem lookup_mergeRecordFields (localRecord incomingRecord : Record) (wins : Bool) (key : String) :
    lookup key (mergeRecordFields localRecord incomingRecord wins) =
      if key = "__proto__" then none
      else chooseGroupFieldValue (lookup key localRecord) (lookup key incomingRecord) wins := by
  rw [mergeRecordFields, lookup_pickProps]
  by_cases hproto : key = "__proto__"
  · simp [mergedKeys, hproto]
  · by_cases hlocal : key ∈ localRecord.map Prod.fst
    · simp [mergedKeys, hproto, List.mem_filter, List.mem_append, hlocal]
    · by_cases hincoming : key ∈ incomingRecord.map Prod.fst
      · simp [mergedKeys, hproto, List.mem_filter, List.mem_append, hlocal, hincoming]
      · simp only [mergedKeys, List.mem_filter, List.mem_append, hlocal, hincoming, false_and, or_self, if_false,
          hproto, lookup_of_notMem_keys hlocal, lookup_of_notMem_keys hincoming]
        rfl

/-! ### Groups -/

structure AppearanceSyncValue where
  theme : Option Json
  appearance : Option Json
  keybindingStyle : Option Json

def mergeAppearanceGroupValue (l i : AppearanceSyncValue) (incomingWins : Bool) : AppearanceSyncValue where
  theme := chooseGroupFieldValue l.theme i.theme incomingWins
  appearance := nonEmptyRecord (mergeRecordFields (recordOf l.appearance) (recordOf i.appearance) incomingWins)
  keybindingStyle := chooseGroupFieldValue l.keybindingStyle i.keybindingStyle incomingWins

structure LanguageSyncValue where
  language : Option Json
  weekStart : Option Json
  dateFormat : Option Json
  timeFormat : Option Json

def mergeLanguageGroupValue (l i : LanguageSyncValue) (incomingWins : Bool) : LanguageSyncValue where
  language := chooseGroupFieldValue l.language i.language incomingWins
  weekStart := chooseGroupFieldValue l.weekStart i.weekStart incomingWins
  dateFormat := chooseGroupFieldValue l.dateFormat i.dateFormat incomingWins
  timeFormat := chooseGroupFieldValue l.timeFormat i.timeFormat incomingWins

/-- The synced part of the preferences. A record without properties is one that the snapshot does not have. -/
structure GtdSyncSnapshot where
  gtd : Record
  features : Record
  quickAddAutoClean : Option Json
  markdownEditorAssist : Option Json

def getGtdSyncSnapshot (settings : AppSettings) : GtdSyncSnapshot where
  gtd :=
    let inboxProcessing := pickProps gtdSyncedInboxProcessingFieldKeys (prop (prop settings.gtd "inboxProcessing"))
    setProp "inboxProcessing" (nonEmptyRecord inboxProcessing) (pickProps gtdSyncedFieldKeys (prop settings.gtd))
  features := pickProps gtdSyncedFeatureFieldKeys (prop settings.features)
  quickAddAutoClean := settings.quickAddAutoClean
  markdownEditorAssist := settings.markdownEditorAssist

def mergeGtdSyncGroupValue (l i : GtdSyncSnapshot) (incomingWins : Bool) : GtdSyncSnapshot where
  gtd :=
    let mergedInboxProcessing := mergeRecordFields (recordOf (lookup "inboxProcessing" l.gtd))
      (recordOf (lookup "inboxProcessing" i.gtd)) incomingWins
    setProp "inboxProcessing" (nonEmptyRecord mergedInboxProcessing) (mergeRecordFields l.gtd i.gtd incomingWins)
  features := mergeRecordFields l.features i.features incomingWins
  quickAddAutoClean := chooseGroupFieldValue l.quickAddAutoClean i.quickAddAutoClean incomingWins
  markdownEditorAssist := chooseGroupFieldValue l.markdownEditorAssist i.markdownEditorAssist incomingWins

/-- What is left of a record after its synced keys are written; a record that is left empty goes. -/
def writeSyncedKeys (keys : List String) (value : String → Option Json) (v : Option Json) : Option Json :=
  nonEmptyRecord (assignProps keys value (recordOf v))

def unlessEmptied (next before : Option Json) : Option Json :=
  if next.isSome then next else if truthy before then none else before

/-- The synced preferences written over the local ones. -/
def applyGtdSyncSnapshot (settings : AppSettings) (value : GtdSyncSnapshot) : AppSettings :=
  let nextGtd := assignProps gtdSyncedFieldKeys (fun key => lookup key value.gtd) (recordOf settings.gtd)
  let nextInboxProcessing := writeSyncedKeys gtdSyncedInboxProcessingFieldKeys
    (prop (lookup "inboxProcessing" value.gtd)) (lookup "inboxProcessing" nextGtd)
  { settings with
    gtd := unlessEmptied (nonEmptyRecord (setProp "inboxProcessing" nextInboxProcessing nextGtd)) settings.gtd
    quickAddAutoClean := value.quickAddAutoClean
    markdownEditorAssist := value.markdownEditorAssist
    features := unlessEmptied
      (writeSyncedKeys gtdSyncedFeatureFieldKeys (fun key => lookup key value.features) settings.features)
      settings.features }

section
variable [Runtime]

def groupUpdatedAt (settings : AppSettings) (group : SettingsSyncGroup) : Option Json :=
  prop settings.syncPreferencesUpdatedAt group.key

def isOptedOut (settings : AppSettings) (group : SettingsSyncGroup) : Bool :=
  prop settings.syncPreferences group.key == some (.bool false)

def doesIncomingWin (localSettings incomingSettings : AppSettings) (group : SettingsSyncGroup) : Bool :=
  if isOptedOut localSettings group then false
  else isIncomingNewer (groupUpdatedAt localSettings group) (groupUpdatedAt incomingSettings group)

def mergeGroup {T : Type} (localSettings incomingSettings : AppSettings) (group : SettingsSyncGroup)
    (read : AppSettings → T) (mergeValues : T → T → Bool → T) : T :=
  let effectiveIncomingValue := if isOptedOut localSettings group then read localSettings else read incomingSettings
  mergeValues (read localSettings) effectiveIncomingValue (doesIncomingWin localSettings incomingSettings group)

def winnerUpdatedAt (localSettings incomingSettings : AppSettings) (group : SettingsSyncGroup) : Option Json :=
  ifTruthy (if doesIncomingWin localSettings incomingSettings group then groupUpdatedAt incomingSettings group
    else groupUpdatedAt localSettings group)

/-- `v ?? {}` -/
def orEmpty (v : Option Json) : Json :=
  match v with
  | none | some .null => .obj []
  | some v => v

def mergedUpdatedAt (localSettings incomingSettings : AppSettings) : Record :=
  let localPrefsAt := prop localSettings.syncPreferencesUpdatedAt "preferences"
  let incomingPrefsAt := prop incomingSettings.syncPreferencesUpdatedAt "preferences"
  pickProps ("preferences" :: settingsSyncGroupKeys) fun key =>
    match key with
    | "appearance" => winnerUpdatedAt localSettings incomingSettings .appearance
    | "language" => winnerUpdatedAt localSettings incomingSettings .language
    | "gtd" => winnerUpdatedAt localSettings incomingSettings .gtd
    | "externalCalendars" => winnerUpdatedAt localSettings incomingSettings .externalCalendars
    | "ai" => winnerUpdatedAt localSettings incomingSettings .ai
    | "savedFilters" => winnerUpdatedAt localSettings incomingSettings .savedFilters
    | _ => ifTruthy (if isIncomingNewer localPrefsAt incomingPrefsAt then incomingPrefsAt else localPrefsAt)

/-- The groups before they are checked. -/
def mergeGroups (now : String) (localSettings incomingSettings : AppSettings) : AppSettings :=
  let incomingPrefsWins := isIncomingNewer (prop localSettings.syncPreferencesUpdatedAt "preferences")
    (prop incomingSettings.syncPreferencesUpdatedAt "preferences")
  let appearance := mergeGroup localSettings incomingSettings .appearance
    (fun s => ⟨s.theme, s.appearance, s.keybindingStyle⟩) mergeAppearanceGroupValue
  let language := mergeGroup localSettings incomingSettings .language
    (fun s => ⟨s.language, s.weekStart, s.dateFormat, s.timeFormat⟩) mergeLanguageGroupValue
  let gtd := mergeGroup localSettings incomingSettings .gtd getGtdSyncSnapshot mergeGtdSyncGroupValue
  let externalCalendars := mergeGroup localSettings incomingSettings .externalCalendars (·.externalCalendars)
    fun localValue incomingValue incomingWins => if incomingWins then incomingValue else localValue
  let savedFilters := mergeGroup localSettings incomingSettings .savedFilters (·.savedFilters)
    fun localValue incomingValue incomingWins =>
      some (savedFiltersJson (mergeSavedFiltersById now localValue incomingValue incomingWins))
  let ai := mergeGroup localSettings incomingSettings .ai (·.ai) chooseGroupFieldValue
  { applyGtdSyncSnapshot localSettings gtd with
    theme := appearance.theme
    appearance := appearance.appearance
    keybindingStyle := appearance.keybindingStyle
    language := language.language
    weekStart := language.weekStart
    dateFormat := language.dateFormat
    timeFormat := language.timeFormat
    syncPreferences :=
      some (orEmpty (if incomingPrefsWins then incomingSettings.syncPreferences else localSettings.syncPreferences))
    syncPreferencesUpdatedAt :=
      (nonEmptyRecord (mergedUpdatedAt localSettings incomingSettings)).or localSettings.syncPreferencesUpdatedAt
    externalCalendars
    savedFilters := some (savedFiltersJson (normalizeSavedFilters now savedFilters))
    ai := sanitizeAiForSync ai localSettings.ai }

def mergeSettingsForSync (now : String) (localSettings incomingSettings : AppSettings) : AppSettings :=
  sanitizeMergedSettingsForSync now (mergeGroups now localSettings incomingSettings) localSettings

end

end Mindwtr.Sync
