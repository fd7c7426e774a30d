import Mindwtr.Sync.SettingsChecks

/-!
# Two devices agree on the settings

A group that was changed on one side later than on the other comes out the same, with the same time, whichever
side merges the other's settings (`settings_merge_agrees`). What a device keeps to itself is left out: the key
and the model path of the assistant, a request timeout that the later side does not have, the calendars of local
files; so are values that do not pass their checks, which fall back to those of the device that merges.
-/

namespace Mindwtr.Sync

open Mindwtr.Js

/-! ### Values that pass -/

/-- The values of the group pass their checks. -/
def PassesChecks (settings : AppSettings) : SettingsSyncGroup → Prop
  | .appearance =>
    settings.theme.all (memberOf themeValues) = true ∧
      settings.keybindingStyle.all (memberOf keybindingStyleValues) = true ∧
      ∀ check ∈ appearanceChecks, (prop settings.appearance check.1).all check.2 = true
  | .language =>
    settings.language.all (memberOf languageValues) = true ∧ settings.weekStart.all (memberOf weekStartValues) = true ∧
      settings.dateFormat.all isString = true ∧ settings.timeFormat.all (memberOf timeFormatValues) = true
  | .gtd =>
    settings.gtd.all isObjectRecord = true ∧ settings.features.all isObjectRecord = true ∧
      (∀ key ∈ gtdSyncedFieldKeys, ∀ v fallback, prop settings.gtd key = some v →
        sanitizeGtdValue key v fallback = some v) ∧
      (∀ key ∈ gtdSyncedInboxProcessingFieldKeys,
        (prop (prop settings.gtd "inboxProcessing") key).all isBoolean = true) ∧
      (∀ key ∈ gtdSyncedFeatureFieldKeys, (prop settings.features key).all isBoolean = true) ∧
      settings.quickAddAutoClean.all isBoolean = true ∧ settings.markdownEditorAssist.all isBoolean = true
  | .externalCalendars => True
  | .ai => ∀ v, settings.ai = some v → ∃ record, v = .obj record ∧ PassesAiChecks record
  | .savedFilters => AllHaveCreationTimes settings.savedFilters

def timeoutOf (settings : AppSettings) : Option Json := prop settings.ai "requestTimeoutSeconds"

theorem timeout_passes {settings : AppSettings} (h : PassesChecks settings .ai) :
    (timeoutOf settings).all isSupportedRequestTimeout = true := by
  unfold timeoutOf
  cases hai : settings.ai with
  | none => rfl
  | some v =>
    obtain ⟨record, rfl, hrecord⟩ := h v hai
    exact hrecord.timeout

/-! ### The groups -/

section
variable [Runtime]

/-- The side whose group was changed later. -/
def laterSide (localSettings incomingSettings : AppSettings) (group : SettingsSyncGroup) : AppSettings :=
  if isIncomingNewer (groupUpdatedAt localSettings group) (groupUpdatedAt incomingSettings group) then
    incomingSettings
  else localSettings

/-- The group was changed later on one of the sides. -/
def IsDecided (localSettings incomingSettings : AppSettings) (group : SettingsSyncGroup) : Prop :=
  isIncomingNewer (groupUpdatedAt localSettings group) (groupUpdatedAt incomingSettings group) = true ∨
    isIncomingNewer (groupUpdatedAt incomingSettings group) (groupUpdatedAt localSettings group) = true

theorem isIncomingNewer_swap {localAt incomingAt : Option Json}
    (h : isIncomingNewer localAt incomingAt = true ∨ isIncomingNewer incomingAt localAt = true) :
    isIncomingNewer incomingAt localAt = !isIncomingNewer localAt incomingAt := by
  unfold isIncomingNewer at h ⊢
  generalize parseSyncTimestamp localAt = localTime at h ⊢
  generalize parseSyncTimestamp incomingAt = incomingTime at h ⊢
  cases localTime with
  | none =>
    cases incomingTime with
    | none => simp at h
    | some incomingTime => rfl
  | some localTime =>
    cases incomingTime with
    | none => rfl
    | some incomingTime =>
      simp only [decide_eq_true_eq] at h
      have hlt : incomingTime < localTime ↔ ¬localTime < incomingTime := by omega
      simp only [hlt, decide_not]

/-- No group is kept to the device. -/
def SharesAll (settings : AppSettings) : Prop := ∀ group, isOptedOut settings group = false

section
variable {localSettings incomingSettings : AppSettings} {group : SettingsSyncGroup}

/-- The group is merged with the values that `incoming` has in it. -/
structure MergesWith (localSettings incomingSettings : AppSettings) (group : SettingsSyncGroup)
    (incoming : AppSettings) (wins : Bool) : Prop where
  incoming : (if isOptedOut localSettings group then localSettings else incomingSettings) = incoming
  wins : doesIncomingWin localSettings incomingSettings group = wins

theorem mergesWith_shared (h : isOptedOut localSettings group = false) :
    MergesWith localSettings incomingSettings group incomingSettings
      (isIncomingNewer (groupUpdatedAt localSettings group) (groupUpdatedAt incomingSettings group)) := by
  constructor
  · simp [h]
  · simp [doesIncomingWin, h]

theorem mergeGroup_eq {T : Type} {read : AppSettings → T} {mergeValues : T → T → Bool → T} {incoming : AppSettings}
    {wins : Bool} (h : MergesWith localSettings incomingSettings group incoming wins) :
    mergeGroup localSettings incomingSettings group read mergeValues =
      mergeValues (read localSettings) (read incoming) wins := by
  rw [mergeGroup, h.wins, ← h.incoming]
  split <;> rfl

theorem winnerUpdatedAt_of_shared (h : isOptedOut localSettings group = false) :
    winnerUpdatedAt localSettings incomingSettings group =
      ifTruthy (groupUpdatedAt (laterSide localSettings incomingSettings group) group) := by
  unfold winnerUpdatedAt doesIncomingWin laterSide
  simp only [h, Bool.false_eq_true, if_false]
  split <;> rfl

theorem laterSide_swap (h : IsDecided localSettings incomingSettings group) :
    laterSide incomingSettings localSettings group = laterSide localSettings incomingSettings group := by
  unfold laterSide
  rw [isIncomingNewer_swap h]
  cases isIncomingNewer (groupUpdatedAt localSettings group) (groupUpdatedAt incomingSettings group) <;> rfl

theorem lookup_mergedUpdatedAt (group : SettingsSyncGroup) :
    lookup group.key (mergedUpdatedAt localSettings incomingSettings) =
      winnerUpdatedAt localSettings incomingSettings group := by
  rw [mergedUpdatedAt, lookup_pickProps]
  cases group <;> rfl

theorem isValidTimestamp_of_parse {v : Json} (hstring : isString v = true)
    (h : (parseSyncTimestamp (some v)).isSome = true) : isValidTimestampJson v = true ∧ v.truthy = true := by
  cases v with
  | str s =>
    by_cases hs : s = ""
    · simp [parseSyncTimestamp, hs] at h
    · simp only [parseSyncTimestamp, if_neg hs] at h
      simp [isValidTimestampJson, Json.truthy, h, hs]
  | _ => simp [isString, Json.asStr?] at hstring

theorem parse_of_isIncomingNewer {localAt incomingAt : Option Json} (h : isIncomingNewer localAt incomingAt = true) :
    (parseSyncTimestamp incomingAt).isSome = true := by
  unfold isIncomingNewer at h
  generalize parseSyncTimestamp incomingAt = incomingTime at h ⊢
  cases incomingTime with
  | none => simp at h
  | some incomingTime => rfl

/-- One of the sides knows when the group was changed. -/
def IsTimed (localSettings incomingSettings : AppSettings) (group : SettingsSyncGroup) : Prop :=
  (parseSyncTimestamp (groupUpdatedAt localSettings group)).isSome = true ∨
    (parseSyncTimestamp (groupUpdatedAt incomingSettings group)).isSome = true

theorem IsDecided.isTimed (h : IsDecided localSettings incomingSettings group) :
    IsTimed localSettings incomingSettings group :=
  h.symm.imp parse_of_isIncomingNewer parse_of_isIncomingNewer

theorem laterSide_isSome (h : IsTimed localSettings incomingSettings group) :
    (parseSyncTimestamp (groupUpdatedAt (laterSide localSettings incomingSettings group) group)).isSome = true := by
  unfold laterSide
  unfold IsTimed at h
  split
  · rename_i hnewer
    exact parse_of_isIncomingNewer hnewer
  · rename_i hnewer
    rcases h with h | h
    · exact h
    · unfold isIncomingNewer at hnewer
      cases hlocal : parseSyncTimestamp (groupUpdatedAt localSettings group) with
      | some localTime => rfl
      | none =>
        obtain ⟨incomingTime, hincoming⟩ := Option.isSome_iff_exists.1 h
        simp [hlocal, hincoming] at hnewer

/-- The time of the later side is a valid one. -/
theorem laterSide_isValid (h : IsTimed localSettings incomingSettings group)
    (hlocal : (groupUpdatedAt localSettings group).all isString = true)
    (hincoming : (groupUpdatedAt incomingSettings group).all isString = true) :
    ∃ updatedAt, groupUpdatedAt (laterSide localSettings incomingSettings group) group = some updatedAt ∧
      isValidTimestampJson updatedAt = true ∧ updatedAt.truthy = true := by
  have hsome := laterSide_isSome h
  have hstring : (groupUpdatedAt (laterSide localSettings incomingSettings group) group).all isString = true := by
    rw [laterSide]
    split
    · exact hincoming
    · exact hlocal
  cases hat : groupUpdatedAt (laterSide localSettings incomingSettings group) group with
  | none => simp [hat, parseSyncTimestamp] at hsome
  | some updatedAt =>
    rw [hat] at hsome hstring
    exact ⟨updatedAt, rfl, isValidTimestamp_of_parse hstring hsome⟩

/-- A valid time of the winner is that of the merged group. -/
theorem groupUpdatedAt_of_winner (now : String) {updatedAt : Json}
    (hwinner : winnerUpdatedAt localSettings incomingSettings group = some updatedAt)
    (hvalid : isValidTimestampJson updatedAt = true) :
    groupUpdatedAt (mergeSettingsForSync now localSettings incomingSettings) group = some updatedAt := by
  have hlookup : lookup group.key (mergedUpdatedAt localSettings incomingSettings) = some updatedAt := by
    rw [lookup_mergedUpdatedAt, hwinner]
  have hprop : prop ((nonEmptyRecord (mergedUpdatedAt localSettings incomingSettings)).or
      localSettings.syncPreferencesUpdatedAt) group.key = some updatedAt := by
    rw [← prop_nonEmptyRecord] at hlookup
    cases hrecord : nonEmptyRecord (mergedUpdatedAt localSettings incomingSettings) with
    | none =>
      rw [hrecord] at hlookup
      cases hlookup
    | some next =>
      rw [hrecord] at hlookup
      exact hlookup
  exact prop_sanitizeKeys (groupKey_mem group) hprop hvalid

/-- The merged group has the time of the later side. -/
theorem groupUpdatedAt_merge (now : String) (hshares : isOptedOut localSettings group = false)
    (h : IsTimed localSettings incomingSettings group)
    (hlocal : (groupUpdatedAt localSettings group).all isString = true)
    (hincoming : (groupUpdatedAt incomingSettings group).all isString = true) :
    groupUpdatedAt (mergeSettingsForSync now localSettings incomingSettings) group =
      groupUpdatedAt (laterSide localSettings incomingSettings group) group := by
  obtain ⟨updatedAt, hat, hvalid, htruthy⟩ := laterSide_isValid h hlocal hincoming
  rw [hat]
  apply groupUpdatedAt_of_winner now _ hvalid
  rw [winnerUpdatedAt_of_shared hshares, hat]
  simp [ifTruthy, htruthy]

/-! ### What the merge makes of a group -/

variable {incoming : AppSettings} {wins : Bool}

theorem merge_appearance (now : String) (hgroup : MergesWith localSettings incomingSettings .appearance incoming wins)
    (hl : PassesChecks localSettings .appearance) (hi : PassesChecks incoming .appearance) :
    let merged := mergeSettingsForSync now localSettings incomingSettings
    merged.theme = chooseGroupFieldValue localSettings.theme incoming.theme wins ∧
      merged.keybindingStyle =
        chooseGroupFieldValue localSettings.keybindingStyle incoming.keybindingStyle wins ∧
      ∀ key, prop merged.appearance key = if key = "__proto__" then none else
        chooseGroupFieldValue (prop localSettings.appearance key) (prop incoming.appearance key) wins := by
  obtain ⟨hltheme, hlkeys, hlchecks⟩ := hl
  obtain ⟨hitheme, hikeys, hichecks⟩ := hi
  have happearance : ∀ key, lookup key (mergeRecordFields (recordOf localSettings.appearance)
      (recordOf incoming.appearance) wins) = if key = "__proto__" then none else
        chooseGroupFieldValue (prop localSettings.appearance key) (prop incoming.appearance key) wins := by
    intro key
    rw [lookup_mergeRecordFields, lookup_recordOf, lookup_recordOf]
  have hchecks : ∀ check ∈ appearanceChecks, (lookup check.1 (mergeRecordFields (recordOf localSettings.appearance)
      (recordOf incoming.appearance) wins)).all check.2 = true := by
    intro check hcheck
    rw [happearance]
    split
    · rfl
    · exact chooseGroupFieldValue_all wins (hlchecks check hcheck) (hichecks check hcheck)
  simp only [mergeSettingsForSync, sanitizeMergedSettingsForSync, mergeGroups, mergeGroup_eq hgroup,
    mergeAppearanceGroupValue]
  refine ⟨?_, ?_, ?_⟩
  · exact sanitizeField_of_all (chooseGroupFieldValue_all wins hltheme hitheme)
  · exact sanitizeField_of_all (chooseGroupFieldValue_all wins hlkeys hikeys)
  · intro key
    rw [sanitizeAppearance_nonEmptyRecord hchecks, prop_nonEmptyRecord, happearance]

theorem merge_language (now : String) (hgroup : MergesWith localSettings incomingSettings .language incoming wins)
    (hl : PassesChecks localSettings .language) (hi : PassesChecks incoming .language) :
    let merged := mergeSettingsForSync now localSettings incomingSettings
    merged.language = chooseGroupFieldValue localSettings.language incoming.language wins ∧
      merged.weekStart = chooseGroupFieldValue localSettings.weekStart incoming.weekStart wins ∧
      merged.dateFormat = chooseGroupFieldValue localSettings.dateFormat incoming.dateFormat wins ∧
      merged.timeFormat = chooseGroupFieldValue localSettings.timeFormat incoming.timeFormat wins := by
  obtain ⟨hllanguage, hlweek, hldate, hltime⟩ := hl
  obtain ⟨hilanguage, hiweek, hidate, hitime⟩ := hi
  simp only [mergeSettingsForSync, sanitizeMergedSettingsForSync, mergeGroups, mergeGroup_eq hgroup,
    mergeLanguageGroupValue]
  refine ⟨?_, ?_, ?_, ?_⟩
  · exact sanitizeField_of_all (chooseGroupFieldValue_all wins hllanguage hilanguage)
  · exact sanitizeField_of_all (chooseGroupFieldValue_all wins hlweek hiweek)
  · exact sanitizeField_of_all (chooseGroupFieldValue_all wins hldate hidate)
  · exact sanitizeField_of_all (chooseGroupFieldValue_all wins hltime hitime)

/-- The values of the preferences that the merge gives. -/
structure MergedGtd (merged localSettings incoming : AppSettings) (wins : Bool) : Prop where
  gtd : ∀ key ∈ gtdSyncedFieldKeys,
    prop merged.gtd key = chooseGroupFieldValue (prop localSettings.gtd key) (prop incoming.gtd key) wins
  inboxProcessing : ∀ key ∈ gtdSyncedInboxProcessingFieldKeys, prop (prop merged.gtd "inboxProcessing") key =
    chooseGroupFieldValue (prop (prop localSettings.gtd "inboxProcessing") key)
      (prop (prop incoming.gtd "inboxProcessing") key) wins
  features : ∀ key ∈ gtdSyncedFeatureFieldKeys, prop merged.features key =
    chooseGroupFieldValue (prop localSettings.features key) (prop incoming.features key) wins
  quickAddAutoClean : merged.quickAddAutoClean =
    chooseGroupFieldValue localSettings.quickAddAutoClean incoming.quickAddAutoClean wins
  markdownEditorAssist : merged.markdownEditorAssist =
    chooseGroupFieldValue localSettings.markdownEditorAssist incoming.markdownEditorAssist wins

theorem merge_gtd (now : String) (hgroup : MergesWith localSettings incomingSettings .gtd incoming wins)
    (hl : PassesChecks localSettings .gtd) (hi : PassesChecks incoming .gtd) :
    MergedGtd (mergeSettingsForSync now localSettings incomingSettings) localSettings incoming wins := by
  obtain ⟨hlgtd, hlfeatures, hlstays, hlinbox, hlswitches, hlquick, hlmarkdown⟩ := hl
  obtain ⟨-, -, histays, hiinbox, hiswitches, hiquick, himarkdown⟩ := hi
  constructor
  all_goals
    simp only [mergeSettingsForSync, sanitizeMergedSettingsForSync, mergeGroups, mergeGroup_eq hgroup,
      applyGtdSyncSnapshot]
  · intro key hkey
    have hne : key ≠ "inboxProcessing" := by
      rintro rfl
      exact absurd hkey (by decide)
    rw [prop_sanitizeGtd (unlessEmptied_all hlgtd), prop_unlessEmptied hlgtd, lookup_setProp, if_neg hne,
      lookup_assignProps, if_pos hkey, gtd_beforeChecks hkey]
    split
    · rcases chooseGroupFieldValue_eq_or (prop localSettings.gtd key) (prop incoming.gtd key) wins with h | h
      · rw [h]
        cases hv : prop localSettings.gtd key with
        | none => rfl
        | some v => exact hlstays key hkey v _ hv
      · rw [h]
        cases hv : prop incoming.gtd key with
        | none => rfl
        | some v => exact histays key hkey v _ hv
    · rfl
  · intro key hkey
    have hchosen := chooseGroupFieldValue_all wins (hlinbox key hkey) (hiinbox key hkey)
    rw [← inbox_beforeChecks hkey] at hchosen ⊢
    rw [prop_sanitizeGtd (unlessEmptied_all hlgtd), prop_unlessEmptied hlgtd, lookup_setProp, if_pos rfl,
      if_pos (by decide), writeSyncedKeys]
    have hwritten : ∀ v : Option Json, lookup key (assignProps gtdSyncedInboxProcessingFieldKeys
        (prop (lookup "inboxProcessing" (mergeGtdSyncGroupValue (getGtdSyncSnapshot localSettings)
          (getGtdSyncSnapshot incoming) wins).gtd)) (recordOf v)) =
        prop (lookup "inboxProcessing" (mergeGtdSyncGroupValue (getGtdSyncSnapshot localSettings)
          (getGtdSyncSnapshot incoming) wins).gtd) key := by
      intro v
      rw [lookup_assignProps, if_pos hkey]
    rw [← hwritten (lookup "inboxProcessing" (assignProps gtdSyncedFieldKeys
      (fun key => lookup key (mergeGtdSyncGroupValue (getGtdSyncSnapshot localSettings)
        (getGtdSyncSnapshot incoming) wins).gtd) (recordOf localSettings.gtd)))] at hchosen ⊢
    exact prop_sanitizedInbox hkey hchosen
  · intro key hkey
    have hchosen := chooseGroupFieldValue_all wins (hlswitches key hkey) (hiswitches key hkey)
    have hwritten : prop (unlessEmptied (writeSyncedKeys gtdSyncedFeatureFieldKeys
        (fun key => lookup key (mergeGtdSyncGroupValue (getGtdSyncSnapshot localSettings)
          (getGtdSyncSnapshot incoming) wins).features) localSettings.features) localSettings.features) key =
        chooseGroupFieldValue (prop localSettings.features key) (prop incoming.features key) wins := by
      rw [writeSyncedKeys, prop_unlessEmptied hlfeatures, lookup_assignProps, if_pos hkey, features_beforeChecks hkey]
    rw [← hwritten] at hchosen ⊢
    exact prop_sanitizeFeatures (unlessEmptied_all hlfeatures) hkey hchosen
  · exact sanitizeField_of_all (chooseGroupFieldValue_all wins hlquick hiquick)
  · exact sanitizeField_of_all (chooseGroupFieldValue_all wins hlmarkdown himarkdown)

theorem merge_externalCalendars (now : String)
    (hgroup : MergesWith localSettings incomingSettings .externalCalendars incoming wins) :
    (mergeSettingsForSync now localSettings incomingSettings).externalCalendars =
      sanitizeExternalCalendars (if wins then incoming else localSettings).externalCalendars
        localSettings.externalCalendars := by
  simp only [mergeSettingsForSync, sanitizeMergedSettingsForSync, mergeGroups, mergeGroup_eq hgroup]
  cases wins <;> rfl

theorem merge_savedFilters (now : String)
    (hgroup : MergesWith localSettings incomingSettings .savedFilters incoming wins) :
    (mergeSettingsForSync now localSettings incomingSettings).savedFilters =
      some (savedFiltersJson (normalizeSavedFilters now (some (savedFiltersJson (normalizeSavedFilters now
        (some (savedFiltersJson (mergeSavedFiltersById now localSettings.savedFilters incoming.savedFilters
          wins)))))))) := by
  simp only [mergeSettingsForSync, sanitizeMergedSettingsForSync, mergeGroups, mergeGroup_eq hgroup, Option.map_some]

/-- The assistant's settings that a merge takes, and the timeout that it adds to them. -/
structure MergedAi (merged localSettings : AppSettings) (chosen : Option Json) : Prop where
  isSome : merged.ai.isSome = chosen.isSome
  fields : ∀ key, key ≠ "apiKey" → key ≠ "requestTimeoutSeconds" → key ≠ "speechToText" →
    prop merged.ai key = prop chosen key
  apiKey : prop merged.ai "apiKey" = none
  speechToText : ∀ key, key ≠ "offlineModelPath" →
    prop (prop merged.ai "speechToText") key = prop (prop chosen "speechToText") key
  timeout : timeoutOf merged = (prop chosen "requestTimeoutSeconds").or (timeoutOf localSettings)

theorem merge_ai (now : String) (hgroup : MergesWith localSettings incomingSettings .ai incoming wins)
    (hl : PassesChecks localSettings .ai) (hi : PassesChecks incoming .ai) :
    MergedAi (mergeSettingsForSync now localSettings incomingSettings) localSettings
      (chooseGroupFieldValue localSettings.ai incoming.ai wins) := by
  have hmerged : (mergeSettingsForSync now localSettings incomingSettings).ai = sanitizeAiSettings
      (sanitizeAiForSync (chooseGroupFieldValue localSettings.ai incoming.ai wins) localSettings.ai)
      localSettings.ai := by
    simp only [mergeSettingsForSync, sanitizeMergedSettingsForSync, mergeGroups, mergeGroup_eq hgroup]
  cases hchosen : chooseGroupFieldValue localSettings.ai incoming.ai wins with
  | none =>
    have hnone := (chooseGroupFieldValue_eq_none.1 hchosen).1
    rw [hchosen, hnone] at hmerged
    have hai : (mergeSettingsForSync now localSettings incomingSettings).ai = none := hmerged
    constructor
    · rw [hai]
    · intro key _ _ _
      rw [hai]
    · rw [hai]
      rfl
    · intro key _
      rw [hai]
    · rw [timeoutOf, timeoutOf, hai, hnone]
      rfl
  | some v =>
    have hpasses : ∃ record, v = .obj record ∧ PassesAiChecks record := by
      rcases chooseGroupFieldValue_eq_or localSettings.ai incoming.ai wins with h | h
      · exact hl v (h.symm.trans hchosen)
      · exact hi v (h.symm.trans hchosen)
    obtain ⟨record, rfl, hrecord⟩ := hpasses
    obtain ⟨next, hnext, hkeeps, -, htimeout⟩ := sanitizeAiForSync_keeps hrecord.isRecord localSettings.ai
    obtain ⟨last, hlast, hkeeps', hkey, htimeout'⟩ :=
      sanitizeAiSettings_keeps (hrecord.of_keeps hkeeps htimeout) (timeout_passes hl)
    rw [hchosen, hnext, hlast] at hmerged
    have hall := hkeeps.trans hkeeps'
    constructor
    · rw [hmerged]
      rfl
    · intro key hkey htimeout hne
      rw [hmerged]
      exact hall.fields key hkey htimeout hne
    · rw [hmerged]
      exact hkey
    · intro key hne
      rw [hmerged]
      exact hall.speechToText key hne
    · rw [timeoutOf, hmerged, prop_obj, htimeout', htimeout]
      rfl

end

/-! ### Agreement -/

/-- The later side has a request timeout if any side has, or no settings of the assistant at all. -/
def DecidesTimeout (localSettings incomingSettings : AppSettings) : Prop :=
  let later := laterSide localSettings incomingSettings .ai
  (timeoutOf later).isSome = true ∨ later.ai = none ∨
    (timeoutOf localSettings = none ∧ timeoutOf incomingSettings = none)

/-- The two merges `a` and `b` of the settings of two devices have the same values in the group. -/
def AgreeOn (localSettings incomingSettings a b : AppSettings) : SettingsSyncGroup → Prop
  | .appearance =>
    a.theme = b.theme ∧ a.keybindingStyle = b.keybindingStyle ∧ ∀ key, prop a.appearance key = prop b.appearance key
  | .language =>
    a.language = b.language ∧ a.weekStart = b.weekStart ∧ a.dateFormat = b.dateFormat ∧ a.timeFormat = b.timeFormat
  | .gtd =>
    (∀ key ∈ gtdSyncedFieldKeys, prop a.gtd key = prop b.gtd key) ∧
      (∀ key ∈ gtdSyncedInboxProcessingFieldKeys,
        prop (prop a.gtd "inboxProcessing") key = prop (prop b.gtd "inboxProcessing") key) ∧
      (∀ key ∈ gtdSyncedFeatureFieldKeys, prop a.features key = prop b.features key) ∧
      a.quickAddAutoClean = b.quickAddAutoClean ∧ a.markdownEditorAssist = b.markdownEditorAssist
  | .externalCalendars =>
    DecidesCalendars (laterSide localSettings incomingSettings .externalCalendars).externalCalendars →
      remoteCalendars a.externalCalendars = remoteCalendars b.externalCalendars
  | .ai =>
    a.ai.isSome = b.ai.isSome ∧ (∀ key, key ≠ "requestTimeoutSeconds" → key ≠ "speechToText" →
        prop a.ai key = prop b.ai key) ∧
      (∀ key, key ≠ "offlineModelPath" →
        prop (prop a.ai "speechToText") key = prop (prop b.ai "speechToText") key) ∧
      (DecidesTimeout localSettings incomingSettings → timeoutOf a = timeoutOf b)
  | .savedFilters =>
    TellsApart (normalizeSavedFilters "" localSettings.savedFilters)
        (normalizeSavedFilters "" incomingSettings.savedFilters) →
      ∃ filters filters', a.savedFilters = some (savedFiltersJson filters) ∧
        b.savedFilters = some (savedFiltersJson filters') ∧ filters.Perm filters'

section
variable {localSettings incomingSettings : AppSettings}

theorem timeoutOf_swap {wins : Bool} {a b : AppSettings}
    (hwins : isIncomingNewer (groupUpdatedAt localSettings .ai) (groupUpdatedAt incomingSettings .ai) = wins)
    (hdecides : DecidesTimeout localSettings incomingSettings)
    (ha : timeoutOf a = (prop (chooseGroupFieldValue localSettings.ai incomingSettings.ai wins)
      "requestTimeoutSeconds").or (timeoutOf localSettings))
    (hb : timeoutOf b = (prop (chooseGroupFieldValue localSettings.ai incomingSettings.ai wins)
      "requestTimeoutSeconds").or (timeoutOf incomingSettings)) : timeoutOf a = timeoutOf b := by
  have hsome : ∀ v : Option Json, (prop v "requestTimeoutSeconds").isSome = true → ∀ v', v.or v' = v := by
    intro v hv v'
    cases v with
    | none => cases hv
    | some v => rfl
  rw [ha, hb, chooseGroupFieldValue_or]
  rcases hdecides with hlater | hlater | ⟨hl, hi⟩
  · rw [laterSide, hwins, timeoutOf] at hlater
    cases wins
    all_goals
      simp only [Bool.false_eq_true, if_true, if_false] at hlater ⊢
      rw [hsome _ hlater]
      obtain ⟨v, hv⟩ := Option.isSome_iff_exists.1 hlater
      rw [hv]
      rfl
  · rw [laterSide, hwins] at hlater
    cases wins
    all_goals
      simp only [Bool.false_eq_true, if_true, if_false] at hlater ⊢
      simp [timeoutOf, hlater]
  · rw [hl, hi]

theorem agreeOn_gtd {a b : AppSettings} {wins : Bool} (ha : MergedGtd a localSettings incomingSettings wins)
    (hb : MergedGtd b incomingSettings localSettings !wins) : AgreeOn localSettings incomingSettings a b .gtd := by
  have hswap : ∀ left right, chooseGroupFieldValue left right wins = chooseGroupFieldValue right left !wins :=
    fun left right => chooseGroupFieldValue_swap (.inl rfl)
  refine ⟨?_, ?_, ?_, ?_, ?_⟩
  · intro key hkey
    rw [ha.gtd key hkey, hb.gtd key hkey, hswap]
  · intro key hkey
    rw [ha.inboxProcessing key hkey, hb.inboxProcessing key hkey, hswap]
  · intro key hkey
    rw [ha.features key hkey, hb.features key hkey, hswap]
  · rw [ha.quickAddAutoClean, hb.quickAddAutoClean, hswap]
  · rw [ha.markdownEditorAssist, hb.markdownEditorAssist, hswap]

theorem agreeOn_ai {a b : AppSettings} {wins : Bool}
    (hwins : isIncomingNewer (groupUpdatedAt localSettings .ai) (groupUpdatedAt incomingSettings .ai) = wins)
    (ha : MergedAi a localSettings (chooseGroupFieldValue localSettings.ai incomingSettings.ai wins))
    (hb : MergedAi b incomingSettings (chooseGroupFieldValue incomingSettings.ai localSettings.ai !wins)) :
    AgreeOn localSettings incomingSettings a b .ai := by
  have hchosen : chooseGroupFieldValue localSettings.ai incomingSettings.ai wins =
      chooseGroupFieldValue incomingSettings.ai localSettings.ai !wins := chooseGroupFieldValue_swap (.inl rfl)
  rw [← hchosen] at hb
  refine ⟨?_, ?_, ?_, ?_⟩
  · rw [ha.isSome, hb.isSome]
  · intro key htimeout hspeech
    by_cases hkey : key = "apiKey"
    · rw [hkey, ha.apiKey, hb.apiKey]
    · rw [ha.fields key hkey htimeout hspeech, hb.fields key hkey htimeout hspeech]
  · intro key hkey
    rw [ha.speechToText key hkey, hb.speechToText key hkey]
  · intro hdecides
    exact timeoutOf_swap hwins hdecides ha.timeout hb.timeout

theorem agreeOn_savedFilters {wins : Bool} {now now' : String}
    (hgroup : MergesWith localSettings incomingSettings .savedFilters incomingSettings wins)
    (hgroup' : MergesWith incomingSettings localSettings .savedFilters localSettings !wins)
    (hpl : PassesChecks localSettings .savedFilters) (hpi : PassesChecks incomingSettings .savedFilters) :
    AgreeOn localSettings incomingSettings (mergeSettingsForSync now localSettings incomingSettings)
      (mergeSettingsForSync now' incomingSettings localSettings) .savedFilters := by
  intro htell
  rw [normalizeSavedFilters_now hpl "" now, normalizeSavedFilters_now hpi "" now] at htell
  obtain ⟨hperm, hnormal⟩ := mergeSavedFiltersById_swap hpl hpi now now' htell wins
  refine ⟨_, _, merge_savedFilters now hgroup, merge_savedFilters now' hgroup', ?_⟩
  apply normalize_json_perm (isNormalList_json hnormal now)
  exact normalize_json_perm hnormal hperm now now'

theorem agreeOn_merge (now now' : String) {group : SettingsSyncGroup} (hl : SharesAll localSettings)
    (hi : SharesAll incomingSettings) (hdecided : IsDecided localSettings incomingSettings group)
    (hpl : PassesChecks localSettings group) (hpi : PassesChecks incomingSettings group) :
    AgreeOn localSettings incomingSettings (mergeSettingsForSync now localSettings incomingSettings)
      (mergeSettingsForSync now' incomingSettings localSettings) group := by
  have hswap := isIncomingNewer_swap hdecided
  have hgroup := @mergesWith_shared _ localSettings incomingSettings group (hl group)
  have hgroup' := @mergesWith_shared _ incomingSettings localSettings group (hi group)
  rw [hswap] at hgroup'
  generalize hwins : isIncomingNewer (groupUpdatedAt localSettings group) (groupUpdatedAt incomingSettings group) =
    wins at hgroup hgroup' hswap
  have hchosen : ∀ left right, chooseGroupFieldValue left right wins = chooseGroupFieldValue right left !wins :=
    fun left right => chooseGroupFieldValue_swap (.inl rfl)
  cases group with
  | appearance =>
    obtain ⟨htheme, hkeys, hfields⟩ := merge_appearance now hgroup hpl hpi
    obtain ⟨htheme', hkeys', hfields'⟩ := merge_appearance now' hgroup' hpi hpl
    refine ⟨?_, ?_, ?_⟩
    · rw [htheme, htheme', hchosen]
    · rw [hkeys, hkeys', hchosen]
    · intro key
      rw [hfields, hfields', hchosen]
  | language =>
    obtain ⟨hlanguage, hweek, hdate, htime⟩ := merge_language now hgroup hpl hpi
    obtain ⟨hlanguage', hweek', hdate', htime'⟩ := merge_language now' hgroup' hpi hpl
    refine ⟨?_, ?_, ?_, ?_⟩
    · rw [hlanguage, hlanguage', hchosen]
    · rw [hweek, hweek', hchosen]
    · rw [hdate, hdate', hchosen]
    · rw [htime, htime', hchosen]
  | gtd => exact agreeOn_gtd (merge_gtd now hgroup hpl hpi) (merge_gtd now' hgroup' hpi hpl)
  | externalCalendars =>
    intro hdecides
    obtain ⟨calendars, hcalendars⟩ := remote_sanitizeExternalCalendars hdecides
    have hlater : laterSide localSettings incomingSettings .externalCalendars =
        if wins then incomingSettings else localSettings := by
      rw [laterSide, hwins]
    rw [hlater] at hcalendars
    rw [merge_externalCalendars now hgroup, merge_externalCalendars now' hgroup', hcalendars]
    cases wins
    · exact (hcalendars _).symm
    · exact (hcalendars _).symm
  | ai => exact agreeOn_ai hwins (merge_ai now hgroup hpl hpi) (merge_ai now' hgroup' hpi hpl)
  | savedFilters => exact agreeOn_savedFilters hgroup hgroup' hpl hpi

/-- Whichever side merges, a group that was changed later on one of them has the same values and the same time. -/
theorem settings_merge_agrees (now now' : String) (group : SettingsSyncGroup) (hl : SharesAll localSettings)
    (hi : SharesAll incomingSettings) (hdecided : IsDecided localSettings incomingSettings group)
    (hpl : PassesChecks localSettings group) (hpi : PassesChecks incomingSettings group)
    (hlat : (groupUpdatedAt localSettings group).all isString = true)
    (hiat : (groupUpdatedAt incomingSettings group).all isString = true) :
    let a := mergeSettingsForSync now localSettings incomingSettings
    let b := mergeSettingsForSync now' incomingSettings localSettings
    AgreeOn localSettings incomingSettings a b group ∧ groupUpdatedAt a group = groupUpdatedAt b group := by
  constructor
  · exact agreeOn_merge now now' hl hi hdecided hpl hpi
  · rw [groupUpdatedAt_merge now (hl group) hdecided.isTimed hlat hiat,
      groupUpdatedAt_merge now' (hi group) hdecided.isTimed.symm hiat hlat, laterSide_swap hdecided]

end

end

/-! ### Two devices -/

def assistantSettings (updatedAt : String) (ai : Record) : AppSettings where
  theme := none
  appearance := none
  keybindingStyle := none
  language := none
  weekStart := none
  dateFormat := none
  timeFormat := none
  gtd := none
  features := none
  quickAddAutoClean := none
  markdownEditorAssist := none
  syncPreferences := none
  syncPreferencesUpdatedAt := some (.obj [("ai", .str updatedAt)])
  externalCalendars := none
  savedFilters := none
  ai := some (.obj ai)

/-- A timeout was set here. -/
def patientAssistant : AppSettings :=
  assistantSettings "2026-01-01T00:00:10.000Z" [("model", .str "m"), ("requestTimeoutSeconds", .num 60)]

/-- An older version of the application wrote this later, and knows no timeouts. -/
def plainAssistant : AppSettings := assistantSettings "2026-01-01T00:00:20.000Z" [("model", .str "n")]

theorem sharesAll_assistant (updatedAt : String) (ai : Record) : SharesAll (assistantSettings updatedAt ai) := by
  intro group
  cases group <;> rfl

theorem passesChecks_patient : PassesChecks patientAssistant .ai := by
  intro v hv
  obtain rfl := Option.some.inj hv
  exact ⟨_, rfl, by decide +kernel, by decide +kernel, by decide +kernel, by decide +kernel⟩

theorem passesChecks_plain : PassesChecks plainAssistant .ai := by
  intro v hv
  obtain rfl := Option.some.inj hv
  exact ⟨_, rfl, by decide +kernel, by decide +kernel, by decide +kernel, by decide +kernel⟩

theorem settings_merge_agrees_assistant :
    let _ := isoRuntime
    let a := mergeSettingsForSync "2026-01-01T00:01:00.000Z" patientAssistant plainAssistant
    let b := mergeSettingsForSync "2026-01-01T00:02:00.000Z" plainAssistant patientAssistant
    AgreeOn patientAssistant plainAssistant a b .ai ∧ groupUpdatedAt a .ai = groupUpdatedAt b .ai :=
  let _ := isoRuntime
  settings_merge_agrees _ _ .ai (sharesAll_assistant _ _) (sharesAll_assistant _ _) (.inl (by decide +kernel))
    passesChecks_patient passesChecks_plain (by decide +kernel) (by decide +kernel)

/-- The device that has a timeout keeps it, the other one does not get it. -/
theorem request_timeout_differs :
    let _ := isoRuntime
    SharesAll patientAssistant ∧ SharesAll plainAssistant ∧
      timeoutOf (mergeSettingsForSync "2026-01-01T00:01:00.000Z" patientAssistant plainAssistant) = some (.num 60) ∧
      timeoutOf (mergeSettingsForSync "2026-01-01T00:01:00.000Z" plainAssistant patientAssistant) = none :=
  ⟨sharesAll_assistant _ _, sharesAll_assistant _ _, by decide +kernel, by decide +kernel⟩

end Mindwtr.Sync
