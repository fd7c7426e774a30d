import Mindwtr.Sync.FilterNormalForm
import Mindwtr.Sync.SettingsAgreement

/-!
# Groups that a device keeps to itself

Every group is merged on its own (`mergeGroup_eq`): with the incoming values, or, where the device has opted out of
it, with its own values once more. So nothing of an opted-out group comes from the other device, whatever that
device wrote next to it (`settings_groups_isolated`). A group that is shared has the time of the later side and
that side's values; a value that the later side does not have is the other one's.
-/

namespace Mindwtr.Sync

open Mindwtr.Js

/-! ### What the values of a group are compared by -/

/-- The settings of the group are the same. -/
def SameGroup (a b : AppSettings) : SettingsSyncGroup → Prop
  | .appearance => a.theme = b.theme ∧ a.appearance = b.appearance ∧ a.keybindingStyle = b.keybindingStyle
  | .language =>
    a.language = b.language ∧ a.weekStart = b.weekStart ∧ a.dateFormat = b.dateFormat ∧ a.timeFormat = b.timeFormat
  | .gtd =>
    a.gtd = b.gtd ∧ a.features = b.features ∧ a.quickAddAutoClean = b.quickAddAutoClean ∧
      a.markdownEditorAssist = b.markdownEditorAssist
  | .externalCalendars => a.externalCalendars = b.externalCalendars
  | .ai => a.ai = b.ai
  | .savedFilters => a.savedFilters = b.savedFilters

section
variable [Runtime]

/-- The merged group has the values that the device had; its calendars and filters are checked and put into their
normal form, and the assistant's key is not among the synced values. -/
def KeepsValues (now : String) (merged settings : AppSettings) : SettingsSyncGroup → Prop
  | .appearance =>
    merged.theme = settings.theme ∧ merged.keybindingStyle = settings.keybindingStyle ∧
      ∀ key, key ≠ "__proto__" → prop merged.appearance key = prop settings.appearance key
  | .language =>
    merged.language = settings.language ∧ merged.weekStart = settings.weekStart ∧
      merged.dateFormat = settings.dateFormat ∧ merged.timeFormat = settings.timeFormat
  | .gtd =>
    (∀ key ∈ gtdSyncedFieldKeys, prop merged.gtd key = prop settings.gtd key) ∧
      (∀ key ∈ gtdSyncedInboxProcessingFieldKeys,
        prop (prop merged.gtd "inboxProcessing") key = prop (prop settings.gtd "inboxProcessing") key) ∧
      (∀ key ∈ gtdSyncedFeatureFieldKeys, prop merged.features key = prop settings.features key) ∧
      merged.quickAddAutoClean = settings.quickAddAutoClean ∧
      merged.markdownEditorAssist = settings.markdownEditorAssist
  | .externalCalendars =>
    merged.externalCalendars = sanitizeExternalCalendars settings.externalCalendars settings.externalCalendars
  | .ai => MergedAi merged settings settings.ai
  | .savedFilters =>
    ∃ filters, merged.savedFilters = some (savedFiltersJson filters) ∧
      filters.Perm (normalizeSavedFilters now settings.savedFilters)

/-- The time of the group is a text, or is not there. -/
def HasTextTime (settings : AppSettings) (group : SettingsSyncGroup) : Prop :=
  (groupUpdatedAt settings group).all isString = true

def HasValidTime (settings : AppSettings) (group : SettingsSyncGroup) : Prop :=
  HasTextTime settings group ∧ (parseSyncTimestamp (groupUpdatedAt settings group)).isSome = true

/-- The side that does not have the later time. -/
def otherSide (localSettings incomingSettings : AppSettings) (group : SettingsSyncGroup) : AppSettings :=
  if isIncomingNewer (groupUpdatedAt localSettings group) (groupUpdatedAt incomingSettings group) then localSettings
  else incomingSettings

/-- The merged group has the values of the later side, and those of the other one where the later has none. The
calendars are those of the later side with the local files of this device; filters are taken one by one. -/
def TakesLaterValues (now : String) (merged localSettings incomingSettings : AppSettings)
    (group : SettingsSyncGroup) : Prop :=
  let later := laterSide localSettings incomingSettings group
  let other := otherSide localSettings incomingSettings group
  match group with
  | .appearance =>
    merged.theme = later.theme.or other.theme ∧
      merged.keybindingStyle = later.keybindingStyle.or other.keybindingStyle ∧
      ∀ key, key ≠ "__proto__" →
        prop merged.appearance key = (prop later.appearance key).or (prop other.appearance key)
  | .language =>
    merged.language = later.language.or other.language ∧ merged.weekStart = later.weekStart.or other.weekStart ∧
      merged.dateFormat = later.dateFormat.or other.dateFormat ∧
      merged.timeFormat = later.timeFormat.or other.timeFormat
  | .gtd =>
    (∀ key ∈ gtdSyncedFieldKeys, prop merged.gtd key = (prop later.gtd key).or (prop other.gtd key)) ∧
      (∀ key ∈ gtdSyncedInboxProcessingFieldKeys, prop (prop merged.gtd "inboxProcessing") key =
        (prop (prop later.gtd "inboxProcessing") key).or (prop (prop other.gtd "inboxProcessing") key)) ∧
      (∀ key ∈ gtdSyncedFeatureFieldKeys,
        prop merged.features key = (prop later.features key).or (prop other.features key)) ∧
      merged.quickAddAutoClean = later.quickAddAutoClean.or other.quickAddAutoClean ∧
      merged.markdownEditorAssist = later.markdownEditorAssist.or other.markdownEditorAssist
  | .externalCalendars =>
    merged.externalCalendars = sanitizeExternalCalendars later.externalCalendars localSettings.externalCalendars
  | .ai => MergedAi merged localSettings (later.ai.or other.ai)
  | .savedFilters =>
    ∃ filters, merged.savedFilters = some (savedFiltersJson filters) ∧
      ∀ id, withId filters id = chooseEither (withId (normalizeSavedFilters now localSettings.savedFilters) id)
        (withId (normalizeSavedFilters now incomingSettings.savedFilters) id)
        (isIncomingNewer (groupUpdatedAt localSettings .savedFilters) (groupUpdatedAt incomingSettings .savedFilters))

/-- The time of the merged group is that of the later side, and no valid time of the two is later. -/
structure HasLaterTime (merged localSettings incomingSettings : AppSettings) (group : SettingsSyncGroup) : Prop where
  time : groupUpdatedAt merged group = groupUpdatedAt (laterSide localSettings incomingSettings group) group
  latest : ∀ settings ∈ [localSettings, incomingSettings], ∀ ms,
    parseSyncTimestamp (groupUpdatedAt settings group) = some ms →
      ∃ ms', parseSyncTimestamp (groupUpdatedAt merged group) = some ms' ∧ ms ≤ ms'

/-! ### Opted out -/

variable {localSettings incomingSettings : AppSettings} {group : SettingsSyncGroup}

theorem mergesWith_optedOut (h : isOptedOut localSettings group = true) :
    MergesWith localSettings incomingSettings group localSettings false := by
  constructor
  · simp [h]
  · simp [doesIncomingWin, h]

/-- What two devices sent makes no difference. -/
theorem sameGroup_of_optedOut (now : String) (h : isOptedOut localSettings group = true)
    (otherSettings : AppSettings) :
    SameGroup (mergeSettingsForSync now localSettings incomingSettings)
      (mergeSettingsForSync now localSettings otherSettings) group := by
  have hgroup := @mergesWith_optedOut _ localSettings incomingSettings group h
  have hgroup' := @mergesWith_optedOut _ localSettings otherSettings group h
  cases group <;>
    simp only [SameGroup, mergeSettingsForSync, sanitizeMergedSettingsForSync, mergeGroups, mergeGroup_eq hgroup,
      mergeGroup_eq hgroup', applyGtdSyncSnapshot, and_self]

omit [Runtime] in
theorem chooseGroupFieldValue_self (v : Option Json) (wins : Bool) : chooseGroupFieldValue v v wins = v := by
  rcases chooseGroupFieldValue_eq_or v v wins with h | h
  · exact h
  · exact h

omit [Runtime] in
theorem sanitizeField_self (accepts : Json → Bool) (v : Option Json) : sanitizeField accepts v v = v := by
  cases v with
  | none => rfl
  | some v =>
    rw [sanitizeField, Option.bind_some]
    split
    · rfl
    · rfl

theorem keeps_language (now : String) (h : isOptedOut localSettings .language = true) :
    KeepsValues now (mergeSettingsForSync now localSettings incomingSettings) localSettings .language := by
  have hgroup := @mergesWith_optedOut _ localSettings incomingSettings _ h
  simp only [KeepsValues, mergeSettingsForSync, sanitizeMergedSettingsForSync, mergeGroups, mergeGroup_eq hgroup,
    mergeLanguageGroupValue, chooseGroupFieldValue_self, sanitizeField_self, and_self]

/-- Merged filters are written and read twice more, which changes their order at most. -/
theorem reread_perm {now : String} {filters : List SavedFilter} (h : AreNormalised now filters) :
    (normalizeSavedFilters now (some (savedFiltersJson (normalizeSavedFilters now
      (some (savedFiltersJson filters)))))).Perm filters := by
  have hperm := normalizeSavedFilters_json h
  exact (normalizeSavedFilters_json (h.perm hperm.symm)).trans hperm

theorem perm_of_withId {now : String} {filters filters' : List SavedFilter} (h : AreNormalised now filters)
    (h' : AreNormalised now filters') (hids : ∀ id, withId filters id = withId filters' id) :
    filters.Perm filters' := by
  rw [List.perm_ext_iff_of_nodup h.nodup.of_map h'.nodup.of_map]
  intro filter
  have hmem : filter ∈ filters ↔ withId filters filter.id = some filter := by
    simp [withId_eq_some h.nodup]
  rw [hmem, hids, withId_eq_some h'.nodup]
  simp

theorem keeps_savedFilters (now : String) (h : isOptedOut localSettings .savedFilters = true) :
    KeepsValues now (mergeSettingsForSync now localSettings incomingSettings) localSettings .savedFilters := by
  have hgroup := @mergesWith_optedOut _ localSettings incomingSettings _ h
  obtain ⟨hmerged, hids⟩ := withId_mergeSavedFiltersById now localSettings.savedFilters localSettings.savedFilters false
  have hlocal := areNormalised_normalize now localSettings.savedFilters
  refine ⟨_, merge_savedFilters now hgroup, (reread_perm hmerged).trans ?_⟩
  apply perm_of_withId hmerged hlocal
  intro id
  rw [hids, chooseEither_self]

/-- The values of the groups that are checked one by one pass their checks. -/
def PassesOwnChecks (settings : AppSettings) (group : SettingsSyncGroup) : Prop :=
  group ∈ [SettingsSyncGroup.appearance, .gtd, .ai] → PassesChecks settings group

theorem keepsValues_of_optedOut (now : String) (h : isOptedOut localSettings group = true)
    (hpasses : PassesOwnChecks localSettings group) :
    KeepsValues now (mergeSettingsForSync now localSettings incomingSettings) localSettings group := by
  have hgroup := @mergesWith_optedOut _ localSettings incomingSettings group h
  cases group with
  | appearance =>
    have hl := hpasses (by simp)
    obtain ⟨htheme, hkeys, hfields⟩ := merge_appearance now hgroup hl hl
    refine ⟨?_, ?_, ?_⟩
    · rw [htheme, chooseGroupFieldValue_self]
    · rw [hkeys, chooseGroupFieldValue_self]
    · intro key hkey
      rw [hfields, if_neg hkey, chooseGroupFieldValue_self]
  | language => exact keeps_language now h
  | gtd =>
    have hl := hpasses (by simp)
    have hvalues := merge_gtd now hgroup hl hl
    refine ⟨?_, ?_, ?_, ?_, ?_⟩
    · intro key hkey
      rw [hvalues.gtd key hkey, chooseGroupFieldValue_self]
    · intro key hkey
      rw [hvalues.inboxProcessing key hkey, chooseGroupFieldValue_self]
    · intro key hkey
      rw [hvalues.features key hkey, chooseGroupFieldValue_self]
    · rw [hvalues.quickAddAutoClean, chooseGroupFieldValue_self]
    · rw [hvalues.markdownEditorAssist, chooseGroupFieldValue_self]
  | externalCalendars => exact merge_externalCalendars now hgroup
  | ai =>
    have hl := hpasses (by simp)
    have hvalues := merge_ai now hgroup hl hl
    rw [chooseGroupFieldValue_self] at hvalues
    exact hvalues
  | savedFilters => exact keeps_savedFilters now h

theorem groupUpdatedAt_of_optedOut (now : String) (h : isOptedOut localSettings group = true)
    (hvalid : HasValidTime localSettings group) :
    groupUpdatedAt (mergeSettingsForSync now localSettings incomingSettings) group =
      groupUpdatedAt localSettings group := by
  obtain ⟨hstring, hsome⟩ := hvalid
  unfold HasTextTime at hstring
  cases hat : groupUpdatedAt localSettings group with
  | none => simp [hat, parseSyncTimestamp] at hsome
  | some updatedAt =>
    rw [hat] at hstring hsome
    obtain ⟨hvalid, htruthy⟩ := isValidTimestamp_of_parse hstring hsome
    apply groupUpdatedAt_of_winner now _ hvalid
    rw [winnerUpdatedAt, doesIncomingWin, if_pos h]
    simp [hat, ifTruthy, htruthy]

/-! ### Shared -/

theorem chooseGroupFieldValue_later (read : AppSettings → Option Json) :
    chooseGroupFieldValue (read localSettings) (read incomingSettings)
        (isIncomingNewer (groupUpdatedAt localSettings group) (groupUpdatedAt incomingSettings group)) =
      (read (laterSide localSettings incomingSettings group)).or
        (read (otherSide localSettings incomingSettings group)) := by
  rw [chooseGroupFieldValue_or, laterSide, otherSide]
  split
  · rfl
  · rfl

theorem takes_savedFilters (now : String) (h : isOptedOut localSettings .savedFilters = false) :
    TakesLaterValues now (mergeSettingsForSync now localSettings incomingSettings) localSettings incomingSettings
      .savedFilters := by
  have hgroup := @mergesWith_shared _ localSettings incomingSettings .savedFilters h
  obtain ⟨hmerged, hids⟩ := withId_mergeSavedFiltersById now localSettings.savedFilters incomingSettings.savedFilters
    (isIncomingNewer (groupUpdatedAt localSettings .savedFilters) (groupUpdatedAt incomingSettings .savedFilters))
  have hperm := reread_perm hmerged
  refine ⟨_, merge_savedFilters now hgroup, ?_⟩
  intro id
  rw [withId_perm (hmerged.perm hperm.symm).nodup hperm, hids]

theorem takesLaterValues_of_shared (now : String) (h : isOptedOut localSettings group = false)
    (hl : PassesChecks localSettings group) (hi : PassesChecks incomingSettings group) :
    TakesLaterValues now (mergeSettingsForSync now localSettings incomingSettings) localSettings incomingSettings
      group := by
  have hgroup := @mergesWith_shared _ localSettings incomingSettings group h
  have hchosen := @chooseGroupFieldValue_later _ localSettings incomingSettings group
  cases group with
  | appearance =>
    obtain ⟨htheme, hkeys, hfields⟩ := merge_appearance now hgroup hl hi
    refine ⟨?_, ?_, ?_⟩
    · rw [htheme, hchosen (·.theme)]
    · rw [hkeys, hchosen (·.keybindingStyle)]
    · intro key hkey
      rw [hfields, if_neg hkey, hchosen fun settings => prop settings.appearance key]
  | language =>
    obtain ⟨hlanguage, hweek, hdate, htime⟩ := merge_language now hgroup hl hi
    refine ⟨?_, ?_, ?_, ?_⟩
    · rw [hlanguage, hchosen (·.language)]
    · rw [hweek, hchosen (·.weekStart)]
    · rw [hdate, hchosen (·.dateFormat)]
    · rw [htime, hchosen (·.timeFormat)]
  | gtd =>
    have hvalues := merge_gtd now hgroup hl hi
    refine ⟨?_, ?_, ?_, ?_, ?_⟩
    · intro key hkey
      rw [hvalues.gtd key hkey, hchosen fun settings => prop settings.gtd key]
    · intro key hkey
      rw [hvalues.inboxProcessing key hkey, hchosen fun settings => prop (prop settings.gtd "inboxProcessing") key]
    · intro key hkey
      rw [hvalues.features key hkey, hchosen fun settings => prop settings.features key]
    · rw [hvalues.quickAddAutoClean, hchosen (·.quickAddAutoClean)]
    · rw [hvalues.markdownEditorAssist, hchosen (·.markdownEditorAssist)]
  | externalCalendars => exact merge_externalCalendars now hgroup
  | ai =>
    have hvalues := merge_ai now hgroup hl hi
    rw [hchosen (·.ai)] at hvalues
    exact hvalues
  | savedFilters => exact takes_savedFilters now h

/-- No valid time is later than that of the later side. -/
theorem le_laterSide {settings : AppSettings} (hsettings : settings ∈ [localSettings, incomingSettings]) {ms ms' : Int}
    (hms : parseSyncTimestamp (groupUpdatedAt settings group) = some ms)
    (hms' : parseSyncTimestamp (groupUpdatedAt (laterSide localSettings incomingSettings group) group) = some ms') :
    ms ≤ ms' := by
  unfold laterSide isIncomingNewer at hms'
  rcases List.mem_pair.1 hsettings with rfl | rfl
  · cases hincoming : parseSyncTimestamp (groupUpdatedAt incomingSettings group) with
    | none => simp_all
    | some incomingTime =>
      simp only [hms, hincoming, decide_eq_true_eq] at hms'
      split at hms'
      · rw [hincoming] at hms'
        obtain rfl := Option.some.inj hms'
        omega
      · rw [hms] at hms'
        exact (Option.some.inj hms').le
  · cases hlocal : parseSyncTimestamp (groupUpdatedAt localSettings group) with
    | none => simp_all
    | some localTime =>
      simp only [hms, hlocal, decide_eq_true_eq] at hms'
      split at hms'
      · rw [hms] at hms'
        exact (Option.some.inj hms').le
      · rw [hlocal] at hms'
        obtain rfl := Option.some.inj hms'
        omega

theorem hasLaterTime_of_shared (now : String) (h : isOptedOut localSettings group = false)
    (htimed : IsTimed localSettings incomingSettings group)
    (hlocal : HasTextTime localSettings group) (hincoming : HasTextTime incomingSettings group) :
    HasLaterTime (mergeSettingsForSync now localSettings incomingSettings) localSettings incomingSettings group := by
  have htime := groupUpdatedAt_merge now h htimed hlocal hincoming
  obtain ⟨ms', hms'⟩ := Option.isSome_iff_exists.1 (laterSide_isSome htimed)
  refine ⟨htime, ?_⟩
  intro settings hsettings ms hms
  refine ⟨ms', by rw [htime, hms'], ?_⟩
  exact le_laterSide hsettings hms hms'

/-- A group that the device keeps to itself has the values and the time it had, whatever the other device sent; any
other group has the later time and the values of the side that has it, with those of the other side where that side
has none. -/
theorem settings_groups_isolated (now : String) (localSettings incomingSettings : AppSettings)
    (group : SettingsSyncGroup) :
    let merged := mergeSettingsForSync now localSettings incomingSettings
    (isOptedOut localSettings group = true →
      (∀ otherSettings, SameGroup merged (mergeSettingsForSync now localSettings otherSettings) group) ∧
        (PassesOwnChecks localSettings group → KeepsValues now merged localSettings group) ∧
        (HasValidTime localSettings group → groupUpdatedAt merged group = groupUpdatedAt localSettings group)) ∧
      (isOptedOut localSettings group = false →
        (HasTextTime localSettings group → HasTextTime incomingSettings group →
            IsTimed localSettings incomingSettings group → HasLaterTime merged localSettings incomingSettings group) ∧
          (PassesChecks localSettings group → PassesChecks incomingSettings group →
            TakesLaterValues now merged localSettings incomingSettings group)) := by
  constructor
  · intro h
    refine ⟨sameGroup_of_optedOut now h, keepsValues_of_optedOut now h, ?_⟩
    intro hvalid
    exact groupUpdatedAt_of_optedOut now h hvalid
  · intro h
    refine ⟨?_, takesLaterValues_of_shared now h⟩
    intro hlocal hincoming htimed
    exact hasLaterTime_of_shared now h htimed hlocal hincoming

end

/-! ### A value that the later side does not have -/

def appearanceSettings (updatedAt theme : String) (keybindingStyle : Option Json) : AppSettings :=
  { assistantSettings updatedAt [] with
    ai := none
    theme := some (.str theme)
    keybindingStyle
    syncPreferencesUpdatedAt := some (.obj [("appearance", .str updatedAt)]) }

/-- A desktop, where keys have a style. -/
def deskSettings : AppSettings := appearanceSettings "2026-01-01T00:00:10.000Z" "dark" (some (.str "vim"))

/-- A phone, where the theme was changed later. -/
def phoneSettings : AppSettings := appearanceSettings "2026-01-01T00:00:20.000Z" "light" none

/-- The merged group has the time and the theme of the phone, and a style of keys that the phone does not have. -/
theorem keybindingStyle_of_other :
    let _ := isoRuntime
    let merged := mergeSettingsForSync "2026-01-01T00:01:00.000Z" deskSettings phoneSettings
    isOptedOut deskSettings .appearance = false ∧
      groupUpdatedAt merged .appearance = groupUpdatedAt phoneSettings .appearance ∧
      merged.theme = phoneSettings.theme ∧ merged.keybindingStyle = some (.str "vim") ∧
      phoneSettings.keybindingStyle = none := by
  refine ⟨?_, ?_, ?_, ?_, ?_⟩
  · decide +kernel
  · decide +kernel
  · decide +kernel
  · decide +kernel
  · rfl

end Mindwtr.Sync
