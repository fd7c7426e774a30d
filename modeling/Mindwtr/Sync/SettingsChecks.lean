import Mindwtr.Sync.SettingsMerge
import Mindwtr.Sync.FilterAgreement

/-!
# Settings that pass their checks

What `sanitizeMergedSettingsForSync` does to settings whose values pass: nothing, but for the calendars of local
files and for what the assistant keeps on each device.
-/

namespace Mindwtr.Sync

open Mindwtr.Js

/-! ### Values that pass their checks -/

theorem sanitizeField_of_all {accepts : Json → Bool} {value fallback : Option Json} (h : value.all accepts = true) :
    sanitizeField accepts value fallback = value := by
  cases value with
  | none => rfl
  | some v =>
    simp only [Option.all_some] at h
    simp [sanitizeField, h]

theorem chooseGroupFieldValue_all {accepts : Json → Bool} {left right : Option Json} (wins : Bool)
    (hleft : left.all accepts = true) (hright : right.all accepts = true) :
    (chooseGroupFieldValue left right wins).all accepts = true := by
  rcases chooseGroupFieldValue_eq_or left right wins with h | h
  · rw [h]
    exact hleft
  · rw [h]
    exact hright

theorem foldl_sanitizeAppearanceField {fallback : Option Json} {checks : List (String × (Json → Bool))}
    {record : Record} {didSanitize : Bool} (h : ∀ check ∈ checks, (lookup check.1 record).all check.2 = true) :
    checks.foldl (sanitizeAppearanceField fallback) (record, didSanitize) = (record, didSanitize) := by
  induction checks with
  | nil => rfl
  | cons check checks ih =>
    have hstep : sanitizeAppearanceField fallback (record, didSanitize) check = (record, didSanitize) := by
      have hcheck := h check (by simp)
      unfold sanitizeAppearanceField
      dsimp only
      cases hv : lookup check.1 record with
      | none => rfl
      | some v =>
        rw [hv, Option.all_some] at hcheck
        simp [hcheck]
    rw [List.foldl_cons, hstep]
    exact ih fun check hmem => h check (by simp [hmem])

theorem sanitizeAppearance_nonEmptyRecord {fallback : Option Json} {record : Record}
    (h : ∀ check ∈ appearanceChecks, (lookup check.1 record).all check.2 = true) :
    sanitizeAppearance (nonEmptyRecord record) fallback = nonEmptyRecord record := by
  unfold nonEmptyRecord
  split
  · rfl
  · simp [sanitizeAppearance, Json.asObj?, foldl_sanitizeAppearanceField h]

/-- The fields of a record all pass. -/
theorem lookup_sanitizeFields {checks : List (String × (Json → Bool))} {fallback : Option Json} {record : Record}
    (h : ∀ check ∈ checks, (lookup check.1 record).all check.2 = true) (key : String) :
    lookup key (sanitizeFields checks fallback record) = lookup key record := by
  unfold sanitizeFields
  induction checks generalizing record with
  | nil => rfl
  | cons check checks ih =>
    have hsame : ∀ k, lookup k (setProp check.1 (sanitizeField check.2 (lookup check.1 record)
        (prop fallback check.1)) record) = lookup k record := by
      intro k
      rw [sanitizeField_of_all (h check (by simp)), lookup_setProp]
      split
      · rename_i hk
        rw [hk]
      · rfl
    rw [List.foldl_cons, ih, hsame]
    intro check' hmem
    rw [hsame]
    exact h check' (by simp [hmem])

theorem prop_unlessEmptied {record : Record} {before : Option Json} (h : before.all isObjectRecord = true)
    (key : String) : prop (unlessEmptied (nonEmptyRecord record) before) key = lookup key record := by
  cases record with
  | cons e record => rfl
  | nil =>
    cases before with
    | none => rfl
    | some v =>
      cases v <;> simp_all [isObjectRecord, Json.asObj?, unlessEmptied, nonEmptyRecord, lookup, Json.truthy]

theorem prop_sanitizeKeys {keys : List String} {accepts : Json → Bool} {value fallback : Option Json} {key : String}
    {v : Json} (hkey : key ∈ keys) (hv : prop value key = some v) (haccepts : accepts v = true) :
    prop (sanitizeKeys keys accepts value fallback) key = some v := by
  cases value with
  | none => cases hv
  | some value =>
    cases value with
    | obj record =>
      rw [prop_obj] at hv
      have hlookup : lookup key (pickProps keys fun key => (lookup key record).filter accepts) = some v := by
        rw [lookup_pickProps, if_pos hkey, hv]
        simp [Option.filter, haccepts]
      rw [← prop_nonEmptyRecord] at hlookup
      unfold sanitizeKeys
      dsimp only
      cases hrecord : nonEmptyRecord (pickProps keys fun key => (lookup key record).filter accepts) with
      | none =>
        rw [hrecord] at hlookup
        cases hlookup
      | some next =>
        rw [hrecord] at hlookup
        exact hlookup
    | _ => cases hv

theorem groupKey_mem (group : SettingsSyncGroup) : group.key ∈ "preferences" :: settingsSyncGroupKeys := by
  cases group <;> simp [SettingsSyncGroup.key, settingsSyncGroupKeys]

/-! ### The preferences between the merge and the checks -/

section
variable {localSettings incomingSettings : AppSettings}

theorem lookup_gtdSnapshot {settings : AppSettings} {key : String} (hkey : key ∈ gtdSyncedFieldKeys) :
    lookup key (getGtdSyncSnapshot settings).gtd = prop settings.gtd key := by
  have hne : key ≠ "inboxProcessing" := by
    rintro rfl
    exact absurd hkey (by decide)
  rw [getGtdSyncSnapshot]
  simp only [lookup_setProp, if_neg hne, lookup_pickProps, if_pos hkey]

theorem lookup_inboxSnapshot {settings : AppSettings} {key : String}
    (hkey : key ∈ gtdSyncedInboxProcessingFieldKeys) :
    prop (lookup "inboxProcessing" (getGtdSyncSnapshot settings).gtd) key =
      prop (prop settings.gtd "inboxProcessing") key := by
  rw [getGtdSyncSnapshot]
  simp only [lookup_setProp, if_true, prop_nonEmptyRecord, lookup_pickProps, if_pos hkey]

/-- Between the checks, the merged preferences have the chosen values. -/
theorem gtd_beforeChecks {wins : Bool} {key : String} (hkey : key ∈ gtdSyncedFieldKeys) :
    lookup key (mergeGtdSyncGroupValue (getGtdSyncSnapshot localSettings) (getGtdSyncSnapshot incomingSettings)
      wins).gtd = chooseGroupFieldValue (prop localSettings.gtd key) (prop incomingSettings.gtd key) wins := by
  have hne : key ≠ "inboxProcessing" := by
    rintro rfl
    exact absurd hkey (by decide)
  have hproto : key ≠ "__proto__" := by
    rintro rfl
    exact absurd hkey (by decide)
  rw [mergeGtdSyncGroupValue]
  simp only [lookup_setProp, if_neg hne, lookup_mergeRecordFields, if_neg hproto, lookup_gtdSnapshot hkey]

theorem inbox_beforeChecks {wins : Bool} {key : String} (hkey : key ∈ gtdSyncedInboxProcessingFieldKeys) :
    prop (lookup "inboxProcessing" (mergeGtdSyncGroupValue (getGtdSyncSnapshot localSettings)
      (getGtdSyncSnapshot incomingSettings) wins).gtd) key =
      chooseGroupFieldValue (prop (prop localSettings.gtd "inboxProcessing") key)
        (prop (prop incomingSettings.gtd "inboxProcessing") key) wins := by
  have hproto : key ≠ "__proto__" := by
    rintro rfl
    exact absurd hkey (by decide)
  rw [mergeGtdSyncGroupValue]
  simp only [lookup_setProp, if_true, prop_nonEmptyRecord, lookup_mergeRecordFields, if_neg hproto, lookup_recordOf,
    lookup_inboxSnapshot hkey]

theorem features_beforeChecks {wins : Bool} {key : String} (hkey : key ∈ gtdSyncedFeatureFieldKeys) :
    lookup key (mergeGtdSyncGroupValue (getGtdSyncSnapshot localSettings) (getGtdSyncSnapshot incomingSettings)
      wins).features = chooseGroupFieldValue (prop localSettings.features key) (prop incomingSettings.features key)
        wins := by
  have hproto : key ≠ "__proto__" := by
    rintro rfl
    exact absurd hkey (by decide)
  rw [mergeGtdSyncGroupValue]
  simp only [lookup_mergeRecordFields, if_neg hproto, getGtdSyncSnapshot, lookup_pickProps, if_pos hkey]

theorem lookup_sanitizedSwitches {keys : List String} {fallback : Option Json} {record : Record} {key : String}
    (hkey : key ∈ keys) (h : (lookup key record).all isBoolean = true) :
    lookup key (assignProps keys (fun key => sanitizeBoolean (lookup key record) (prop fallback key)) record) =
      lookup key record := by
  rw [lookup_assignProps, if_pos hkey]
  exact sanitizeField_of_all h

theorem prop_sanitizeFeatures {v fallback : Option Json} {key : String} (hv : v.all isObjectRecord = true)
    (hkey : key ∈ gtdSyncedFeatureFieldKeys) (h : (prop v key).all isBoolean = true) :
    prop (sanitizeFeatures v fallback) key = prop v key := by
  cases v with
  | none => rfl
  | some v =>
    cases v with
    | obj record => exact lookup_sanitizedSwitches hkey h
    | _ => simp [isObjectRecord, Json.asObj?] at hv

/-- A switch of the inbox is left as it is, whatever happens to the mode next to it. -/
theorem prop_sanitizeInboxProcessing {record : Record} {fallback : Option Json} {key : String}
    (hkey : key ∈ gtdSyncedInboxProcessingFieldKeys) (h : (lookup key record).all isBoolean = true) :
    prop (sanitizeInboxProcessing (.obj record) fallback) key = lookup key record := by
  have hne : key ≠ "defaultMode" := by
    rintro rfl
    exact absurd hkey (by decide)
  have hswitch : lookup key (assignProps gtdSyncedInboxProcessingFieldKeys
      (fun key => sanitizeBoolean (lookup key record) (prop fallback key)) record) = lookup key record :=
    lookup_sanitizedSwitches hkey h
  unfold sanitizeInboxProcessing
  simp only [sanitizeBooleanRecord, Option.bind_some, Json.asObj?]
  split
  · exact hswitch
  · split
    · exact hswitch
    · rw [prop_obj, lookup_setProp, if_neg hne]
      exact hswitch

theorem prop_sanitizedInbox {record : Record} {fallback : Option Json} {key : String}
    (hkey : key ∈ gtdSyncedInboxProcessingFieldKeys) (h : (lookup key record).all isBoolean = true) :
    prop ((nonEmptyRecord record).bind fun v => sanitizeGtdValue "inboxProcessing" v fallback) key =
      lookup key record := by
  unfold nonEmptyRecord
  split
  · rename_i hempty
    rw [List.isEmpty_iff.1 hempty]
    rfl
  · exact prop_sanitizeInboxProcessing hkey h

theorem prop_sanitizeGtd {v fallback : Option Json} {key : String} (hv : v.all isObjectRecord = true) :
    prop (sanitizeGtd v fallback) key = if key ∈ gtdSanitizedKeys then
      (prop v key).bind fun value => sanitizeGtdValue key value (prop fallback key) else prop v key := by
  cases v with
  | none => simp [sanitizeGtd]
  | some v =>
    cases v with
    | obj record => exact lookup_assignProps _ _ _ _
    | _ => simp [isObjectRecord, Json.asObj?] at hv

theorem unlessEmptied_all {record : Record} {before : Option Json} (h : before.all isObjectRecord = true) :
    (unlessEmptied (nonEmptyRecord record) before).all isObjectRecord = true := by
  cases record with
  | cons e record => rfl
  | nil =>
    unfold unlessEmptied
    simp only [nonEmptyRecord, List.isEmpty_nil, if_true, Option.isSome_none, Bool.false_eq_true, if_false]
    split
    · rfl
    · exact h

end

/-! ### The assistant -/

/-- `next` has what `record` has of the synced fields of the assistant. -/
structure KeepsAssistant (record next : Record) : Prop where
  fields : ∀ key, key ≠ "apiKey" → key ≠ "requestTimeoutSeconds" → key ≠ "speechToText" →
    lookup key next = lookup key record
  speechToText : ∀ key, key ≠ "offlineModelPath" →
    prop (lookup "speechToText" next) key = prop (lookup "speechToText" record) key
  isRecord : (lookup "speechToText" next).all isObjectRecord = true
  isSome : (lookup "speechToText" next).isSome = (lookup "speechToText" record).isSome

theorem KeepsAssistant.trans {record next last : Record} (h : KeepsAssistant record next)
    (h' : KeepsAssistant next last) : KeepsAssistant record last where
  fields key hkey htimeout hspeech := by rw [h'.fields key hkey htimeout hspeech, h.fields key hkey htimeout hspeech]
  speechToText key hkey := by rw [h'.speechToText key hkey, h.speechToText key hkey]
  isRecord := h'.isRecord
  isSome := by rw [h'.isSome, h.isSome]

theorem sanitizeAiForSync_keeps {record : Record} (h : (lookup "speechToText" record).all isObjectRecord = true)
    (localAi : Option Json) :
    ∃ next, sanitizeAiForSync (some (.obj record)) localAi = some (.obj next) ∧ KeepsAssistant record next ∧
      lookup "apiKey" next = none ∧ lookup "requestTimeoutSeconds" next = lookup "requestTimeoutSeconds" record := by
  have hspeech : lookup "speechToText" (setProp "apiKey" none record) = lookup "speechToText" record := by
    rw [lookup_setProp, if_neg (by decide)]
  cases hvalue : lookup "speechToText" record with
  | none =>
    refine ⟨setProp "apiKey" none record, ?_, ⟨?_, ?_, ?_, ?_⟩, ?_, ?_⟩
    · simp [sanitizeAiForSync, recordOf, hspeech, hvalue, truthy, Json.truthy]
    · intro key hkey _ _
      rw [lookup_setProp, if_neg hkey]
    · intro key _
      rw [hspeech]
    · rw [hspeech, hvalue]
      rfl
    · rw [hspeech]
    · rw [lookup_setProp, if_pos rfl]
    · rw [lookup_setProp, if_neg (by decide)]
  | some v =>
    rw [hvalue] at h
    cases v with
    | obj speech =>
      let path := if truthy (prop (prop localAi "speechToText") "offlineModelPath") &&
          prop (some (.obj speech)) "provider" == prop (prop localAi "speechToText") "provider" &&
          prop (some (.obj speech)) "model" == prop (prop localAi "speechToText") "model" then
        prop (prop localAi "speechToText") "offlineModelPath" else none
      let next := setProp "speechToText" (some (.obj (setProp "offlineModelPath" path speech)))
        (setProp "apiKey" none record)
      have hnext : lookup "speechToText" next = some (.obj (setProp "offlineModelPath" path speech)) := by
        rw [lookup_setProp, if_pos rfl]
      refine ⟨next, ?_, ⟨?_, ?_, ?_, ?_⟩, ?_, ?_⟩
      · simp [sanitizeAiForSync, recordOf, hspeech, hvalue, truthy, Json.truthy, next, path]
      · intro key hkey _ hne
        rw [lookup_setProp, if_neg hne, lookup_setProp, if_neg hkey]
      · intro key hkey
        rw [hnext, hvalue, prop_obj, prop_obj, lookup_setProp, if_neg hkey]
      · rw [hnext]
        rfl
      · rw [hnext, hvalue]
        rfl
      · rw [lookup_setProp, if_neg (by decide), lookup_setProp, if_pos rfl]
      · rw [lookup_setProp, if_neg (by decide), lookup_setProp, if_neg (by decide)]
    | _ => simp [isObjectRecord, Json.asObj?] at h

theorem sanitizeSpeechToText_keeps {v fallback : Option Json} (h : v.all isObjectRecord = true)
    (hchecks : ∀ check ∈ speechToTextChecks, (prop v check.1).all check.2 = true) :
    (∀ key, prop (sanitizeSpeechToText v fallback) key = prop v key) ∧
      (sanitizeSpeechToText v fallback).all isObjectRecord = true ∧
      (sanitizeSpeechToText v fallback).isSome = v.isSome := by
  cases v with
  | none => exact ⟨fun _ => rfl, rfl, rfl⟩
  | some v =>
    cases v with
    | obj record => exact ⟨lookup_sanitizeFields hchecks, rfl, rfl⟩
    | _ => simp [isObjectRecord, Json.asObj?] at h

/-- The settings of the assistant pass their checks. -/
structure PassesAiChecks (ai : Record) : Prop where
  isRecord : (lookup "speechToText" ai).all isObjectRecord = true
  fields : ∀ check ∈ aiChecks, (lookup check.1 ai).all check.2 = true
  speechToText : ∀ check ∈ speechToTextChecks, (prop (lookup "speechToText" ai) check.1).all check.2 = true
  timeout : (lookup "requestTimeoutSeconds" ai).all isSupportedRequestTimeout = true

theorem supportedRequestTimeout_of_all {v : Option Json} (h : v.all isSupportedRequestTimeout = true) :
    supportedRequestTimeout v = v := by
  cases v with
  | none => rfl
  | some v =>
    rw [Option.all_some] at h
    simp [supportedRequestTimeout, Option.filter, h]

theorem PassesAiChecks.of_keeps {record next : Record} (h : PassesAiChecks record) (hkeeps : KeepsAssistant record next)
    (htimeout : lookup "requestTimeoutSeconds" next = lookup "requestTimeoutSeconds" record) :
    PassesAiChecks next where
  isRecord := hkeeps.isRecord
  fields check hcheck := by
    have hne : check.1 ≠ "apiKey" ∧ check.1 ≠ "requestTimeoutSeconds" ∧ check.1 ≠ "speechToText" := by
      have hall : ∀ key ∈ aiChecks.map Prod.fst,
          key ≠ "apiKey" ∧ key ≠ "requestTimeoutSeconds" ∧ key ≠ "speechToText" := by decide
      exact hall _ (List.mem_map_of_mem hcheck)
    rw [hkeeps.fields _ hne.1 hne.2.1 hne.2.2]
    exact h.fields check hcheck
  speechToText check hcheck := by
    have hne : check.1 ≠ "offlineModelPath" := by
      have hall : ∀ key ∈ speechToTextChecks.map Prod.fst, key ≠ "offlineModelPath" := by decide
      exact hall _ (List.mem_map_of_mem hcheck)
    rw [hkeeps.speechToText _ hne]
    exact h.speechToText check hcheck
  timeout := by
    rw [htimeout]
    exact h.timeout

theorem sanitizeAiSettings_keeps {record : Record} (h : PassesAiChecks record) {fallback : Option Json}
    (hfallback : (prop fallback "requestTimeoutSeconds").all isSupportedRequestTimeout = true) :
    ∃ next, sanitizeAiSettings (some (.obj record)) fallback = some (.obj next) ∧ KeepsAssistant record next ∧
      lookup "apiKey" next = none ∧ lookup "requestTimeoutSeconds" next =
        (lookup "requestTimeoutSeconds" record).or (prop fallback "requestTimeoutSeconds") := by
  have hfields : ∀ key, lookup key (sanitizeFields aiChecks fallback record) = lookup key record :=
    lookup_sanitizeFields h.fields
  let timeout := (supportedRequestTimeout (lookup "requestTimeoutSeconds" (sanitizeFields aiChecks fallback record))).or
    (supportedRequestTimeout (prop fallback "requestTimeoutSeconds"))
  let timed := setProp "requestTimeoutSeconds" timeout (sanitizeFields aiChecks fallback record)
  have htimeout : timeout =
      (lookup "requestTimeoutSeconds" record).or (prop fallback "requestTimeoutSeconds") := by
    simp only [timeout, hfields]
    rw [supportedRequestTimeout_of_all h.timeout, supportedRequestTimeout_of_all hfallback]
  have htimed : ∀ key, key ≠ "requestTimeoutSeconds" → lookup key timed = lookup key record := by
    intro key hkey
    rw [lookup_setProp, if_neg hkey, hfields]
  have hspeech := htimed "speechToText" (by decide)
  obtain ⟨hprops, hrecord, hsome⟩ := @sanitizeSpeechToText_keeps (lookup "speechToText" timed)
    (prop fallback "speechToText") (hspeech ▸ h.isRecord) (hspeech ▸ h.speechToText)
  let checked := setProp "speechToText"
    (sanitizeSpeechToText (lookup "speechToText" timed) (prop fallback "speechToText")) timed
  have hchecked : lookup "speechToText" checked =
      sanitizeSpeechToText (lookup "speechToText" timed) (prop fallback "speechToText") := by
    rw [lookup_setProp, if_pos rfl]
  have hkeeps : KeepsAssistant record checked := by
    constructor
    · intro key _ hkey hne
      rw [lookup_setProp, if_neg hne, htimed key hkey]
    · intro key _
      rw [hchecked, hprops, hspeech]
    · rw [hchecked]
      exact hrecord
    · rw [hchecked, hsome, hspeech]
  obtain ⟨next, hnext, hkeeps', hkey, hnextTimeout⟩ := sanitizeAiForSync_keeps hkeeps.isRecord fallback
  refine ⟨next, hnext, hkeeps.trans hkeeps', hkey, ?_⟩
  rw [hnextTimeout, lookup_setProp, if_neg (by decide), lookup_setProp, if_pos rfl, htimeout]

/-! ### Calendars -/

theorem url_toJson (calendar : ExternalCalendar) : prop (some calendar.toJson) "url" = some (.str calendar.url) := by
  simp [ExternalCalendar.toJson, lookup]

section
variable [Runtime]

/-- The calendars that are not local files. -/
def remoteCalendars (v : Option Json) : List Json :=
  ((v.bind Json.asArr?).getD []).filter fun item => !(asStr? (prop (some item) "url")).any isLocalUrl

/-- Those of the local files come after the others. -/
theorem mergeCalendarSources_entries (items : List Json) (fallback : Option Json) :
    ∃ sources : List (String × ExternalCalendar), (∀ e ∈ sources, isLocalCalendarSource e.2 = true) ∧
      (mergeCalendarSources items fallback).entries =
        (JsMap.ofItems ExternalCalendar.id ((calendarsOf items).filter fun c => !isLocalCalendarSource c)).entries ++
          sources := by
  unfold mergeCalendarSources
  dsimp only
  generalize JsMap.ofItems ExternalCalendar.id ((calendarsOf items).filter fun c => !isLocalCalendarSource c) = deduped
  have hlocal : ∀ c ∈ (calendarsOf ((fallback.bind Json.asArr?).getD [])).filter isLocalCalendarSource,
      isLocalCalendarSource c = true := fun c hc => (List.mem_filter.1 hc).2
  revert hlocal
  generalize (calendarsOf ((fallback.bind Json.asArr?).getD [])).filter isLocalCalendarSource = localSources
  intro hlocal
  induction localSources generalizing deduped with
  | nil => exact ⟨[], by simp, by simp⟩
  | cons source localSources ih =>
    rw [List.foldl_cons]
    split
    · exact ih deduped fun c hc => hlocal c (by simp [hc])
    · rename_i habsent
      obtain ⟨sources, hsources, hentries⟩ := ih (deduped.set source.id source) fun c hc => hlocal c (by simp [hc])
      rw [JsMap.get?_isSome_iff] at habsent
      have hset : (deduped.set source.id source).entries = deduped.entries ++ [(source.id, source)] :=
        JsMap.setEntry_of_notMem _ _ _ habsent
      refine ⟨(source.id, source) :: sources, ?_, ?_⟩
      · intro e he
        rcases List.mem_cons.1 he with rfl | he
        · exact hlocal source (by simp)
        · exact hsources e he
      · rw [hentries, hset, List.append_assoc]
        rfl

/-- The later list decides about the remote calendars: it is there, and it is empty or has one that is valid. -/
def DecidesCalendars (value : Option Json) : Prop :=
  ∃ items, value = some (.arr items) ∧
    (items = [] ∨ ∃ calendar ∈ calendarsOf items, isLocalCalendarSource calendar = false)

theorem remote_sanitizeExternalCalendars {value : Option Json} (h : DecidesCalendars value) :
    ∃ calendars, ∀ fallback, remoteCalendars (sanitizeExternalCalendars value fallback) = calendars := by
  obtain ⟨items, rfl, hitems⟩ := h
  refine ⟨((JsMap.ofItems ExternalCalendar.id ((calendarsOf items).filter fun c =>
    !isLocalCalendarSource c)).entries.map fun e => e.2.toJson).filter fun item =>
      !(asStr? (prop (some item) "url")).any isLocalUrl, ?_⟩
  intro fallback
  obtain ⟨sources, hsources, hentries⟩ := mergeCalendarSources_entries items fallback
  have hkept : (!items.isEmpty && (mergeCalendarSources items fallback).entries.isEmpty && truthy fallback) =
      false := by
    rcases hitems with rfl | ⟨calendar, hmem, hremote⟩
    · rfl
    · have hcalendar : calendar ∈ (calendarsOf items).filter fun c => !isLocalCalendarSource c :=
        List.mem_filter.2 ⟨hmem, by simp [hremote]⟩
      have hnonempty := JsMap.entries_ofItems_ne_nil ExternalCalendar.id hcalendar
      rw [hentries]
      simp [hnonempty]
  have hnone : (sources.map fun e => e.2.toJson).filter (fun item =>
      !(asStr? (prop (some item) "url")).any isLocalUrl) = [] := by
    rw [List.filter_eq_nil_iff]
    intro item hitem
    obtain ⟨e, he, rfl⟩ := List.mem_map.1 hitem
    have hsource : isLocalUrl e.2.url = true := hsources e he
    simp [url_toJson, Json.asStr?, hsource]
  unfold sanitizeExternalCalendars
  dsimp only
  rw [hkept, hentries]
  simp only [Bool.false_eq_true, if_false, remoteCalendars, Option.bind_some, Json.asArr?, Option.getD_some,
    List.map_append, List.filter_append, hnone, List.append_nil]

end

end Mindwtr.Sync
