import Mindwtr.Sync.RemotePayload

/-!
# What belongs to the device does not show

Two documents that differ in what belongs to their device only are sent as the same document, and so have the same
fingerprint (`remote_noninterference`). There is one exception: a live file that no cloud key names and that is
missing on one of the devices is sent as a tombstone by that device (`missing_file_shows`), so both devices have to
agree on which of these files are missing.

The proof follows the document: one lemma for each part the sanitizer rewrites.
-/

namespace Mindwtr.Sync

open Mindwtr.Js

/-! ### Documents that differ in device-local data -/

/-- The same attachment with another file state. -/
def SameButDeviceState (a b : Attachment) : Prop :=
  a = b ∨ (a.kind = some (.str "file") ∧ b = { a with
    uri := b.uri, localStatus := b.localStatus, contentMtimeMs := b.contentMtimeMs, contentSize := b.contentSize,
    pendingContentUpload := b.pendingContentUpload })

/-- They are missing on both devices or on neither, where nothing else could be fetched. -/
def SameMissing (ownerDeleted : Bool) (a b : Attachment) : Prop :=
  a.kind = some (.str "file") → truthy a.deletedAt = false → ownerDeleted = false →
    hasNonEmptyValue a.cloudKey = false →
    (a.localStatus = some (.str "missing") ↔ b.localStatus = some (.str "missing"))

abbrev AttachmentRelation := Bool → Attachment → Attachment → Prop

structure SameTask (rel : AttachmentRelation) (a b : Task) : Prop where
  fields : b = { a with attachments := b.attachments }
  attachments : Option.Rel (List.Forall₂ (rel (truthy a.deletedAt))) a.attachments b.attachments

structure SameProject (rel : AttachmentRelation) (a b : Project) : Prop where
  fields : b = { a with attachments := b.attachments }
  attachments : Option.Rel (List.Forall₂ (rel (truthy a.deletedAt))) a.attachments b.attachments

/-- Another API key, and another model path where there is a speech record to hold it. -/
def withDeviceSecrets (apiKey offlineModelPath : Option Json) (ai : Record) : Record :=
  let ai := setProp "apiKey" apiKey ai
  match lookup "speechToText" ai with
  | some (.obj speechToText) =>
    setProp "speechToText" (some (.obj (setProp "offlineModelPath" offlineModelPath speechToText))) ai
  | _ => ai

def SameAssistant (a b : Option Json) : Prop :=
  a = b ∨ ∃ ai apiKey path, a = some (.obj ai) ∧ b = some (.obj (withDeviceSecrets apiKey path ai))

section
variable [Runtime]

/-- A calendar of a local file. -/
def isLocalCalendar (item : Json) : Bool :=
  match prop (some item) "url" with
  | some (.str url) => isLocalUrl url
  | _ => false

/-- The same calendars but for those of local files. -/
def SameCalendars (a b : Option Json) : Prop :=
  a = b ∨ ∃ items items', a = some (.arr items) ∧ b = some (.arr items') ∧
    items.filter (fun item => !isLocalCalendar item) = items'.filter fun item => !isLocalCalendar item

/-- The settings the groups in sync share. Everything else may differ: `others`, the groups that are not in sync,
and of the preferences the ones that are no synced field. -/
structure SameSyncedSettings (a b : DocumentSettings) : Prop where
  preferences : b.syncPreferences = a.syncPreferences
  preferencesUpdatedAt : b.syncPreferencesUpdatedAt = a.syncPreferencesUpdatedAt
  appearance : isOptedIn a.syncPreferences .appearance = true →
    b.theme = a.theme ∧ b.appearance = a.appearance ∧ b.keybindingStyle = a.keybindingStyle
  language : isOptedIn a.syncPreferences .language = true →
    b.language = a.language ∧ b.weekStart = a.weekStart ∧ b.dateFormat = a.dateFormat ∧ b.timeFormat = a.timeFormat
  gtd : isSettingsSyncGroupEnabled a.syncPreferences .gtd = true →
    (∀ key ∈ gtdSyncedFieldKeys, prop b.gtd key = prop a.gtd key) ∧
    (∀ key ∈ gtdSyncedInboxProcessingFieldKeys,
      prop (prop b.gtd "inboxProcessing") key = prop (prop a.gtd "inboxProcessing") key) ∧
    (∀ key ∈ gtdSyncedFeatureFieldKeys, prop b.features key = prop a.features key) ∧
    b.quickAddAutoClean = a.quickAddAutoClean ∧ b.markdownEditorAssist = a.markdownEditorAssist
  externalCalendars : isOptedIn a.syncPreferences .externalCalendars = true →
    SameCalendars a.externalCalendars b.externalCalendars
  savedFilters : isOptedIn a.syncPreferences .savedFilters = true → b.savedFilters = a.savedFilters
  ai : isOptedIn a.syncPreferences .ai = true → SameAssistant a.ai b.ai

/-- Two documents whose attachments are related and whose device-local settings may differ. -/
structure SameDocument (rel : AttachmentRelation) (a b : AppData) : Prop where
  tasks : List.Forall₂ (SameTask rel) a.tasks b.tasks
  projects : List.Forall₂ (SameProject rel) a.projects b.projects
  sections : b.sections = a.sections
  areas : b.areas = a.areas
  people : b.people = a.people
  settings : SameSyncedSettings a.settings b.settings

/-- Two documents that differ in device-local data only. -/
def DifferInDeviceData (a b : AppData) : Prop := SameDocument (fun _ x y => SameButDeviceState x y) a b

/-- The same, and the devices agree on which files without a cloud key are missing. -/
def DifferInDeviceDataOnly (a b : AppData) : Prop :=
  SameDocument (fun ownerDeleted x y => SameButDeviceState x y ∧ SameMissing ownerDeleted x y) a b

end

/-! ### Attachments -/

theorem stripDeviceState_eq {a b : Attachment} (h : SameButDeviceState a b) :
    stripDeviceState b = stripDeviceState a := by
  rcases h with rfl | ⟨-, h⟩
  · rfl
  · rw [h]
    rfl

theorem kind_eq {a b : Attachment} (h : SameButDeviceState a b) : b.kind = a.kind := by
  rcases h with rfl | ⟨-, h⟩
  · rfl
  · rw [h]

theorem neverReachesRemote_eq {ownerDeleted : Bool} {a b : Attachment} (hkind : a.kind = some (.str "file"))
    (h : SameButDeviceState a b) (hmissing : SameMissing ownerDeleted a b) :
    neverReachesRemote ownerDeleted b = neverReachesRemote ownerDeleted a := by
  have hfields : b.deletedAt = a.deletedAt ∧ b.cloudKey = a.cloudKey := by
    rcases h with rfl | ⟨-, h⟩
    · exact ⟨rfl, rfl⟩
    · rw [h]
      exact ⟨rfl, rfl⟩
  rw [neverReachesRemote, neverReachesRemote, hfields.1, hfields.2]
  by_cases hshown : truthy a.deletedAt = false ∧ hasNonEmptyValue a.cloudKey = false ∧ ownerDeleted = false
  · obtain ⟨hlive, hkey, howner⟩ := hshown
    have hsame : (b.localStatus == some (.str "missing")) = (a.localStatus == some (.str "missing")) := by
      rw [Bool.eq_iff_iff, beq_iff_eq, beq_iff_eq]
      exact (hmissing hkind hlive howner hkey).symm
    rw [hsame]
  · cases hlive : truthy a.deletedAt with
    | true => simp
    | false =>
      cases hkey : hasNonEmptyValue a.cloudKey with
      | true => simp
      | false =>
        cases ownerDeleted with
        | true => simp
        | false => exact absurd ⟨hlive, hkey, rfl⟩ hshown

theorem sanitizeAttachment_eq {ownerDeleted : Bool} {a b : Attachment} (h : SameButDeviceState a b)
    (hmissing : SameMissing ownerDeleted a b) :
    sanitizeAttachment ownerDeleted b = sanitizeAttachment ownerDeleted a := by
  by_cases hkind : a.kind = some (.str "file")
  · have hupdated : b.updatedAt = a.updatedAt := by
      rcases h with rfl | ⟨-, h⟩
      · rfl
      · rw [h]
    rw [sanitizeAttachment, sanitizeAttachment, kind_eq h, stripDeviceState_eq h, neverReachesRemote_eq hkind h hmissing,
      hupdated, if_neg (not_not.2 hkind), if_neg (not_not.2 hkind)]
  · rcases h with rfl | ⟨hfile, -⟩
    · rfl
    · exact absurd hfile hkind

theorem map_eq_of_forall₂ {α β : Type} {f : α → β} {rel : α → α → Prop} (hf : ∀ a b, rel a b → f b = f a)
    {l l' : List α} (h : List.Forall₂ rel l l') : l'.map f = l.map f := by
  induction h with
  | nil => rfl
  | cons hab _ ih => rw [List.map_cons, List.map_cons, hf _ _ hab, ih]

abbrev DeviceOnly : AttachmentRelation :=
  fun ownerDeleted x y => SameButDeviceState x y ∧ SameMissing ownerDeleted x y

theorem sanitizeAttachments_eq {ownerDeleted : Bool} {a b : Option (List Attachment)}
    (h : Option.Rel (List.Forall₂ (DeviceOnly ownerDeleted)) a b) :
    sanitizeAttachments b ownerDeleted = sanitizeAttachments a ownerDeleted := by
  cases h with
  | none => rfl
  | some h =>
    simp only [sanitizeAttachments, Option.map_some]
    rw [map_eq_of_forall₂ (fun x y hxy => sanitizeAttachment_eq hxy.1 hxy.2) h]

theorem sanitizeTask_eq {a b : Task} (h : SameTask DeviceOnly a b) : sanitizeTask b = sanitizeTask a := by
  obtain ⟨hfields, hattachments⟩ := h
  generalize b.attachments = attachments at hfields hattachments
  subst hfields
  by_cases hpurged : truthy a.purgedAt = true
  · simp only [sanitizeTask, compactPurgedTaskTombstone, hpurged, if_true]
  · simp only [sanitizeTask, if_neg hpurged, sanitizeAttachments_eq hattachments]

theorem sanitizeProject_eq {a b : Project} (h : SameProject DeviceOnly a b) :
    sanitizeProject b = sanitizeProject a := by
  obtain ⟨hfields, hattachments⟩ := h
  generalize b.attachments = attachments at hfields hattachments
  subst hfields
  by_cases hpurged : truthy a.purgedAt = true
  · simp only [sanitizeProject, compactPurgedProjectTombstone, hpurged, if_true]
  · simp only [sanitizeProject, if_neg hpurged, sanitizeAttachments_eq hattachments]

theorem purgedAtByProjectId_eq {a b : List Project} (h : List.Forall₂ (SameProject DeviceOnly) a b) :
    purgedAtByProjectId b = purgedAtByProjectId a := by
  rw [purgedAtByProjectId, purgedAtByProjectId]
  congr 1
  induction h with
  | nil => rfl
  | @cons x y _ _ hxy _ ih =>
    have hsame : y.id = x.id ∧ y.purgedAt = x.purgedAt := by
      rw [hxy.fields]
      exact ⟨rfl, rfl⟩
    rw [List.filterMap_cons, List.filterMap_cons, hsame.1, hsame.2, ih]

theorem sections_eq {a b : AppData} (hsections : b.sections = a.sections)
    (h : List.Forall₂ (SameProject DeviceOnly) a.projects b.projects) :
    compactSectionsForPurgedProjects b.sections b.projects false =
      compactSectionsForPurgedProjects a.sections a.projects false := by
  rw [compactSectionsForPurgedProjects, compactSectionsForPurgedProjects, purgedAtByProjectId_eq h, hsections]

/-! ### Settings -/

@[simp] theorem recordOf_obj (record : Record) : recordOf (some (.obj record)) = record := rfl

theorem withDeviceSecrets_speech {apiKey path : Option Json} {ai speechToText : Record}
    (h : lookup "speechToText" ai = some (.obj speechToText)) :
    withDeviceSecrets apiKey path ai =
      setProp "speechToText" (some (.obj (setProp "offlineModelPath" path speechToText))) (setProp "apiKey" apiKey ai) := by
  have hlookup : lookup "speechToText" (setProp "apiKey" apiKey ai) = some (.obj speechToText) := by
    rw [lookup_setProp, if_neg (by decide), h]
  simp only [withDeviceSecrets, hlookup]

theorem withDeviceSecrets_no_speech {apiKey path : Option Json} {ai : Record}
    (h : ∀ speechToText, lookup "speechToText" ai ≠ some (.obj speechToText)) :
    withDeviceSecrets apiKey path ai = setProp "apiKey" apiKey ai := by
  have hlookup : lookup "speechToText" (setProp "apiKey" apiKey ai) = lookup "speechToText" ai := by
    rw [lookup_setProp, if_neg (by decide)]
  rw [withDeviceSecrets, hlookup]
  split
  · rename_i speechToText hspeech
    exact absurd hspeech (h speechToText)
  · rfl

/-- Neither the key nor the model path shows in the synced copy. -/
theorem sanitizeAi_withDeviceSecrets (apiKey path : Option Json) (ai : Record) :
    sanitizeAi (some (.obj (withDeviceSecrets apiKey path ai))) = sanitizeAi (some (.obj ai)) := by
  by_cases hspeech : ∃ speechToText, lookup "speechToText" ai = some (.obj speechToText)
  · obtain ⟨speechToText, hspeech⟩ := hspeech
    rw [withDeviceSecrets_speech hspeech]
    simp only [sanitizeAi, recordOf_obj, lookup_setProp, if_true, hspeech, truthy_some, Json.truthy,
      setProp_none_setProp]
    rw [setProp_none_comm (by decide), setProp_none_setProp, setProp_some_setProp_some]
  · rw [withDeviceSecrets_no_speech fun speechToText h => hspeech ⟨speechToText, h⟩]
    have hlookup : lookup "speechToText" (setProp "apiKey" apiKey ai) = lookup "speechToText" ai := by
      rw [lookup_setProp, if_neg (by decide)]
    unfold sanitizeAi
    rw [recordOf_obj, recordOf_obj, hlookup, setProp_none_setProp]

theorem sanitizeAi_eq {a b : Option Json} (h : SameAssistant a b) : sanitizeAi b = sanitizeAi a := by
  rcases h with rfl | ⟨ai, apiKey, path, rfl, rfl⟩
  · rfl
  · exact sanitizeAi_withDeviceSecrets apiKey path ai

theorem truthy_assistant_eq {a b : Option Json} (h : SameAssistant a b) : truthy b = truthy a := by
  rcases h with rfl | ⟨ai, apiKey, path, rfl, rfl⟩
  · rfl
  · rfl

theorem pickProps_eq {keys : List String} {f g : String → Option Json} (h : ∀ key ∈ keys, g key = f key) :
    pickProps keys g = pickProps keys f := by
  rw [pickProps, pickProps]
  apply List.filterMap_congr
  intro key hkey
  rw [h key hkey]

theorem getGtdSyncSnapshot_eq {a b : AppSettings} (hgtd : ∀ key ∈ gtdSyncedFieldKeys, prop b.gtd key = prop a.gtd key)
    (hinbox : ∀ key ∈ gtdSyncedInboxProcessingFieldKeys,
      prop (prop b.gtd "inboxProcessing") key = prop (prop a.gtd "inboxProcessing") key)
    (hfeatures : ∀ key ∈ gtdSyncedFeatureFieldKeys, prop b.features key = prop a.features key)
    (hclean : b.quickAddAutoClean = a.quickAddAutoClean) (hassist : b.markdownEditorAssist = a.markdownEditorAssist) :
    getGtdSyncSnapshot b = getGtdSyncSnapshot a := by
  simp only [getGtdSyncSnapshot, pickProps_eq hgtd, pickProps_eq hinbox, pickProps_eq hfeatures, hclean, hassist]

theorem whenOn_eq {on : Bool} {a b : Option Json} (h : on = true → b = a) : whenOn on b = whenOn on a := by
  cases on with
  | false => rfl
  | true => rw [h rfl]

section
variable [Runtime]

/-- The calendars of local files do not show. -/
theorem sentCalendars_filter (items : List Json) :
    sentCalendars (items.filter fun item => !isLocalCalendar item) = sentCalendars items := by
  induction items with
  | nil => rfl
  | cons item items ih =>
    cases hlocal : isLocalCalendar item with
    | false =>
      rw [List.filter_cons_of_pos (by simp [hlocal]), sentCalendars, sentCalendars, ih]
    | true =>
      have hread : isLocalCalendarSourceUrl item = .ok true := by
        unfold isLocalCalendar at hlocal
        unfold isLocalCalendarSourceUrl
        split at hlocal
        · rename_i url hurl
          simp only [hurl, hlocal]
        · cases hlocal
      rw [List.filter_cons_of_neg (by simp [hlocal]), ih, sentCalendars, hread]
      cases sentCalendars items <;> rfl

theorem sanitizeCalendars_eq {a b : Option Json} (h : SameCalendars a b) :
    sanitizeCalendars b = sanitizeCalendars a := by
  rcases h with rfl | ⟨items, items', rfl, rfl, hsame⟩
  · rfl
  · rw [sanitizeCalendars, sanitizeCalendars, ← sentCalendars_filter items', ← hsame, sentCalendars_filter]

theorem syncedSettings_eq (now : String) {a b : DocumentSettings} (h : SameSyncedSettings a b)
    (externalCalendars : Option Json) :
    syncedSettings now b externalCalendars = syncedSettings now a externalCalendars := by
  have hsnapshot (hon : isSettingsSyncGroupEnabled a.syncPreferences .gtd = true) :
      getGtdSyncSnapshot b.toAppSettings = getGtdSyncSnapshot a.toAppSettings := by
    obtain ⟨hgtd, hinbox, hfeatures, hclean, hassist⟩ := h.gtd hon
    exact getGtdSyncSnapshot_eq hgtd hinbox hfeatures hclean hassist
  have hai (hon : isOptedIn a.syncPreferences .ai = true) :
      (if truthy b.ai then some (sanitizeAi b.ai) else none) = if truthy a.ai then some (sanitizeAi a.ai) else none := by
    rw [truthy_assistant_eq (h.ai hon), sanitizeAi_eq (h.ai hon)]
  have hfilters (hon : isOptedIn a.syncPreferences .savedFilters = true) :
      some (savedFiltersJson (normalizeSavedFilters now b.savedFilters)) =
        some (savedFiltersJson (normalizeSavedFilters now a.savedFilters)) := by
    rw [h.savedFilters hon]
  simp only [syncedSettings, remotePreferences, remotePreferencesUpdatedAt, h.preferences, h.preferencesUpdatedAt,
    whenOn_eq fun hon => (h.appearance hon).1, whenOn_eq fun hon => (h.appearance hon).2.1,
    whenOn_eq fun hon => (h.appearance hon).2.2, whenOn_eq fun hon => (h.language hon).1,
    whenOn_eq fun hon => (h.language hon).2.1, whenOn_eq fun hon => (h.language hon).2.2.1,
    whenOn_eq fun hon => (h.language hon).2.2.2, whenOn_eq hai,
    whenOn_eq fun hon => congrArg (fun snapshot => nonEmptyRecord snapshot.gtd) (hsnapshot hon),
    whenOn_eq fun hon => congrArg (fun snapshot => nonEmptyRecord snapshot.features) (hsnapshot hon),
    whenOn_eq fun hon => congrArg GtdSyncSnapshot.quickAddAutoClean (hsnapshot hon),
    whenOn_eq fun hon => congrArg GtdSyncSnapshot.markdownEditorAssist (hsnapshot hon), whenOn_eq hfilters]

theorem sanitizeSettings_eq (now : String) {a b : DocumentSettings} (h : SameSyncedSettings a b) :
    sanitizeSettingsForRemote now b = sanitizeSettingsForRemote now a := by
  have hcalendars : (if isOptedIn a.syncPreferences .externalCalendars then sanitizeCalendars b.externalCalendars
      else .ok none) = if isOptedIn a.syncPreferences .externalCalendars then sanitizeCalendars a.externalCalendars
      else .ok none := by
    split_ifs with hon
    · exact sanitizeCalendars_eq (h.externalCalendars hon)
    · rfl
  rw [sanitizeSettingsForRemote, sanitizeSettingsForRemote, h.preferences, hcalendars]
  congr 1
  funext externalCalendars
  exact syncedSettings_eq now h externalCalendars

/-- Two documents that differ in device-local data only are sent as one, at any time. -/
theorem remote_noninterference (now : String) {a b : AppData} (h : DifferInDeviceDataOnly a b) :
    sanitizeAppDataForRemote now a = sanitizeAppDataForRemote now b ∧
      computeSyncPayloadFingerprint now a = computeSyncPayloadFingerprint now b := by
  have hsame : sanitizeAppDataForRemote now a = sanitizeAppDataForRemote now b := by
    rw [sanitizeAppDataForRemote, sanitizeAppDataForRemote, sanitizeSettings_eq now h.settings,
      map_eq_of_forall₂ (fun x y hxy => sanitizeTask_eq hxy) h.tasks,
      map_eq_of_forall₂ (fun x y hxy => sanitizeProject_eq hxy) h.projects,
      sections_eq h.sections h.projects, h.areas, h.people]
  refine ⟨hsame, ?_⟩
  rw [computeSyncPayloadFingerprint, computeSyncPayloadFingerprint, hsame]

end

/-! ### A file that is missing on one device -/

def paperFile (uri localStatus : String) : Attachment where
  id := "a1"
  kind := some (.str "file")
  updatedAt := some (.str "2026-01-01T00:00:00.000Z")
  uri := some (.str uri)
  localStatus := some (.str localStatus)

def noSettings : DocumentSettings :=
  ⟨⟨none, none, none, none, none, none, none, none, none, none, none, none, none, none, none, none⟩, []⟩

/-- A device whose only task has this file, and with this file filter. -/
def deviceDocument (file : Attachment) (filters : Json) : AppData where
  tasks := [{ id := "t1", attachments := some [file] }]
  projects := []
  sections := []
  areas := []
  people := none
  settings := { noSettings with others := [("filters", filters)] }

theorem sameSettings_deviceDocument (a b : Attachment) (f g : Json) :
    @SameSyncedSettings isoRuntime (deviceDocument a f).settings (deviceDocument b g).settings :=
  let _ := isoRuntime
  ⟨rfl, rfl, fun _ => ⟨rfl, rfl, rfl⟩, fun _ => ⟨rfl, rfl, rfl, rfl⟩,
    fun _ => ⟨fun _ _ => rfl, fun _ _ => rfl, fun _ _ => rfl, rfl, rfl⟩, fun _ => .inl rfl, fun _ => rfl,
    fun _ => .inl rfl⟩

/-- The device without the file sends a tombstone, the other one sends the file. -/
theorem missing_file_shows :
    let _ := isoRuntime
    let here := deviceDocument (paperFile "/here/paper.pdf" "available") .null
    let there := deviceDocument (paperFile "" "missing") .null
    DifferInDeviceData here there ∧
      sanitizeAppDataForRemote "2026-01-02T00:00:00.000Z" here ≠
        sanitizeAppDataForRemote "2026-01-02T00:00:00.000Z" there := by
  intro _ here there
  constructor
  · exact ⟨.cons ⟨rfl, .some (.cons (.inr ⟨rfl, rfl⟩) .nil)⟩ .nil, .nil, rfl, rfl, rfl,
      sameSettings_deviceDocument _ _ _ _⟩
  · intro heq
    have htasks := congrArg (Except.map AppData.tasks) heq
    revert htasks
    decide +kernel

/-- Another place of the file and another filter do not show. -/
theorem remote_noninterference_paper :
    let _ := isoRuntime
    let here := deviceDocument (paperFile "/here/paper.pdf" "available") (.str "today")
    let there := deviceDocument (paperFile "" "downloading") .null
    computeSyncPayloadFingerprint "2026-01-02T00:00:00.000Z" here =
      computeSyncPayloadFingerprint "2026-01-02T00:00:00.000Z" there :=
  let _ := isoRuntime
  (remote_noninterference _ ⟨.cons ⟨rfl, .some (.cons ⟨.inr ⟨rfl, rfl⟩, by
    intro _ _ _ _
    decide⟩ .nil)⟩ .nil, .nil, rfl, rfl, rfl, sameSettings_deviceDocument _ _ _ _⟩).2

end Mindwtr.Sync
