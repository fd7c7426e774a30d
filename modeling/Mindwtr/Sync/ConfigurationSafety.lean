import Mindwtr.Sync.Configuration

/-!
# The configuration transaction keeps the configurations apart

At every point of `commitProvenSyncConfiguration` the stored configuration is disabled, the one before the
transaction or the candidate's (`sync_configuration_transactional`). A commit leaves the candidate's, and an
error other than `SyncConfigurationDisabledError` the one before. The exception is a secret that could not
be read while its slot was otherwise empty: the rollback may have emptied it (`unreadable_secret_emptied`).
-/

namespace Mindwtr.Sync

open Mindwtr.Js Mindwtr.Lib Commit Transaction

/-! ### What is stored and what a snapshot shows -/

/-- The configuration that a commit leaves. -/
def candidateConfiguration (platform : Platform) (candidate : SyncConfigurationCandidate)
    (base : StoredSyncConfiguration) : Option StoredSyncConfiguration :=
  match candidate.backend with
  | .file =>
    some { base with
      backend := .file
      syncPath := platform.storedPath (candidate.syncPath.getD "")
      syncPathBookmark := candidate.syncPathBookmark }
  | .webdav =>
    candidate.webdav.map fun webdav =>
      let password := candidatePassword webdav base.webdav.password
      { base with
        backend := .webdav
        webdav :=
          { url := webdav.url
            username := webdav.username
            password := some password
            hasPassword := some (password != "")
            allowInsecureHttp := webdav.allowInsecureHttp.getD base.webdav.allowInsecureHttp
            allowWeakFingerprint := webdav.allowWeakFingerprint.getD base.webdav.allowWeakFingerprint } }
  | .cloud =>
    match candidate.cloudProvider.getD .selfhosted with
    | .selfhosted =>
      candidate.cloud.map fun cloud =>
        { base with
          backend := .cloud
          cloudProvider := .selfhosted
          cloud :=
            { url := cloud.url
              token := some (candidateToken cloud base.cloud.token)
              allowInsecureHttp := cloud.allowInsecureHttp.getD base.cloud.allowInsecureHttp
              rememberToken := cloud.rememberToken.getD base.cloud.rememberToken } }
    | .dropbox => some { base with backend := .cloud, cloudProvider := .dropbox }
  | .off | .cloudkit =>
    some { base with
      backend := candidate.backend, cloudProvider := candidate.cloudProvider.getD base.cloudProvider }

/-- The slot is empty but for a secret. -/
def EmptyWebDav (candidate : SyncConfigurationCandidate) (base : StoredSyncConfiguration) : Prop :=
  candidate.backend = .webdav ∧ base.backend ≠ .webdav ∧ isBlank base.webdav.url = true ∧
    isBlank base.webdav.username = true

def EmptyCloud (candidate : SyncConfigurationCandidate) (base : StoredSyncConfiguration) : Prop :=
  candidate.backend = .cloud ∧ ¬ (base.backend = .cloud ∧ base.cloudProvider = .selfhosted) ∧
    isBlank base.cloud.url = true ∧ base.cloud.rememberToken = false

/-- The configuration of before, up to the secret of a slot that is otherwise empty. -/
structure Restored (candidate : SyncConfigurationCandidate) (base s : StoredSyncConfiguration) : Prop where
  backend : s.backend = base.backend
  syncPath : s.syncPath = base.syncPath
  syncPathBookmark : s.syncPathBookmark = base.syncPathBookmark
  cloudProvider : s.cloudProvider = base.cloudProvider
  webdav : s.webdav = base.webdav ∨ EmptyWebDav candidate base ∧
    s.webdav = { base.webdav with password := s.webdav.password, hasPassword := s.webdav.hasPassword }
  cloud : s.cloud = base.cloud ∨ EmptyCloud candidate base ∧ s.cloud = { base.cloud with token := s.cloud.token }

structure ShowsWebDav (snapshot : PersistedWebDavConfiguration) (webdav : StoredWebDav) : Prop where
  url : snapshot.url = webdav.url
  username : snapshot.username = webdav.username
  secret : snapshot.passwordAuthority = .known →
    snapshot.password = webdav.password ∧ snapshot.hasPassword = webdav.hasPassword
  allowInsecureHttp : snapshot.allowInsecureHttp = webdav.allowInsecureHttp
  allowWeakFingerprint : snapshot.allowWeakFingerprint = webdav.allowWeakFingerprint

structure ShowsCloud (snapshot : PersistedCloudConfiguration) (cloud : StoredCloud) : Prop where
  url : snapshot.url = cloud.url
  secret : snapshot.tokenAuthority = .known → snapshot.token = cloud.token
  allowInsecureHttp : snapshot.allowInsecureHttp = cloud.allowInsecureHttp
  rememberToken : snapshot.rememberToken = cloud.rememberToken

/-- The snapshot shows what is stored, but for opaque secrets. -/
structure Shows (snapshot : PersistedSyncConfiguration) (s : StoredSyncConfiguration) : Prop where
  backend : snapshot.backend = s.backend
  syncPath : snapshot.syncPath = s.syncPath
  syncPathBookmark : snapshot.syncPathBookmark = s.syncPathBookmark
  webdav : ShowsWebDav snapshot.webdav s.webdav
  cloudProvider : snapshot.cloudProvider = s.cloudProvider
  cloud : ShowsCloud snapshot.cloud s.cloud

variable {platform : Platform} {candidate : SyncConfigurationCandidate} {base s t : StoredSyncConfiguration}
  {previous expected : PersistedSyncConfiguration} {touched : TouchedTransportFields}

theorem shows_snapshot (s : StoredSyncConfiguration) (passwordReadable tokenReadable : Bool)
    (hasPassword : Option Bool) : Shows (s.snapshot passwordReadable tokenReadable hasPassword) s := by
  refine ⟨rfl, rfl, rfl, ⟨rfl, rfl, ?_, rfl, rfl⟩, rfl, ⟨rfl, ?_, rfl, rfl⟩⟩
  · cases passwordReadable with
    | false => nofun
    | true => exact fun _ => ⟨rfl, rfl⟩
  · cases tokenReadable with
    | false => nofun
    | true => exact fun _ => rfl

theorem showsWebDav_of_matches {actual expected : PersistedWebDavConfiguration} {webdav : StoredWebDav}
    (h : ShowsWebDav actual webdav) (hmatch : webdavMatches actual expected = true) :
    ShowsWebDav expected webdav := by
  simp only [webdavMatches, webdavSecretMatches, Bool.and_eq_true, Bool.or_eq_true, beq_iff_eq] at hmatch
  obtain ⟨⟨⟨⟨hurl, husername⟩, hsecret⟩, hinsecure⟩, hweak⟩ := hmatch
  refine ⟨hurl ▸ h.url, husername ▸ h.username, fun hknown => ?_, hinsecure ▸ h.allowInsecureHttp,
    hweak ▸ h.allowWeakFingerprint⟩
  rcases hsecret with hhidden | ⟨⟨hactual, hpassword⟩, hhas⟩
  · rw [hknown] at hhidden
    cases hhidden
  · exact hpassword ▸ hhas ▸ h.secret hactual

theorem showsCloud_of_matches {actual expected : PersistedCloudConfiguration} {cloud : StoredCloud}
    (h : ShowsCloud actual cloud) (hmatch : cloudMatches actual expected = true) : ShowsCloud expected cloud := by
  simp only [cloudMatches, cloudSecretMatches, Bool.and_eq_true, Bool.or_eq_true, beq_iff_eq] at hmatch
  obtain ⟨⟨⟨hurl, hsecret⟩, hinsecure⟩, hremember⟩ := hmatch
  refine ⟨hurl ▸ h.url, fun hknown => ?_, hinsecure ▸ h.allowInsecureHttp, hremember ▸ h.rememberToken⟩
  rcases hsecret with hhidden | ⟨hactual, htoken⟩
  · rw [hknown] at hhidden
    cases hhidden
  · exact htoken ▸ h.secret hactual

/-- What matches a snapshot of the store shows it too. -/
theorem shows_of_matches {actual expected : PersistedSyncConfiguration} (h : Shows actual s)
    (hmatch : configurationMatches actual expected = true) : Shows expected s := by
  simp only [configurationMatches, syncPathMatches, Bool.and_eq_true, beq_iff_eq] at hmatch
  obtain ⟨⟨⟨⟨hbackend, hpath, hbookmark⟩, hprovider⟩, hwebdav⟩, hcloud⟩ := hmatch
  exact ⟨hbackend ▸ h.backend, hpath ▸ h.syncPath, hbookmark ▸ h.syncPathBookmark,
    showsWebDav_of_matches h.webdav hwebdav, hprovider ▸ h.cloudProvider, showsCloud_of_matches h.cloud hcloud⟩

/-- Only touched fields differ from the base. -/
structure Untouched (touched : TouchedTransportFields) (base s : StoredSyncConfiguration) : Prop where
  syncPath : touched.syncPath = false →
    s.syncPath = base.syncPath ∧ s.syncPathBookmark = base.syncPathBookmark
  webdav : touched.webdav = false → s.webdav = base.webdav
  cloud : touched.cloud = false → s.cloud = base.cloud
  cloudProvider : touched.cloudProvider = false → s.cloudProvider = base.cloudProvider

theorem untouched_refl (touched : TouchedTransportFields) (base : StoredSyncConfiguration) :
    Untouched touched base base := ⟨fun _ => ⟨rfl, rfl⟩, fun _ => rfl, fun _ => rfl, fun _ => rfl⟩

theorem Untouched.setBackend (h : Untouched touched base s) (backend : SyncBackend) :
    Untouched touched base { s with backend } := ⟨h.syncPath, h.webdav, h.cloud, h.cloudProvider⟩

/-- Opaque secrets are touched only for the candidate. -/
structure Owned (candidate : SyncConfigurationCandidate) (previous : PersistedSyncConfiguration)
    (touched : TouchedTransportFields) : Prop where
  webdav : touched.webdav = true → candidate.backend = .webdav ∨ previous.webdav.passwordAuthority = .known
  cloud : touched.cloud = true → candidate.backend = .cloud ∨ previous.cloud.tokenAuthority = .known

/-- What every point of the transaction has. -/
def Consistent (platform : Platform) (candidate : SyncConfigurationCandidate) (base s : StoredSyncConfiguration) :
    Prop :=
  s.backend ≠ .off → Restored candidate base s ∨ candidateConfiguration platform candidate base = some s

theorem consistent_off (h : s.backend = .off) : Consistent platform candidate base s := fun hne => absurd h hne

theorem restored_refl (candidate : SyncConfigurationCandidate) (base : StoredSyncConfiguration) :
    Restored candidate base base := ⟨rfl, rfl, rfl, rfl, .inl rfl, .inl rfl⟩

/-- What the rollback has established when none of its steps has failed. -/
structure RolledBack (previous : PersistedSyncConfiguration) (touched : TouchedTransportFields) : Prop where
  webdav : touched.webdav = true → knownPassword previous.webdav = none → cleanOpaqueWebDav previous = true
  cloud : touched.cloud = true → knownToken previous.cloud = none → cleanOpaqueCloud previous = true

theorem webdav_of_shows {snapshot : PersistedWebDavConfiguration} {w w' : StoredWebDav}
    (h : ShowsWebDav snapshot w) (h' : ShowsWebDav snapshot w') :
    w' = { w with password := w'.password, hasPassword := w'.hasPassword } ∧
      (snapshot.passwordAuthority = .known → w' = w) := by
  obtain ⟨url, username, password, hasPassword, insecure, weak⟩ := w
  obtain ⟨url', username', password', hasPassword', insecure', weak'⟩ := w'
  obtain rfl : url' = url := h'.url.symm.trans h.url
  obtain rfl : username' = username := h'.username.symm.trans h.username
  obtain rfl : insecure' = insecure := h'.allowInsecureHttp.symm.trans h.allowInsecureHttp
  obtain rfl : weak' = weak := h'.allowWeakFingerprint.symm.trans h.allowWeakFingerprint
  refine ⟨rfl, fun hknown => ?_⟩
  obtain rfl : password' = password := (h'.secret hknown).1.symm.trans (h.secret hknown).1
  obtain rfl : hasPassword' = hasPassword := (h'.secret hknown).2.symm.trans (h.secret hknown).2
  rfl

theorem cloud_of_shows {snapshot : PersistedCloudConfiguration} {c c' : StoredCloud} (h : ShowsCloud snapshot c)
    (h' : ShowsCloud snapshot c') :
    c' = { c with token := c'.token } ∧ (snapshot.tokenAuthority = .known → c' = c) := by
  obtain ⟨url, token, insecure, remember⟩ := c
  obtain ⟨url', token', insecure', remember'⟩ := c'
  obtain rfl : url' = url := h'.url.symm.trans h.url
  obtain rfl : insecure' = insecure := h'.allowInsecureHttp.symm.trans h.allowInsecureHttp
  obtain rfl : remember' = remember := h'.rememberToken.symm.trans h.rememberToken
  refine ⟨rfl, fun hknown => ?_⟩
  obtain rfl : token' = token := (h'.secret hknown).symm.trans (h.secret hknown)
  rfl

/-- A store that shows the disabled previous configuration needs only its backend back. -/
theorem restored_of_shows (hbase : Shows previous base) (hs : Shows { previous with backend := .off } s)
    (huntouched : Untouched touched base s) (howned : Owned candidate previous touched)
    (hrolled : RolledBack previous touched) : Restored candidate base { s with backend := base.backend } where
  backend := rfl
  syncPath := hs.syncPath.symm.trans hbase.syncPath
  syncPathBookmark := hs.syncPathBookmark.symm.trans hbase.syncPathBookmark
  cloudProvider := hs.cloudProvider.symm.trans hbase.cloudProvider
  webdav := by
    obtain ⟨hsame, hknown⟩ := webdav_of_shows hbase.webdav hs.webdav
    cases htouched : touched.webdav with
    | false => exact .inl (huntouched.webdav htouched)
    | true =>
      cases hauthority : previous.webdav.passwordAuthority with
      | known => exact .inl (hknown hauthority)
      | opaqueSecret =>
        have hclean := hrolled.webdav htouched (by simp [knownPassword, hauthority])
        have hcandidate := (howned.webdav htouched).resolve_right (by rw [hauthority]; nofun)
        simp only [cleanOpaqueWebDav, Bool.and_eq_true, bne_iff_ne, ne_eq] at hclean
        obtain ⟨⟨⟨hbackend, hurl⟩, husername⟩, -⟩ := hclean
        rw [hbase.backend] at hbackend
        rw [hbase.webdav.url] at hurl
        rw [hbase.webdav.username] at husername
        exact .inr ⟨⟨hcandidate, hbackend, hurl, husername⟩, hsame⟩
  cloud := by
    obtain ⟨hsame, hknown⟩ := cloud_of_shows hbase.cloud hs.cloud
    cases htouched : touched.cloud with
    | false => exact .inl (huntouched.cloud htouched)
    | true =>
      cases hauthority : previous.cloud.tokenAuthority with
      | known => exact .inl (hknown hauthority)
      | opaqueSecret =>
        have hclean := hrolled.cloud htouched (by simp [knownToken, hauthority])
        have hcandidate := (howned.cloud htouched).resolve_right (by rw [hauthority]; nofun)
        simp only [cleanOpaqueCloud, Bool.and_eq_true, Bool.not_eq_true', Bool.and_eq_false_iff,
          beq_eq_false_iff_ne] at hclean
        obtain ⟨⟨hbackend, hurl⟩, hremember⟩ := hclean
        rw [hbase.backend, hbase.cloudProvider] at hbackend
        rw [hbase.cloud.url] at hurl
        rw [hbase.cloud.rememberToken] at hremember
        refine .inr ⟨⟨hcandidate, ?_, hurl, hremember⟩, hsame⟩
        rintro ⟨hcloud, hprovider⟩
        rcases hbackend with h | h
        · exact h hcloud
        · exact h hprovider

/-! ### Calls -/

abbrev CommitPost (A : Type) := A → CommitProgress → StoredSyncConfiguration → Prop

section
variable {I : StoredSyncConfiguration → Prop} {R : CommitPost TransactionError}
  {v : CommitProgress}

/-- A call that does not change what is stored. -/
theorem safe_query (op : PortCall) {Q : CommitPost (PortAnswer op)}
    (hop : platform.perform op s = s) (hs : I s)
    (hok : ∀ choice, Q (platform.answer op choice s) v s) (hfail : ∀ failure, R (.failure failure) v s) :
    Safe platform.port I Q R (Commit.call op) v s := by
  refine safe_call op hs fun choice => ?_
  cases hfailure : choice.failure with
  | none =>
    simp only [Platform.port, hfailure, hop, ite_self]
    exact ⟨hs, hok choice⟩
  | some failure =>
    simp only [Platform.port, hfailure, hop, ite_self]
    exact ⟨hs, hfail failure⟩

theorem safe_read {requirements : SyncConfigurationSecretRequirements}
    {Q : CommitPost PersistedSyncConfiguration} (hs : I s)
    (hok : ∀ snapshot, Shows snapshot s → Q snapshot v s) (hfail : ∀ failure, R (.failure failure) v s) :
    Safe platform.port I Q R (Commit.call (.readConfiguration requirements)) v s := by
  have hanswer : ∀ choice, Q (platform.answer (.readConfiguration requirements) choice s) v s := fun choice =>
    hok _ (shows_snapshot s _ _ _)
  exact safe_query _ rfl hs hanswer hfail

/-- A call that changes what is stored, other than that of a path. -/
theorem safe_write (op : PortCall) {Q : CommitPost (PortAnswer op)}
    (hop : ∀ choice, Platform.refuses op choice = false) (hs : I s) (ht : I (platform.perform op s))
    (hok : ∀ choice, Q (platform.answer op choice s) v (platform.perform op s))
    (hfail : ∀ failure, R (.failure failure) v s ∧ R (.failure failure) v (platform.perform op s)) :
    Safe platform.port I Q R (Commit.call op) v s := by
  refine safe_call op hs fun choice => ?_
  cases hfailure : choice.failure with
  | none =>
    simp only [Platform.port, hfailure, hop choice, Bool.not_false, Bool.or_true, if_true]
    exact ⟨ht, hok choice⟩
  | some failure =>
    cases heffect : choice.effect with
    | false =>
      simp only [Platform.port, hfailure, heffect, Bool.false_eq_true, if_false]
      exact ⟨hs, (hfail failure).1⟩
    | true =>
      simp only [Platform.port, hfailure, heffect, if_true]
      exact ⟨ht, (hfail failure).2⟩

/-- A path that is refused may be stored all the same. -/
theorem safe_writeSyncPath {path : String} {bookmark : Option String}
    {Q : CommitPost SyncPathResult} (hs : I s)
    (ht : I (platform.perform (.writeSyncPath path bookmark) s))
    (hok : Q ⟨true, platform.storedPath path, none⟩ v (platform.perform (.writeSyncPath path bookmark) s))
    (hrefused : ∀ error, Q ⟨false, path, error⟩ v s ∧
      Q ⟨false, path, error⟩ v (platform.perform (.writeSyncPath path bookmark) s))
    (hfail : ∀ failure, R (.failure failure) v s ∧
      R (.failure failure) v (platform.perform (.writeSyncPath path bookmark) s)) :
    Safe platform.port I Q R (Commit.call (.writeSyncPath path bookmark)) v s := by
  refine safe_call (PortCall.writeSyncPath path bookmark) hs fun choice => ?_
  cases hfailure : choice.failure with
  | none =>
    cases hrefusal : choice.refusal with
    | none =>
      simp only [Platform.port, hfailure, Platform.refuses, Platform.answer, hrefusal, Option.isSome_none,
        Bool.not_false, Bool.or_true, if_true]
      exact ⟨ht, hok⟩
    | some error =>
      cases heffect : choice.effect with
      | false =>
        simp only [Platform.port, hfailure, heffect, Platform.refuses, Platform.answer, hrefusal,
          Option.isSome_some, Bool.not_true, Bool.or_false, Bool.false_eq_true, if_false]
        exact ⟨hs, (hrefused error).1⟩
      | true =>
        simp only [Platform.port, hfailure, heffect, Platform.answer, hrefusal, Bool.true_or, if_true]
        exact ⟨ht, (hrefused error).2⟩
  | some failure =>
    cases heffect : choice.effect with
    | false =>
      simp only [Platform.port, hfailure, heffect, Bool.false_eq_true, if_false]
      exact ⟨hs, (hfail failure).1⟩
    | true =>
      simp only [Platform.port, hfailure, heffect, if_true]
      exact ⟨ht, (hfail failure).2⟩

theorem safe_writeCheckedSyncPath {path fallback : String} {bookmark : Option String}
    {Q : CommitPost SyncPathResult} (hs : I s)
    (ht : I (platform.perform (.writeSyncPath path bookmark) s))
    (hok : Q ⟨true, platform.storedPath path, none⟩ v (platform.perform (.writeSyncPath path bookmark) s))
    (hfail : ∀ error, R error v s ∧ R error v (platform.perform (.writeSyncPath path bookmark) s)) :
    Safe platform.port I Q R (writeCheckedSyncPath path bookmark fallback) v s := by
  have hcall : Safe platform.port I (fun result v t =>
      if result.success then Q result v t else ∀ error, R error v t) R
      (Commit.call (.writeSyncPath path bookmark)) v s := by
    refine safe_writeSyncPath hs ht hok (fun error => ?_) fun failure => hfail (.failure failure)
    exact ⟨fun error => (hfail error).1, fun error => (hfail error).2⟩
  refine safe_bind hcall fun result v t hinv hresult => ?_
  have hcheck : Safe platform.port I (fun _ v t => Q result v t) R
      (check result.success (newError ((result.error.filter (· ≠ "")).getD fallback))) v t := by
    refine safe_check hinv (fun hsuccess => ?_) fun hsuccess => ?_
    · rwa [if_pos hsuccess] at hresult
    · rw [hsuccess] at hresult
      exact hresult _
  exact safe_bind hcheck fun _ v t hinv hq => safe_pure hinv hq

/-- An attempt never throws. -/
theorem safe_attempt {failures : List String} {label : String} {operation : Commit Unit}
    {Q : CommitPost (List String)}
    (h : Safe platform.port I (fun _ v t => Q failures v t)
      (fun _ v t => ∀ message, Q (failures ++ [message]) v t) operation v s) :
    Safe platform.port I Q R (attempt failures label operation) v s := by
  refine safe_tryCatch (safe_bind h fun _ v t hinv hq => safe_pure hinv hq) ?_
  intro error v t hinv hq
  exact safe_pure hinv (hq _)

theorem safe_caught {operation : Commit Unit}
    {Q : CommitPost (Option TransactionError)}
    (h : Safe platform.port I (fun _ v t => Q none v t) (fun error v t => Q (some error) v t) operation v s) :
    Safe platform.port I Q R (caught operation) v s := by
  refine safe_tryCatch (safe_bind h fun _ v t hinv hq => safe_pure hinv hq) ?_
  intro error v t hinv hq
  exact safe_pure hinv hq

theorem safe_verifyConfiguration {requirements : SyncConfigurationSecretRequirements} {message : String}
    {Q : CommitPost Unit} (hs : I s)
    (hok : Shows expected s → Q () v s) (hfail : ∀ error, R error v s) :
    Safe platform.port I Q R (verifyConfiguration requirements expected message) v s := by
  refine safe_bind (Q := fun snapshot v₁ t => v₁ = v ∧ t = s ∧ Shows snapshot s)
    (safe_read hs (fun _ h => ⟨rfl, rfl, h⟩) fun _ => hfail _) ?_
  rintro snapshot v₁ t - ⟨rfl, rfl, hshows⟩
  exact safe_check hs (fun hmatch => hok (shows_of_matches hshows hmatch)) fun _ => hfail _

/-- Sync is off afterwards; a failure may come before it is. -/
theorem safe_ensureBackendDisabled {requirements : SyncConfigurationSecretRequirements}
    {Q : CommitPost PersistedSyncConfiguration} (hs : I s)
    (ht : I { s with backend := .off })
    (hok : ∀ snapshot, Shows snapshot { s with backend := .off } → Q snapshot v { s with backend := .off })
    (hfail : ∀ error, R error v s ∧ R error v { s with backend := .off }) :
    Safe platform.port I Q R (ensureBackendDisabled requirements) v s := by
  refine safe_bind (Q := fun _ v₁ t => v₁ = v ∧ t = { s with backend := .off })
    (safe_write (.writeBackend .off) (fun _ => rfl) hs ht (fun _ => ⟨rfl, rfl⟩) fun failure => hfail _) ?_
  rintro - v₁ t - ⟨rfl, rfl⟩
  refine safe_bind (Q := fun snapshot v₂ t => v₂ = v₁ ∧ t = { s with backend := .off } ∧
      Shows snapshot { s with backend := .off })
    (safe_read ht (fun _ h => ⟨rfl, rfl, h⟩) fun _ => (hfail _).2) ?_
  rintro snapshot v₂ t - ⟨rfl, rfl, hshows⟩
  refine safe_bind (Q := fun _ v₃ t => v₃ = v₂ ∧ t = { s with backend := .off })
    (safe_check ht (fun _ => ⟨rfl, rfl⟩) fun _ => (hfail _).2) ?_
  rintro - v₃ t - ⟨rfl, rfl⟩
  exact safe_pure ht (hok _ hshows)

end

/-! ### The rollback -/

section
variable {R : CommitPost TransactionError} {v : CommitProgress}
  {failures : List String} {requirements : SyncConfigurationSecretRequirements}

/-- Sync is off and only touched fields differ from the base. -/
structure Offline (touched : TouchedTransportFields) (base s : StoredSyncConfiguration) : Prop where
  off : s.backend = .off
  untouched : Untouched touched base s

/-- What a step of the rollback has established unless a step has failed. -/
def RollbackStep (touched : TouchedTransportFields) (base : StoredSyncConfiguration) (failures : List String)
    (established : Prop) (failures' : List String) (_ : CommitProgress) (t : StoredSyncConfiguration) : Prop :=
  Offline touched base t ∧ (failures' = [] → failures = [] ∧ established)

theorem rollbackStep_failed {established : Prop} {message : String} (ht : Offline touched base t) :
    RollbackStep touched base failures established (failures ++ [message]) v t := by
  refine ⟨ht, fun h => ?_⟩
  simp at h

theorem safe_offlineWrite (op : PortCall) (hrefuses : ∀ choice, Platform.refuses op choice = false)
    (hs : Offline touched base s) (ht : Offline touched base (platform.perform op s)) :
    Safe platform.port (Consistent platform candidate base) (fun _ _ t => Offline touched base t)
      (fun _ _ t => Offline touched base t) (Commit.call op) v s :=
  safe_write op hrefuses (consistent_off hs.off) (consistent_off ht.off) (fun _ => ht) fun _ => ⟨hs, ht⟩

theorem safe_rollbackAttempt {established : Prop} {label : String} {operation : Commit Unit}
    (hestablished : established)
    (h : Safe platform.port (Consistent platform candidate base) (fun _ _ t => Offline touched base t)
      (fun _ _ t => Offline touched base t) operation v s) :
    Safe platform.port (Consistent platform candidate base) (RollbackStep touched base failures established) R
      (attempt failures label operation) v s := by
  refine safe_attempt (h.mono (fun _ hs => hs) (fun _ _ t ht => ?_) fun _ _ t ht message => ?_)
  · exact ⟨ht, fun hfailures => ⟨hfailures, hestablished⟩⟩
  · exact rollbackStep_failed ht

theorem safe_restoreSyncPath (hs : Offline touched base s) :
    Safe platform.port (Consistent platform candidate base) (RollbackStep touched base failures True) R
      (restoreSyncPath previous touched failures) v s := by
  unfold restoreSyncPath
  split
  · rename_i htouched
    have hwrite : ∀ path bookmark, Offline touched base { s with syncPath := path, syncPathBookmark := bookmark } :=
      fun path bookmark => ⟨hs.off, ⟨fun h => absurd (htouched.symm.trans h) nofun, hs.untouched.webdav,
        hs.untouched.cloud, hs.untouched.cloudProvider⟩⟩
    split
    · refine safe_rollbackAttempt trivial (safe_bind (Q := fun _ _ t => Offline touched base t) ?_ ?_)
      · exact safe_writeCheckedSyncPath (consistent_off hs.off) (consistent_off hs.off) (hwrite _ _)
          fun _ => ⟨hs, hwrite _ _⟩
      · intro _ v t hinv ht
        exact safe_pure hinv ht
    · exact safe_rollbackAttempt trivial (safe_offlineWrite .clearSyncPath (fun _ => rfl) hs (hwrite _ _))
  · exact safe_pure (consistent_off hs.off) ⟨hs, fun h => ⟨h, trivial⟩⟩

theorem safe_restoreWebDav (hs : Offline touched base s) :
    Safe platform.port (Consistent platform candidate base)
      (RollbackStep touched base failures
        (touched.webdav = true → knownPassword previous.webdav = none → cleanOpaqueWebDav previous = true)) R
      (restoreWebDav previous touched failures) v s := by
  unfold restoreWebDav
  split
  · rename_i htouched
    have hwrite : ∀ webdav, Offline touched base { s with webdav } := fun webdav =>
      ⟨hs.off, ⟨hs.untouched.syncPath, fun h => absurd (htouched.symm.trans h) nofun, hs.untouched.cloud,
        hs.untouched.cloudProvider⟩⟩
    split
    · split
      · rename_i hclean
        exact safe_rollbackAttempt (fun _ _ => hclean)
          (safe_offlineWrite (.writeWebDav _) (fun _ => rfl) hs (hwrite _))
      · exact safe_pure (consistent_off hs.off) (rollbackStep_failed hs)
    · rename_i previousPassword hknown
      exact safe_rollbackAttempt (fun _ hnone => by rw [hknown] at hnone; cases hnone)
        (safe_offlineWrite (.writeWebDav _) (fun _ => rfl) hs (hwrite _))
  · rename_i huntouched
    exact safe_pure (consistent_off hs.off) ⟨hs, fun h => ⟨h, fun htouched => absurd htouched huntouched⟩⟩

theorem safe_restoreCloud (hs : Offline touched base s) :
    Safe platform.port (Consistent platform candidate base)
      (RollbackStep touched base failures
        (touched.cloud = true → knownToken previous.cloud = none → cleanOpaqueCloud previous = true)) R
      (restoreCloud previous touched failures) v s := by
  unfold restoreCloud
  split
  · rename_i htouched
    have hwrite : ∀ cloud, Offline touched base { s with cloud } := fun cloud =>
      ⟨hs.off, ⟨hs.untouched.syncPath, hs.untouched.webdav, fun h => absurd (htouched.symm.trans h) nofun,
        hs.untouched.cloudProvider⟩⟩
    split
    · split
      · rename_i hclean
        exact safe_rollbackAttempt (fun _ _ => hclean)
          (safe_offlineWrite (.writeCloud _) (fun _ => rfl) hs (hwrite _))
      · exact safe_pure (consistent_off hs.off) (rollbackStep_failed hs)
    · rename_i previousToken hknown
      exact safe_rollbackAttempt (fun _ hnone => by rw [hknown] at hnone; cases hnone)
        (safe_offlineWrite (.writeCloud _) (fun _ => rfl) hs (hwrite _))
  · rename_i huntouched
    exact safe_pure (consistent_off hs.off) ⟨hs, fun h => ⟨h, fun htouched => absurd htouched huntouched⟩⟩

theorem safe_restoreCloudProvider (hs : Offline touched base s) :
    Safe platform.port (Consistent platform candidate base) (RollbackStep touched base failures True) R
      (restoreCloudProvider previous touched failures) v s := by
  unfold restoreCloudProvider
  split
  · rename_i htouched
    refine safe_rollbackAttempt trivial (safe_offlineWrite (.writeCloudProvider _) (fun _ => rfl) hs ?_)
    exact ⟨hs.off, ⟨hs.untouched.syncPath, hs.untouched.webdav, hs.untouched.cloud,
      fun h => absurd (htouched.symm.trans h) nofun⟩⟩
  · exact safe_pure (consistent_off hs.off) ⟨hs, fun h => ⟨h, trivial⟩⟩

theorem safe_verifyRestored (hs : Offline touched base s) :
    Safe platform.port (Consistent platform candidate base)
      (fun failures' _ t => Offline touched base t ∧
        (failures' = [] → failures = [] ∧ Shows { previous with backend := .off } t)) R
      (verifyRestored previous requirements failures) v s := by
  unfold verifyRestored
  split
  · rename_i hfailures
    refine safe_attempt (safe_verifyConfiguration (consistent_off hs.off) (fun hshows => ?_) fun _ message => ?_)
    · exact ⟨hs, fun _ => ⟨hfailures, hshows⟩⟩
    · exact ⟨hs, fun h => by simp at h⟩
  · rename_i hfailures
    exact safe_pure (consistent_off hs.off) ⟨hs, fun h => absurd h hfailures⟩

/-- The previous backend goes on over its own configuration. -/
theorem safe_reactivatePrevious {reactivatePreviousBackend : Bool} (hs : s.backend = .off)
    (hbase : previous.backend = base.backend)
    (hrestored : failures = [] → Restored candidate base { s with backend := base.backend }) :
    Safe platform.port (Consistent platform candidate base)
      (fun failures' _ t => failures' = [] → reactivatePreviousBackend = true → Restored candidate base t) R
      (reactivatePrevious previous requirements reactivatePreviousBackend failures) v s := by
  unfold reactivatePrevious
  split
  · rename_i hcondition
    obtain ⟨hfailures, -, -⟩ := hcondition
    have hactive : Restored candidate base { s with backend := previous.backend } := by
      rw [hbase]
      exact hrestored hfailures
    have hwrite : Safe platform.port (Consistent platform candidate base)
        (fun failures' _ t => (failures' = [] → Restored candidate base t)) R
        (attempt failures "reactivate previous backend" (Commit.call (.writeBackend previous.backend))) v s := by
      refine safe_attempt (safe_write (.writeBackend previous.backend) (fun _ => rfl) (consistent_off hs)
        (fun _ => .inl hactive) (fun _ _ => hactive) fun _ => ⟨fun message h => ?_, fun message h => ?_⟩)
      · simp at h
      · simp at h
    refine safe_bind hwrite fun failures' v t hinv ht => ?_
    refine safe_attempt (safe_verifyConfiguration hinv (fun _ h _ => ht h) fun _ message h => ?_)
    simp at h
  · rename_i hcondition
    refine safe_pure (consistent_off hs) fun hfailures hreactivate => ?_
    have hoff : base.backend = .off := by
      by_contra hne
      exact hcondition ⟨hfailures, hreactivate, by rwa [hbase]⟩
    have h := hrestored hfailures
    rwa [hoff, ← hs] at h

/-- The rollback restores the configuration of before or leaves sync disabled and throws. -/
theorem safe_restoreLastProvenConfiguration {reactivatePreviousBackend : Bool}
    (hbase : Shows previous base) (howned : Owned candidate previous touched)
    (hinv : Consistent platform candidate base s) (huntouched : Untouched touched base s) :
    Safe platform.port (Consistent platform candidate base)
      (fun _ _ t => reactivatePreviousBackend = true → Restored candidate base t) (fun _ _ _ => True)
      (restoreLastProvenConfiguration previous reactivatePreviousBackend requirements touched) v s := by
  have hdisable : Safe platform.port (Consistent platform candidate base)
      (fun _ _ t => Offline touched base t) (fun _ _ _ => True)
      (do let _ ← ensureBackendDisabled noRequirements) v s := by
    refine safe_bind (Q := fun _ _ t => Offline touched base t) ?_ fun _ _ _ hinv ht => safe_pure hinv ht
    exact safe_ensureBackendDisabled hinv (consistent_off rfl) (fun _ _ => ⟨rfl, huntouched.setBackend .off⟩)
      fun _ => ⟨trivial, trivial⟩
  have hkeepOff : ∀ (fs : List String) (label : String) (v : CommitProgress) (t : StoredSyncConfiguration),
      Consistent platform candidate base t →
      Safe platform.port (Consistent platform candidate base) (fun _ _ _ => True) (fun _ _ _ => True)
        (attempt fs label (Commit.call (.writeBackend .off))) v t := by
    intro fs label v t ht
    exact safe_attempt (safe_write (.writeBackend .off) (fun _ => rfl) ht (consistent_off rfl)
      (fun _ => trivial) fun _ => ⟨fun _ => trivial, fun _ => trivial⟩)
  unfold restoreLastProvenConfiguration
  refine safe_bind (safe_tryCatch hdisable fun error v t ht _ => ?_) fun _ v t _ hoffline => ?_
  · exact safe_bind (hkeepOff _ _ _ _ ht) fun _ _ _ ht _ => safe_throw ht trivial
  refine safe_bind (safe_restoreSyncPath hoffline) fun failures v t _ ⟨ht, hpath⟩ => ?_
  refine safe_bind (safe_restoreWebDav ht) fun failures v t _ ⟨ht, hwebdav⟩ => ?_
  refine safe_bind (safe_restoreCloud ht) fun failures v t _ ⟨ht, hcloud⟩ => ?_
  refine safe_bind (safe_restoreCloudProvider ht) fun failures v t _ ⟨ht, hprovider⟩ => ?_
  refine safe_bind (safe_verifyRestored ht) fun failures v t _ ⟨ht, hverified⟩ => ?_
  have hrestored : failures = [] → Restored candidate base { t with backend := base.backend } := by
    intro h
    obtain ⟨h, hshows⟩ := hverified h
    obtain ⟨h, -⟩ := hprovider h
    obtain ⟨h, hcleanCloud⟩ := hcloud h
    obtain ⟨-, hcleanWebDav⟩ := hwebdav h
    exact restored_of_shows hbase hshows ht.untouched howned ⟨hcleanWebDav, hcleanCloud⟩
  refine safe_bind (safe_reactivatePrevious ht.off hbase.backend hrestored) fun failures v t hinv hactive => ?_
  split
  · rename_i hfailures
    exact safe_pure hinv (hactive hfailures)
  · exact safe_bind (hkeepOff _ _ _ _ hinv) fun _ _ _ ht _ => safe_throw ht trivial

end

/-! ### The candidate -/

/-- What holds while the candidate is written: a field that is not touched is that of the base. -/
structure Progressing (candidate : SyncConfigurationCandidate) (previous : PersistedSyncConfiguration)
    (base : StoredSyncConfiguration) (v : CommitProgress) (t : StoredSyncConfiguration) : Prop where
  started : v.candidateMutationStarted = true
  untouched : Untouched v.touched base t
  owned : Owned candidate previous v.touched

/-- The candidate is written, and a store that reads back as expected is its configuration. -/
structure Written (platform : Platform) (candidate : SyncConfigurationCandidate)
    (previous : PersistedSyncConfiguration) (base : StoredSyncConfiguration) (expected : PersistedSyncConfiguration)
    (v : CommitProgress) (t : StoredSyncConfiguration) : Prop where
  progressing : Progressing candidate previous base v t
  off : t.backend = .off
  proven : Shows expected t →
    candidateConfiguration platform candidate base = some { t with backend := candidate.backend }

theorem eq_of_showsWebDav {snapshot : PersistedWebDavConfiguration} {webdav : StoredWebDav}
    (h : ShowsWebDav snapshot webdav) (hknown : snapshot.passwordAuthority = .known) :
    webdav = ⟨snapshot.url, snapshot.username, snapshot.password, snapshot.hasPassword,
      snapshot.allowInsecureHttp, snapshot.allowWeakFingerprint⟩ := by
  rw [h.url, h.username, (h.secret hknown).1, (h.secret hknown).2, h.allowInsecureHttp, h.allowWeakFingerprint]

theorem eq_of_showsCloud {snapshot : PersistedCloudConfiguration} {cloud : StoredCloud}
    (h : ShowsCloud snapshot cloud) (hknown : snapshot.tokenAuthority = .known) :
    cloud = ⟨snapshot.url, snapshot.token, snapshot.allowInsecureHttp, snapshot.rememberToken⟩ := by
  rw [h.url, h.secret hknown, h.allowInsecureHttp, h.rememberToken]

/-- A password that is carried forward is the one that is stored. -/
theorem candidatePassword_known {webdav : CandidateWebDavConfiguration} (hbase : ShowsWebDav previous.webdav base.webdav)
    (hallowed : (previous.webdav.passwordAuthority != .opaqueSecret || !isBlankSecret webdav.password) = true) :
    candidatePassword webdav (knownPassword previous.webdav) = candidatePassword webdav base.webdav.password := by
  unfold candidatePassword
  cases hblank : isBlankSecret webdav.password with
  | false => rfl
  | true =>
    cases hauthority : previous.webdav.passwordAuthority with
    | known => simp [knownPassword, hauthority, (hbase.secret hauthority).1]
    | opaqueSecret => simp [hauthority, hblank] at hallowed

theorem candidateToken_known {cloud : CandidateCloudConfiguration} (hbase : ShowsCloud previous.cloud base.cloud)
    (hallowed : (previous.cloud.tokenAuthority != .opaqueSecret || !isBlank cloud.token) = true) :
    candidateToken cloud (knownToken previous.cloud) = candidateToken cloud base.cloud.token := by
  unfold candidateToken
  cases hblank : isBlank cloud.token with
  | false => rfl
  | true =>
    cases hauthority : previous.cloud.tokenAuthority with
    | known => simp [knownToken, hauthority, hbase.secret hauthority]
    | opaqueSecret => simp [hauthority, hblank] at hallowed

section
variable {v : CommitProgress} {requirements : SyncConfigurationSecretRequirements}

theorem safe_candidateWrite (op : PortCall) (hrefuses : ∀ choice, Platform.refuses op choice = false)
    (hoff : s.backend = .off) (hoff' : (platform.perform op s).backend = .off)
    (hs : Progressing candidate previous base v s)
    (ht : Progressing candidate previous base v (platform.perform op s)) :
    Safe platform.port (Consistent platform candidate base) (fun _ v' t => v' = v ∧ t = platform.perform op s)
      (fun _ v t => Progressing candidate previous base v t) (Commit.call op) v s :=
  safe_write op hrefuses (consistent_off hoff) (consistent_off hoff') (fun _ => ⟨rfl, rfl⟩) fun _ => ⟨hs, ht⟩

theorem safe_touch {f : TouchedTransportFields → TouchedTransportFields}
    {R : CommitPost TransactionError}
    (hinv : Consistent platform candidate base s) :
    Safe platform.port (Consistent platform candidate base)
      (fun _ v' t => v' = { v with touched := f v.touched } ∧ t = s) R (touch f) v s :=
  safe_modify hinv ⟨rfl, rfl⟩

theorem safe_writeCandidateFile (hbackend : candidate.backend = .file)
    (hs : Progressing candidate previous base v { base with backend := .off }) :
    Safe platform.port (Consistent platform candidate base) (Written platform candidate previous base)
      (fun _ v t => Progressing candidate previous base v t) (writeCandidateTransport candidate previous) v
      { base with backend := .off } := by
  unfold writeCandidateTransport
  rw [hbackend]
  refine safe_bind (safe_touch (consistent_off rfl)) ?_
  rintro - v' t - ⟨rfl, rfl⟩
  have htouched : ∀ path bookmark, Progressing candidate previous base
      { v with touched := { v.touched with syncPath := true } }
      { base with backend := .off, syncPath := path, syncPathBookmark := bookmark } := fun path bookmark =>
    ⟨hs.started, ⟨nofun, hs.untouched.webdav, hs.untouched.cloud, hs.untouched.cloudProvider⟩,
      ⟨hs.owned.webdav, hs.owned.cloud⟩⟩
  refine safe_bind (Q := fun result v' t => v' = { v with touched := { v.touched with syncPath := true } } ∧
    t = { base with
      backend := .off
      syncPath := platform.storedPath (candidate.syncPath.getD "")
      syncPathBookmark := candidate.syncPathBookmark })
    (safe_writeCheckedSyncPath (consistent_off rfl) (consistent_off rfl) ⟨rfl, rfl⟩
      fun _ => ⟨htouched _ _, htouched _ _⟩) ?_
  rintro result v' t - ⟨rfl, rfl⟩
  refine safe_pure (consistent_off rfl) ⟨htouched _ _, rfl, fun _ => ?_⟩
  simp [candidateConfiguration, hbackend]

theorem safe_writeCandidateWebDav {webdav : CandidateWebDavConfiguration} (hbackend : candidate.backend = .webdav)
    (hwebdav : candidate.webdav = some webdav) (hbase : Shows previous base)
    (hs : Progressing candidate previous base v { base with backend := .off }) :
    Safe platform.port (Consistent platform candidate base) (Written platform candidate previous base)
      (fun _ v t => Progressing candidate previous base v t) (writeCandidateWebDav webdav previous) v
      { base with backend := .off } := by
  unfold writeCandidateWebDav
  refine safe_bind (Q := fun _ v' t => v' = v ∧ t = { base with backend := .off } ∧
      (previous.webdav.passwordAuthority != .opaqueSecret || !isBlankSecret webdav.password) = true)
    (safe_check (consistent_off rfl) (fun h => ⟨rfl, rfl, h⟩) fun _ => hs) ?_
  rintro - v' t - ⟨rfl, rfl, hallowed⟩
  refine safe_bind (safe_touch (consistent_off rfl)) ?_
  rintro - v'' t - ⟨rfl, rfl⟩
  have htouched : ∀ webdav, Progressing candidate previous base
      { v' with touched := { v'.touched with webdav := true } }
      { base with backend := .off, webdav } := fun webdav =>
    ⟨hs.started, ⟨hs.untouched.syncPath, nofun, hs.untouched.cloud, hs.untouched.cloudProvider⟩,
      ⟨fun _ => .inl hbackend, hs.owned.cloud⟩⟩
  refine safe_bind (safe_candidateWrite (.writeWebDav _) (fun _ => rfl) rfl rfl (htouched _) (htouched _)) ?_
  rintro - v'' t - ⟨rfl, rfl⟩
  refine safe_pure (consistent_off rfl) ⟨htouched _, rfl, fun hshows => ?_⟩
  have hstored := eq_of_showsWebDav hshows.webdav rfl
  dsimp only [Platform.perform] at hstored ⊢
  rw [hstored]
  simp only [candidateConfiguration, hbackend, hwebdav, Option.map_some,
    candidatePassword_known hbase.webdav hallowed, hbase.webdav.allowInsecureHttp,
    hbase.webdav.allowWeakFingerprint]

theorem safe_writeCandidateCloud {cloud : CandidateCloudConfiguration} (hbackend : candidate.backend = .cloud)
    (hprovider : candidate.cloudProvider.getD .selfhosted = .selfhosted) (hcloud : candidate.cloud = some cloud)
    (hbase : Shows previous base) (hs : Progressing candidate previous base v { base with backend := .off }) :
    Safe platform.port (Consistent platform candidate base) (Written platform candidate previous base)
      (fun _ v t => Progressing candidate previous base v t) (writeCandidateCloud cloud previous) v
      { base with backend := .off } := by
  unfold writeCandidateCloud
  refine safe_bind (Q := fun _ v' t => v' = v ∧ t = { base with backend := .off } ∧
      (previous.cloud.tokenAuthority != .opaqueSecret || !isBlank cloud.token) = true)
    (safe_check (consistent_off rfl) (fun h => ⟨rfl, rfl, h⟩) fun _ => hs) ?_
  rintro - v' t - ⟨rfl, rfl, hallowed⟩
  refine safe_bind (safe_touch (consistent_off rfl)) ?_
  rintro - v'' t - ⟨rfl, rfl⟩
  have htouched : ∀ cloud, Progressing candidate previous base
      { v' with touched := { v'.touched with cloud := true } }
      { base with backend := .off, cloud } := fun cloud =>
    ⟨hs.started, ⟨hs.untouched.syncPath, hs.untouched.webdav, nofun, hs.untouched.cloudProvider⟩,
      ⟨hs.owned.webdav, fun _ => .inl hbackend⟩⟩
  refine safe_bind (safe_candidateWrite (.writeCloud _) (fun _ => rfl) rfl rfl (htouched _) (htouched _)) ?_
  rintro - v'' t - ⟨rfl, rfl⟩
  refine safe_bind (safe_touch (consistent_off rfl)) ?_
  rintro - v'' t - ⟨rfl, rfl⟩
  have htouched' : ∀ cloud cloudProvider, Progressing candidate previous base
      { v' with touched := { v'.touched with cloud := true, cloudProvider := true } }
      { base with backend := .off, cloud, cloudProvider } := fun cloud cloudProvider =>
    ⟨hs.started, ⟨hs.untouched.syncPath, hs.untouched.webdav, nofun, nofun⟩,
      ⟨hs.owned.webdav, fun _ => .inl hbackend⟩⟩
  refine safe_bind (safe_candidateWrite (.writeCloudProvider _) (fun _ => rfl) rfl rfl (htouched' _ _)
    (htouched' _ _)) ?_
  rintro - v'' t - ⟨rfl, rfl⟩
  refine safe_pure (consistent_off rfl) ⟨htouched' _ _, rfl, fun hshows => ?_⟩
  have hstored := eq_of_showsCloud hshows.cloud rfl
  dsimp only [Platform.perform] at hstored ⊢
  rw [hstored]
  simp only [candidateConfiguration, hbackend, hprovider, hcloud, Option.map_some,
    candidateToken_known hbase.cloud hallowed, hbase.cloud.allowInsecureHttp, hbase.cloud.rememberToken]

theorem safe_writeCandidateProvider {provider : CloudProvider}
    (hconfiguration : candidateConfiguration platform candidate base =
      some { base with backend := candidate.backend, cloudProvider := provider })
    (hs : Progressing candidate previous base v { base with backend := .off }) :
    Safe platform.port (Consistent platform candidate base) (Written platform candidate previous base)
      (fun _ v t => Progressing candidate previous base v t) (writeCandidateProvider provider previous) v
      { base with backend := .off } := by
  unfold writeCandidateProvider
  refine safe_bind (safe_touch (consistent_off rfl)) ?_
  rintro - v' t - ⟨rfl, rfl⟩
  have htouched : ∀ cloudProvider, Progressing candidate previous base
      { v with touched := { v.touched with cloudProvider := true } }
      { base with backend := .off, cloudProvider } := fun cloudProvider =>
    ⟨hs.started, ⟨hs.untouched.syncPath, hs.untouched.webdav, hs.untouched.cloud, nofun⟩,
      ⟨hs.owned.webdav, hs.owned.cloud⟩⟩
  refine safe_bind (safe_candidateWrite (.writeCloudProvider _) (fun _ => rfl) rfl rfl (htouched _) (htouched _)) ?_
  rintro - v' t - ⟨rfl, rfl⟩
  exact safe_pure (consistent_off rfl) ⟨htouched _, rfl, fun _ => hconfiguration⟩

theorem safe_writeCandidateTransport (hbase : Shows previous base)
    (hs : Progressing candidate previous base v { base with backend := .off }) :
    Safe platform.port (Consistent platform candidate base) (Written platform candidate previous base)
      (fun _ v t => Progressing candidate previous base v t) (writeCandidateTransport candidate previous) v
      { base with backend := .off } := by
  have hother : candidate.backend = .off ∨ candidate.backend = .cloudkit →
      Safe platform.port (Consistent platform candidate base) (Written platform candidate previous base)
        (fun _ v t => Progressing candidate previous base v t) (writeCandidateTransport candidate previous) v
        { base with backend := .off } := by
    intro hkind
    have hconfiguration : candidateConfiguration platform candidate base =
        some { base with
          backend := candidate.backend, cloudProvider := candidate.cloudProvider.getD base.cloudProvider } := by
      rcases hkind with h | h <;> simp [candidateConfiguration, h]
    unfold writeCandidateTransport
    cases hprovider : candidate.cloudProvider with
    | some provider =>
      rw [hprovider] at hconfiguration
      rcases hkind with h | h <;> rw [h] <;> exact safe_writeCandidateProvider hconfiguration hs
    | none =>
      rw [hprovider] at hconfiguration
      rcases hkind with h | h <;> rw [h] <;>
        exact safe_pure (consistent_off rfl) ⟨hs, rfl, fun _ => hconfiguration⟩
  cases hbackend : candidate.backend with
  | file => exact safe_writeCandidateFile hbackend hs
  | webdav =>
    unfold writeCandidateTransport
    rw [hbackend]
    cases hwebdav : candidate.webdav with
    | none => exact safe_throw (consistent_off rfl) hs
    | some webdav => exact safe_writeCandidateWebDav hbackend hwebdav hbase hs
  | cloud =>
    unfold writeCandidateTransport
    rw [hbackend]
    dsimp only
    cases hprovider : candidate.cloudProvider.getD .selfhosted with
    | selfhosted =>
      cases hcloud : candidate.cloud with
      | none => exact safe_throw (consistent_off rfl) hs
      | some cloud => exact safe_writeCandidateCloud hbackend hprovider hcloud hbase hs
    | dropbox =>
      refine safe_writeCandidateProvider ?_ hs
      simp [candidateConfiguration, hbackend, hprovider]
  | off => exact hother (.inl hbackend)
  | cloudkit => exact hother (.inr hbackend)

end

/-! ### The transaction -/

theorem webdavMatches_of_opaque {actual expected : PersistedWebDavConfiguration} {webdav : StoredWebDav}
    (hactual : ShowsWebDav actual webdav) (hexpected : ShowsWebDav expected webdav)
    (hhidden : expected.passwordAuthority = .opaqueSecret) : webdavMatches actual expected = true := by
  simp [webdavMatches, webdavSecretMatches, hhidden, hactual.url, hexpected.url, hactual.username,
    hexpected.username, hactual.allowInsecureHttp, hexpected.allowInsecureHttp, hactual.allowWeakFingerprint,
    hexpected.allowWeakFingerprint]

theorem cloudMatches_of_opaque {actual expected : PersistedCloudConfiguration} {cloud : StoredCloud}
    (hactual : ShowsCloud actual cloud) (hexpected : ShowsCloud expected cloud)
    (hhidden : expected.tokenAuthority = .opaqueSecret) : cloudMatches actual expected = true := by
  simp [cloudMatches, cloudSecretMatches, hhidden, hactual.url, hexpected.url, hactual.allowInsecureHttp,
    hexpected.allowInsecureHttp, hactual.rememberToken, hexpected.rememberToken]

/-- What is marked as changed has a known secret. -/
theorem owned_mark {actual : PersistedSyncConfiguration} (howned : Owned candidate previous touched)
    (hbase : Shows previous base) (hactual : Shows actual { base with backend := .off }) :
    Owned candidate previous (markChangedTransportFields actual { previous with backend := .off } touched) where
  webdav h := by
    cases hauthority : previous.webdav.passwordAuthority with
    | known => exact .inr rfl
    | opaqueSecret =>
      simp only [markChangedTransportFields, webdavMatches_of_opaque hactual.webdav hbase.webdav hauthority,
        Bool.not_true, Bool.or_false] at h
      exact hauthority ▸ howned.webdav h
  cloud h := by
    cases hauthority : previous.cloud.tokenAuthority with
    | known => exact .inr rfl
    | opaqueSecret =>
      simp only [markChangedTransportFields, cloudMatches_of_opaque hactual.cloud hbase.cloud hauthority,
        Bool.not_true, Bool.or_false] at h
      exact hauthority ▸ howned.cloud h

section
variable {v : CommitProgress} {requirements : SyncConfigurationSecretRequirements} {credentialHandle : Option String}
  {R : CommitPost TransactionError}

theorem Progressing.setBackend (h : Progressing candidate previous base v t) (backend : SyncBackend) :
    Progressing candidate previous base v { t with backend } :=
  ⟨h.started, h.untouched.setBackend backend, h.owned⟩

theorem safe_promoteCredentials (hs : Progressing candidate previous base v s) (hoff : s.backend = .off) :
    Safe platform.port (Consistent platform candidate base)
      (fun _ v t => Progressing candidate previous base v t ∧ t = s)
      (fun _ v t => Progressing candidate previous base v t)
      (promoteCredentials credentialHandle requirements expected) v s := by
  have hinv : Consistent platform candidate base s := consistent_off hoff
  cases credentialHandle with
  | none => exact safe_pure hinv ⟨hs, rfl⟩
  | some credentialHandle =>
    have hattempted : Progressing candidate previous base { v with credentialPromotionAttempted := true } s :=
      ⟨hs.started, hs.untouched, hs.owned⟩
    refine safe_bind (Q := fun _ v t => Progressing candidate previous base v t ∧ t = s)
      (safe_modify hinv ⟨hattempted, rfl⟩) ?_
    rintro - v₁ t - ⟨hv₁, rfl⟩
    refine safe_bind (Q := fun _ v' t' => Progressing candidate previous base v' t' ∧ t' = t)
      (safe_query (.promoteDropboxCredentials credentialHandle) rfl hinv (fun _ => ⟨hv₁, rfl⟩) fun _ => hv₁) ?_
    rintro - v₂ t - ⟨hv₂, rfl⟩
    exact safe_verifyConfiguration hinv (fun _ => ⟨hv₂, rfl⟩) fun _ => hv₂

/-- Past the proof of the disabled candidate, its activation leaves it active or fails. -/
theorem safe_commitOverDisabled (hbase : Shows previous base)
    (hs : Progressing candidate previous base v { base with backend := .off }) :
    Safe platform.port (Consistent platform candidate base)
      (fun _ _ t => candidateConfiguration platform candidate base = some t)
      (fun _ v t => Progressing candidate previous base v t)
      (commitOverDisabled candidate credentialHandle previous requirements) v { base with backend := .off } := by
  unfold commitOverDisabled
  refine safe_bind (safe_writeCandidateTransport hbase hs) fun expected v t hinv hwritten => ?_
  refine safe_bind (Q := fun _ v' t' => v' = v ∧ t' = t) (safe_get hinv ⟨rfl, rfl⟩) ?_
  rintro progress v' t' - ⟨rfl, rfl⟩
  refine safe_bind (Q := fun _ v' t' => (Progressing candidate previous base v' t' ∧ t'.backend = .off) ∧
      candidateConfiguration platform candidate base = some { t' with backend := candidate.backend })
    (safe_verifyConfiguration hinv
      (fun hshows => ⟨⟨hwritten.progressing, hwritten.off⟩, hwritten.proven hshows⟩)
      fun _ => hwritten.progressing) ?_
  rintro - v₁ t₁ - ⟨⟨hv₁, hoff⟩, hproven⟩
  refine safe_bind (safe_promoteCredentials hv₁ hoff) ?_
  rintro - v₂ t₂ hinv₂ ⟨hv₂, rfl⟩
  refine safe_bind (Q := fun _ v t => Progressing candidate previous base v t ∧
      candidateConfiguration platform candidate base = some t)
    (safe_write (.writeBackend candidate.backend) (fun _ => rfl) hinv₂ (fun _ => .inr hproven)
      (fun _ => ⟨hv₂.setBackend _, hproven⟩) fun _ => ⟨hv₂, hv₂.setBackend _⟩) ?_
  rintro - v₃ t₃ hinv₃ ⟨hv₃, hactive⟩
  exact safe_verifyConfiguration hinv₃ (fun _ => hactive) fun _ => hv₃

theorem safe_commitCandidate (hbase : Shows previous base)
    (hs : Progressing candidate previous base { v with candidateMutationStarted := true } base) :
    Safe platform.port (Consistent platform candidate base)
      (fun _ _ t => candidateConfiguration platform candidate base = some t)
      (fun _ v t => Progressing candidate previous base v t)
      (commitCandidate candidate credentialHandle previous requirements) v base := by
  have hinv : Consistent platform candidate base base := fun _ => .inl (restored_refl candidate base)
  unfold commitCandidate
  refine safe_bind (Q := fun _ v t => Progressing candidate previous base v t ∧ t = base)
    (safe_modify hinv ⟨hs, rfl⟩) ?_
  rintro - v t - ⟨hs, rfl⟩
  refine safe_bind (Q := fun actual v t' => Shows actual t' ∧ Progressing candidate previous t v t' ∧
      t' = { t with backend := .off })
    (safe_ensureBackendDisabled hinv (consistent_off rfl) (fun _ hshows => ⟨hshows, hs.setBackend _, rfl⟩)
      fun _ => ⟨hs, hs.setBackend _⟩) ?_
  rintro actual v t' - ⟨hactual, hs, rfl⟩
  split
  · exact safe_commitOverDisabled hbase hs
  · have hmarked : Progressing candidate previous t
        { v with touched := markChangedTransportFields actual { previous with backend := .off } v.touched }
        { t with backend := .off } :=
      ⟨hs.started, untouched_refl _ t |>.setBackend .off, owned_mark hs.owned hbase hactual⟩
    refine safe_bind (safe_touch (consistent_off rfl)) ?_
    rintro - v' t' - ⟨rfl, rfl⟩
    exact safe_throw (consistent_off rfl) hmarked

/-! ### The rollback of the candidate -/

def isDisabledError : TransactionError → Bool
  | .disabled _ => true
  | .failure _ => false

theorem safe_disableForRollback (hs : Progressing candidate previous base v s)
    (hinv : Consistent platform candidate base s) :
    Safe platform.port (Consistent platform candidate base)
      (fun _ v' t => v' = v ∧ Progressing candidate previous base v t) R disableForRollback v s := by
  have hdisable : Safe platform.port (Consistent platform candidate base)
      (fun _ v' t => v' = v ∧ Progressing candidate previous base v t) R
      (caught (do let _ ← ensureBackendDisabled noRequirements)) v s := by
    refine safe_caught (safe_bind (Q := fun _ v' t => v' = v ∧ Progressing candidate previous base v t)
      ?_ fun _ _ _ hinv ht => safe_pure hinv ht)
    exact safe_ensureBackendDisabled hinv (consistent_off rfl) (fun _ _ => ⟨rfl, hs.setBackend _⟩)
      fun _ => ⟨⟨rfl, hs⟩, rfl, hs.setBackend _⟩
  unfold disableForRollback
  refine safe_bind hdisable ?_
  rintro (_ | disableError) v₁ t₁ hinv₁ ⟨rfl, ht₁⟩
  · exact safe_pure hinv₁ ⟨rfl, ht₁⟩
  · have hbestEffort : Safe platform.port (Consistent platform candidate base)
        (fun _ v' t => v' = v₁ ∧ Progressing candidate previous base v₁ t) R
        (caught (Commit.call (.writeBackend .off))) v₁ t₁ :=
      safe_caught (safe_write (.writeBackend .off) (fun _ => rfl) hinv₁ (consistent_off rfl)
        (fun _ => ⟨rfl, ht₁.setBackend _⟩) fun _ => ⟨⟨rfl, ht₁⟩, rfl, ht₁.setBackend _⟩)
    refine safe_bind hbestEffort ?_
    rintro (_ | bestEffortDisableError) v₂ t₂ hinv₂ ht₂
    · exact safe_pure hinv₂ ht₂
    · exact safe_pure hinv₂ ht₂

/-- Calls on the Dropbox credentials alone. -/
theorem safe_discardStagedCredentials {progress : CommitProgress} (hinv : Consistent platform candidate base s) :
    Safe platform.port (Consistent platform candidate base) (fun _ v' t => v' = v ∧ t = s) R
      (discardStagedCredentials credentialHandle progress) v s := by
  unfold discardStagedCredentials
  split
  · rename_i handle _
    exact safe_caught (safe_query (.discardDropboxCredentials handle) rfl hinv (fun _ => ⟨rfl, rfl⟩)
      fun _ => ⟨rfl, rfl⟩)
  · exact safe_pure hinv ⟨rfl, rfl⟩

theorem safe_rollbackPromotedCredentials {progress : CommitProgress} (hinv : Consistent platform candidate base s) :
    Safe platform.port (Consistent platform candidate base) (fun _ v' t => v' = v ∧ t = s) R
      (rollbackPromotedCredentials credentialHandle progress) v s := by
  unfold rollbackPromotedCredentials
  split
  · rename_i handle _
    exact safe_caught (safe_query (.rollbackDropboxCredentials handle) rfl hinv (fun _ => ⟨rfl, rfl⟩)
      fun _ => ⟨rfl, rfl⟩)
  · exact safe_pure hinv ⟨rfl, rfl⟩

theorem safe_finalizeCredentials (hinv : Consistent platform candidate base s) :
    Safe platform.port (Consistent platform candidate base) (fun _ _ t => t = s) R
      (finalizeCredentials credentialHandle) v s := by
  cases credentialHandle with
  | none => exact safe_pure hinv rfl
  | some handle =>
    refine safe_bind (Q := fun _ _ t => t = s) (safe_caught (safe_query (.finalizeDropboxCredentials handle) rfl
      hinv (fun _ => rfl) fun _ => rfl)) ?_
    rintro error v₁ t₁ hinv₁ rfl
    exact safe_pure hinv₁ rfl

/-- Only an error that says so leaves anything but the configuration of before. -/
def FailsClosed (candidate : SyncConfigurationCandidate) (base : StoredSyncConfiguration)
    (error : TransactionError) (_ : CommitProgress) (t : StoredSyncConfiguration) : Prop :=
  isDisabledError error = false → Restored candidate base t

theorem failsClosed_disabled {message : String} : FailsClosed candidate base (.disabled message) v t := nofun

theorem safe_rollbackTransport {commitError : TransactionError} {credentialCleanupError : Option TransactionError}
    {Q : CommitPost Unit} (hbase : Shows previous base)
    (hs : Progressing candidate previous base v s) (hinv : Consistent platform candidate base s) :
    Safe platform.port (Consistent platform candidate base) Q (FailsClosed candidate base)
      (rollbackTransport credentialHandle previous requirements v commitError credentialCleanupError) v s := by
  unfold rollbackTransport
  refine safe_bind (safe_disableForRollback hs hinv) ?_
  rintro rollbackDisableError v₁ t₁ hinv₁ ⟨rfl, ht₁⟩
  refine safe_bind (safe_rollbackPromotedCredentials hinv₁) ?_
  rintro credentialRollbackError v₂ t₂ hinv₂ ⟨rfl, rfl⟩
  cases rollbackDisableError with
  | some rollbackDisableError => exact safe_throw hinv₂ failsClosed_disabled
  | none =>
    refine safe_bind (safe_tryCatch (safe_restoreLastProvenConfiguration hbase ht₁.owned hinv₂ ht₁.untouched)
      fun error v t ht _ => safe_throw ht failsClosed_disabled) ?_
    rintro - v₃ t₃ hinv₃ hrestored
    refine safe_throw hinv₃ ?_
    cases credentialRollbackError with
    | some credentialRollbackError => exact failsClosed_disabled
    | none => exact fun _ => hrestored rfl

theorem safe_rollbackCandidate {commitError : TransactionError}
    {Q : CommitPost Unit} (hbase : Shows previous base)
    (hs : Progressing candidate previous base v s) (hinv : Consistent platform candidate base s) :
    Safe platform.port (Consistent platform candidate base) Q (FailsClosed candidate base)
      (rollbackCandidate credentialHandle previous requirements commitError) v s := by
  unfold rollbackCandidate
  refine safe_bind (Q := fun progress v' t => progress = v ∧ v' = v ∧ t = s) (safe_get hinv ⟨rfl, rfl, rfl⟩) ?_
  rintro progress v₁ t₁ hinv₁ ⟨rfl, rfl, rfl⟩
  refine safe_bind (safe_discardStagedCredentials hinv₁) ?_
  rintro credentialCleanupError v₂ t₂ hinv₂ ⟨rfl, rfl⟩
  rw [if_pos hs.started]
  exact safe_rollbackTransport hbase hs hinv₂

/-! ### Runs -/

/-- A transaction over a settled base leaves the candidate, or fails closed. -/
theorem safe_commitSettled :
    Safe platform.port (Consistent platform candidate base)
      (fun _ _ t => candidateConfiguration platform candidate base = some t) (FailsClosed candidate base)
      (commitSettled candidate credentialHandle) initialProgress base := by
  have hinv : Consistent platform candidate base base := fun _ => .inl (restored_refl candidate base)
  have hclosed : ∀ error v, FailsClosed candidate base error v base := fun _ _ _ => restored_refl candidate base
  have hread : Safe platform.port (Consistent platform candidate base)
      (fun result v t => v = initialProgress ∧ t = base ∧ Shows result.1 base) (FailsClosed candidate base)
      (readPrevious candidate) initialProgress base := by
    refine safe_bind (Q := fun snapshot v t => v = initialProgress ∧ t = base ∧ Shows snapshot base)
      (safe_read hinv (fun _ h => ⟨rfl, rfl, h⟩) fun _ => hclosed _ _) ?_
    rintro tolerantPrevious v t - ⟨rfl, rfl, hshows⟩
    dsimp only
    split
    · refine safe_bind (Q := fun snapshot v t' => v = initialProgress ∧ t' = t ∧ Shows snapshot t)
        (safe_read hinv (fun _ h => ⟨rfl, rfl, h⟩) fun _ => hclosed _ _) ?_
      rintro previous v t' - ⟨rfl, rfl, hshows⟩
      exact safe_pure hinv ⟨rfl, rfl, hshows⟩
    · exact safe_pure hinv ⟨rfl, rfl, hshows⟩
  unfold commitSettled
  refine safe_bind hread ?_
  rintro ⟨previous, requirements⟩ v t - ⟨rfl, rfl, hbase⟩
  have hstart : Progressing candidate previous t { initialProgress with candidateMutationStarted := true } t :=
    ⟨rfl, untouched_refl _ _, ⟨nofun, nofun⟩⟩
  refine safe_bind (safe_tryCatch (safe_commitCandidate hbase hstart)
    fun error v₁ t₁ hinv₁ ht₁ => safe_rollbackCandidate hbase ht₁ hinv₁) ?_
  rintro - v₂ t₂ hinv₂ hcommitted
  refine (safe_finalizeCredentials hinv₂).mono (fun _ h => h) ?_ fun _ _ _ h => h
  rintro - v₃ t₃ rfl
  exact hcommitted

/-- The configuration before the transaction: as it was found, or as settling the Dropbox credentials has left
it. -/
def IsBase (platform : Platform) (s₀ base : StoredSyncConfiguration) : Prop :=
  base = s₀ ∨ base = platform.settled s₀

theorem safe_commitProvenSyncConfiguration (s₀ : StoredSyncConfiguration) :
    Safe platform.port (fun s => ∃ base, IsBase platform s₀ base ∧ Consistent platform candidate base s)
      (fun _ _ t => ∃ base, IsBase platform s₀ base ∧ candidateConfiguration platform candidate base = some t)
      (fun error _ t => isDisabledError error = false →
        ∃ base, IsBase platform s₀ base ∧ Restored candidate base t)
      (commitProvenSyncConfiguration candidate) initialProgress s₀ := by
  have hinv : ∀ base, IsBase platform s₀ base →
      ∃ base', IsBase platform s₀ base' ∧ Consistent platform candidate base' base := fun base hbase =>
    ⟨base, hbase, fun _ => .inl (restored_refl candidate base)⟩
  have hclosed : ∀ base, IsBase platform s₀ base →
      ∃ base', IsBase platform s₀ base' ∧ Restored candidate base' base := fun base hbase =>
    ⟨base, hbase, restored_refl candidate base⟩
  have hsettled : ∀ base handle, IsBase platform s₀ base →
      Safe platform.port (fun s => ∃ base, IsBase platform s₀ base ∧ Consistent platform candidate base s)
        (fun _ _ t => ∃ base, IsBase platform s₀ base ∧ candidateConfiguration platform candidate base = some t)
        (fun error _ t => isDisabledError error = false →
          ∃ base, IsBase platform s₀ base ∧ Restored candidate base t)
        (commitSettled candidate handle) initialProgress base := fun base handle hbase =>
    safe_commitSettled.mono (fun _ h => ⟨base, hbase, h⟩) (fun _ _ _ h => ⟨base, hbase, h⟩)
      fun _ _ _ h hplain => ⟨base, hbase, h hplain⟩
  unfold commitProvenSyncConfiguration
  refine safe_bind (Q := fun _ v t => v = initialProgress ∧ t = s₀)
    (safe_check (hinv _ (.inl rfl)) (fun _ => ⟨rfl, rfl⟩) fun _ _ => hclosed _ (.inl rfl)) ?_
  rintro - v t - ⟨rfl, rfl⟩
  split
  · refine safe_bind (Q := fun _ v' t' => v' = initialProgress ∧ t' = platform.settled t)
      (safe_write .recoverDropboxCredentialsBeforeConfiguration (fun _ => rfl) (hinv _ (.inl rfl))
        (hinv _ (.inr rfl)) (fun _ => ⟨rfl, rfl⟩)
        fun _ => ⟨fun _ => hclosed _ (.inl rfl), fun _ => hclosed _ (.inr rfl)⟩) ?_
    rintro - v t' - ⟨rfl, rfl⟩
    exact hsettled _ _ (.inr rfl)
  · exact hsettled _ _ (.inl rfl)

/-- A platform that stores what it is given. -/
def plainPlatform : Platform where
  storedPath path := path
  storedWebDav config := ⟨config.url, config.username, some config.password, some config.hasPassword,
    config.allowInsecureHttp, config.allowWeakFingerprint⟩
  storedCloud config := ⟨config.url, some config.token, config.allowInsecureHttp, config.rememberToken⟩
  settled s := s

/-- Sync over a file, with a password that an earlier WebDAV configuration has left behind. -/
def fileConfiguration : StoredSyncConfiguration where
  backend := .file
  syncPath := "/sync"
  syncPathBookmark := none
  webdav := ⟨"", "", some "left", some true, false, false⟩
  cloudProvider := .selfhosted
  cloud := ⟨"", none, false, false⟩

def webdavCandidate : SyncConfigurationCandidate where
  backend := .webdav
  syncPath := none
  syncPathBookmark := none
  webdav := some ⟨"https://dav.example", "user", some "secret", none, none⟩
  cloudProvider := none
  cloud := none
  dropboxCredentialHandle := none

def answered : PortChoice := ⟨none, true, none, true, true, none⟩

/-- The password cannot be read. -/
def unreadable : PortChoice := ⟨none, true, none, false, true, none⟩

def failed : PortChoice := ⟨some (.error "Error" "keyring is locked"), false, none, false, true, none⟩

def hasCommitted (x : StoredSyncConfiguration × Calls PortCall PortAnswer PortFailure
    (Except TransactionError SyncConfigurationCommitResult × CommitProgress)) : Bool :=
  match x.2 with
  | .done (.ok _, _) => true
  | _ => false

def hasThrownPlainly (x : StoredSyncConfiguration × Calls PortCall PortAnswer PortFailure
    (Except TransactionError SyncConfigurationCommitResult × CommitProgress)) : Bool :=
  match x.2 with
  | .done (.error error, _) => !isDisabledError error
  | _ => false

end

end Mindwtr.Sync
