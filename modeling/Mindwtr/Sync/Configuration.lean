import Mindwtr.Js.Text
import Mindwtr.Lib.Calls

/-!
# The transaction that commits a sync configuration

`commitProvenSyncConfiguration` of `sync-configuration-transaction.ts` over its port. What the platform has
stored is read through a snapshot, in which a secret may be opaque; a write stores what the platform makes
of its argument, and a call may fail before or after it has taken effect. The Dropbox credentials have a
slot of their own, which the snapshot does not show; settling them before the transaction may change the
configuration.
-/

namespace Mindwtr.Sync

open Mindwtr.Js Mindwtr.Lib

inductive SyncBackend where
  | off | file | webdav | cloud | cloudkit
deriving DecidableEq

inductive CloudProvider where
  | selfhosted | dropbox
deriving DecidableEq

inductive SecretAuthority where
  | known | opaqueSecret
deriving DecidableEq

/-! ### Candidates and snapshots -/

structure CandidateWebDavConfiguration where
  url : String
  username : String
  password : Option String
  allowInsecureHttp : Option Bool
  allowWeakFingerprint : Option Bool

structure CandidateCloudConfiguration where
  url : String
  token : String
  allowInsecureHttp : Option Bool
  rememberToken : Option Bool

structure SyncConfigurationCandidate where
  backend : SyncBackend
  syncPath : Option String
  syncPathBookmark : Option String
  webdav : Option CandidateWebDavConfiguration
  cloudProvider : Option CloudProvider
  cloud : Option CandidateCloudConfiguration
  dropboxCredentialHandle : Option String

structure PersistedWebDavConfiguration where
  url : String
  username : String
  password : Option String
  passwordAuthority : SecretAuthority
  hasPassword : Option Bool
  allowInsecureHttp : Bool
  allowWeakFingerprint : Bool
deriving DecidableEq

structure PersistedCloudConfiguration where
  url : String
  token : Option String
  tokenAuthority : SecretAuthority
  allowInsecureHttp : Bool
  rememberToken : Bool
deriving DecidableEq

structure SyncConfigurationSecretRequirements where
  requireWebdavPassword : Bool
  requireCloudToken : Bool

structure PersistedSyncConfiguration where
  backend : SyncBackend
  syncPath : String
  syncPathBookmark : Option String
  webdav : PersistedWebDavConfiguration
  cloudProvider : CloudProvider
  cloud : PersistedCloudConfiguration

structure WritableWebDavConfiguration where
  url : String
  username : String
  password : String
  hasPassword : Bool
  allowInsecureHttp : Bool
  allowWeakFingerprint : Bool

structure WritableCloudConfiguration where
  url : String
  token : String
  allowInsecureHttp : Bool
  rememberToken : Bool

/-! ### The port -/

structure StoredWebDav where
  url : String
  username : String
  password : Option String
  hasPassword : Option Bool
  allowInsecureHttp : Bool
  allowWeakFingerprint : Bool
deriving DecidableEq

structure StoredCloud where
  url : String
  token : Option String
  allowInsecureHttp : Bool
  rememberToken : Bool
deriving DecidableEq

/-- What the platform has stored, its secrets as they are. -/
structure StoredSyncConfiguration where
  backend : SyncBackend
  syncPath : String
  syncPathBookmark : Option String
  webdav : StoredWebDav
  cloudProvider : CloudProvider
  cloud : StoredCloud
deriving DecidableEq

structure SyncPathResult where
  success : Bool
  path : String
  error : Option String

inductive PortCall where
  | recoverDropboxCredentialsBeforeConfiguration
  | readConfiguration (requirements : SyncConfigurationSecretRequirements)
  | writeBackend (backend : SyncBackend)
  | writeSyncPath (path : String) (bookmark : Option String)
  | clearSyncPath
  | writeWebDav (config : WritableWebDavConfiguration)
  | writeCloud (config : WritableCloudConfiguration)
  | writeCloudProvider (provider : CloudProvider)
  | promoteDropboxCredentials (credentialHandle : String)
  | discardDropboxCredentials (credentialHandle : String)
  | rollbackDropboxCredentials (credentialHandle : String)
  | finalizeDropboxCredentials (credentialHandle : String)

abbrev PortAnswer : PortCall → Type
  | .readConfiguration _ => PersistedSyncConfiguration
  | .writeSyncPath _ _ => SyncPathResult
  | _ => Unit

/-- What a call rejects with: an error, or a value by the text that `String` gives for it. -/
inductive PortFailure where
  | error (name message : String)
  | value (text : String)

/-- The platform: what it makes of a path, of a WebDAV and of a self-hosted configuration, and what settling
the Dropbox credentials leaves. -/
structure Platform where
  storedPath : String → String
  storedWebDav : WritableWebDavConfiguration → StoredWebDav
  storedCloud : WritableCloudConfiguration → StoredCloud
  settled : StoredSyncConfiguration → StoredSyncConfiguration

/-- What the environment does with a call. A call that fails, or a path that is refused, may have taken
effect; a secret that is not required may be unreadable. -/
structure PortChoice where
  failure : Option PortFailure
  effect : Bool
  refusal : Option (Option String)
  passwordReadable : Bool
  tokenReadable : Bool
  hasPassword : Option Bool

def Platform.perform (platform : Platform) (op : PortCall) (s : StoredSyncConfiguration) :
    StoredSyncConfiguration :=
  match op with
  | .recoverDropboxCredentialsBeforeConfiguration => platform.settled s
  | .writeBackend backend => { s with backend }
  | .writeSyncPath path bookmark => { s with syncPath := platform.storedPath path, syncPathBookmark := bookmark }
  | .clearSyncPath => { s with syncPath := "", syncPathBookmark := none }
  | .writeWebDav config => { s with webdav := platform.storedWebDav config }
  | .writeCloud config => { s with cloud := platform.storedCloud config }
  | .writeCloudProvider provider => { s with cloudProvider := provider }
  | _ => s

def StoredSyncConfiguration.snapshot (s : StoredSyncConfiguration) (passwordReadable tokenReadable : Bool)
    (hasPassword : Option Bool) : PersistedSyncConfiguration where
  backend := s.backend
  syncPath := s.syncPath
  syncPathBookmark := s.syncPathBookmark
  webdav :=
    { url := s.webdav.url
      username := s.webdav.username
      password := if passwordReadable then s.webdav.password else none
      passwordAuthority := if passwordReadable then .known else .opaqueSecret
      hasPassword := if passwordReadable then s.webdav.hasPassword else hasPassword
      allowInsecureHttp := s.webdav.allowInsecureHttp
      allowWeakFingerprint := s.webdav.allowWeakFingerprint }
  cloudProvider := s.cloudProvider
  cloud :=
    { url := s.cloud.url
      token := if tokenReadable then s.cloud.token else none
      tokenAuthority := if tokenReadable then .known else .opaqueSecret
      allowInsecureHttp := s.cloud.allowInsecureHttp
      rememberToken := s.cloud.rememberToken }

/-- A read that requires a secret answers only with it. -/
def Platform.answer (platform : Platform) (op : PortCall) (choice : PortChoice) (s : StoredSyncConfiguration) :
    PortAnswer op :=
  match op with
  | .readConfiguration requirements =>
    s.snapshot (choice.passwordReadable || requirements.requireWebdavPassword)
      (choice.tokenReadable || requirements.requireCloudToken) choice.hasPassword
  | .writeSyncPath path _ =>
    match choice.refusal with
    | none => ⟨true, platform.storedPath path, none⟩
    | some error => ⟨false, path, error⟩
  | .recoverDropboxCredentialsBeforeConfiguration | .writeBackend _ | .clearSyncPath | .writeWebDav _
  | .writeCloud _ | .writeCloudProvider _ | .promoteDropboxCredentials _ | .discardDropboxCredentials _
  | .rollbackDropboxCredentials _ | .finalizeDropboxCredentials _ => ()

def Platform.refuses (op : PortCall) (choice : PortChoice) : Bool :=
  match op with
  | .writeSyncPath _ _ => choice.refusal.isSome
  | _ => false

def Platform.port (platform : Platform) (op : PortCall) (choice : PortChoice) (s : StoredSyncConfiguration) :
    Except PortFailure (PortAnswer op) × StoredSyncConfiguration :=
  match choice.failure with
  | some failure => (.error failure, if choice.effect then platform.perform op s else s)
  | none =>
    (.ok (platform.answer op choice s),
      if choice.effect || !Platform.refuses op choice then platform.perform op s else s)

/-! ### Errors and comparisons -/

inductive TransactionError where
  /-- `SyncConfigurationDisabledError`. -/
  | disabled (message : String)
  | failure (failure : PortFailure)

def errorText (name message : String) : String :=
  if name = "" then message else if message = "" then name else name ++ ": " ++ message

def messageOrText (name message : String) : String :=
  if !isBlank message then trim message
  else if !isBlank (errorText name message) then trim (errorText name message)
  else "Unknown sync configuration error"

def errorMessage : TransactionError → String
  | .disabled message => messageOrText "SyncConfigurationDisabledError" message
  | .failure (.error name message) => messageOrText name message
  | .failure (.value text) => if !isBlank text then trim text else "Unknown sync configuration error"

/-- `new Error(message)` -/
def newError (message : String) : TransactionError := .failure (.error "Error" message)

structure TouchedTransportFields where
  syncPath : Bool
  webdav : Bool
  cloud : Bool
  cloudProvider : Bool

def createTouchedTransportFields : TouchedTransportFields := ⟨false, false, false, false⟩

def isBlankSecret (text : Option String) : Bool := text.all isBlank

def getCandidateSecretRequirements (candidate : SyncConfigurationCandidate)
    (previous : PersistedSyncConfiguration) : SyncConfigurationSecretRequirements where
  requireWebdavPassword :=
    candidate.backend == .webdav
      && isBlankSecret (candidate.webdav.bind (·.password))
      && (previous.backend == .webdav
        || !isBlank previous.webdav.url
        || !isBlank previous.webdav.username
        || previous.webdav.hasPassword == some true)
  requireCloudToken :=
    candidate.backend == .cloud
      && candidate.cloudProvider.getD .selfhosted == .selfhosted
      && isBlankSecret (candidate.cloud.map (·.token))
      && ((previous.backend == .cloud && previous.cloudProvider == .selfhosted)
        || !isBlank previous.cloud.url
        || previous.cloud.rememberToken
        || (previous.cloud.tokenAuthority == .known && !isBlankSecret previous.cloud.token))

def webdavSecretMatches (actual expected : PersistedWebDavConfiguration) : Bool :=
  expected.passwordAuthority == .opaqueSecret
    || (actual.passwordAuthority == .known
      && actual.password == expected.password
      && actual.hasPassword == expected.hasPassword)

def cloudSecretMatches (actual expected : PersistedCloudConfiguration) : Bool :=
  expected.tokenAuthority == .opaqueSecret
    || (actual.tokenAuthority == .known && actual.token == expected.token)

def syncPathMatches (actual expected : PersistedSyncConfiguration) : Bool :=
  actual.syncPath == expected.syncPath && actual.syncPathBookmark == expected.syncPathBookmark

def webdavMatches (actual expected : PersistedWebDavConfiguration) : Bool :=
  actual.url == expected.url
    && actual.username == expected.username
    && webdavSecretMatches actual expected
    && actual.allowInsecureHttp == expected.allowInsecureHttp
    && actual.allowWeakFingerprint == expected.allowWeakFingerprint

def cloudMatches (actual expected : PersistedCloudConfiguration) : Bool :=
  actual.url == expected.url
    && cloudSecretMatches actual expected
    && actual.allowInsecureHttp == expected.allowInsecureHttp
    && actual.rememberToken == expected.rememberToken

def markChangedTransportFields (actual expected : PersistedSyncConfiguration)
    (touched : TouchedTransportFields) : TouchedTransportFields where
  syncPath := touched.syncPath || !syncPathMatches actual expected
  webdav := touched.webdav || !webdavMatches actual.webdav expected.webdav
  cloud := touched.cloud || !cloudMatches actual.cloud expected.cloud
  cloudProvider := touched.cloudProvider || actual.cloudProvider != expected.cloudProvider

def configurationMatches (actual expected : PersistedSyncConfiguration) : Bool :=
  actual.backend == expected.backend
    && syncPathMatches actual expected
    && actual.cloudProvider == expected.cloudProvider
    && webdavMatches actual.webdav expected.webdav
    && cloudMatches actual.cloud expected.cloud

/-! ### The transaction -/

/-- What `commitProvenSyncConfiguration` assigns before it is caught. -/
structure CommitProgress where
  touched : TouchedTransportFields
  candidateMutationStarted : Bool
  credentialPromotionAttempted : Bool

abbrev Commit := Transaction PortCall PortAnswer PortFailure TransactionError CommitProgress

namespace Commit

def call (op : PortCall) : Commit (PortAnswer op) := Transaction.call .failure op

def touch (f : TouchedTransportFields → TouchedTransportFields) : Commit PUnit :=
  modify fun progress => { progress with touched := f progress.touched }

/-- The failures of the attempts so far, with that of the operation. -/
def attempt (failures : List String) (label : String) (operation : Commit Unit) : Commit (List String) :=
  tryCatch (do operation; return failures) fun error =>
    return failures ++ [label ++ ": " ++ errorMessage error]

end Commit

open Commit Transaction

def noRequirements : SyncConfigurationSecretRequirements := ⟨false, false⟩

def ensureBackendDisabled (requirements : SyncConfigurationSecretRequirements) :
    Commit PersistedSyncConfiguration := do
  call (.writeBackend .off)
  let disabled ← call (.readConfiguration requirements)
  check (disabled.backend == .off) (newError "Sync backend is not durably disabled")
  return disabled

def writeCheckedSyncPath (path : String) (bookmark : Option String) (fallback : String) :
    Commit SyncPathResult := do
  let result ← call (.writeSyncPath path bookmark)
  check result.success (newError ((result.error.filter (· ≠ "")).getD fallback))
  return result

def restoreSyncPath (previous : PersistedSyncConfiguration) (touched : TouchedTransportFields)
    (failures : List String) : Commit (List String) :=
  if touched.syncPath then
    if previous.syncPath ≠ "" then
      attempt failures "restore file path" do
        let _ ← writeCheckedSyncPath previous.syncPath previous.syncPathBookmark "Failed to restore sync path"
    else attempt failures "clear file path" (call .clearSyncPath)
  else return failures

def writableWebDav (webdav : PersistedWebDavConfiguration) (password : String) (hasPassword : Bool) :
    WritableWebDavConfiguration :=
  ⟨webdav.url, webdav.username, password, hasPassword, webdav.allowInsecureHttp, webdav.allowWeakFingerprint⟩

def writableCloud (cloud : PersistedCloudConfiguration) (token : String) : WritableCloudConfiguration :=
  ⟨cloud.url, token, cloud.allowInsecureHttp, cloud.rememberToken⟩

/-- `cleanOpaquePrior` of the WebDAV configuration. -/
def cleanOpaqueWebDav (previous : PersistedSyncConfiguration) : Bool :=
  previous.backend != .webdav && isBlank previous.webdav.url && isBlank previous.webdav.username
    && previous.webdav.hasPassword != some true

/-- `cleanOpaquePrior` of the self-hosted configuration. -/
def cleanOpaqueCloud (previous : PersistedSyncConfiguration) : Bool :=
  !(previous.backend == .cloud && previous.cloudProvider == .selfhosted) && isBlank previous.cloud.url
    && !previous.cloud.rememberToken

def knownPassword (webdav : PersistedWebDavConfiguration) : Option String :=
  if webdav.passwordAuthority = .known then webdav.password else none

def knownToken (cloud : PersistedCloudConfiguration) : Option String :=
  if cloud.tokenAuthority = .known then cloud.token else none

def restoreWebDav (previous : PersistedSyncConfiguration) (touched : TouchedTransportFields)
    (failures : List String) : Commit (List String) :=
  if touched.webdav then
    match knownPassword previous.webdav with
    | none =>
      if cleanOpaqueWebDav previous then
        attempt failures "restore empty WebDAV config"
          (call (.writeWebDav (writableWebDav previous.webdav "" false)))
      else return failures ++ ["restore WebDAV config: previous password is opaque"]
    | some previousPassword =>
      attempt failures "restore WebDAV config"
        (call (.writeWebDav (writableWebDav previous.webdav previousPassword
          (previous.webdav.hasPassword == some true))))
  else return failures

def restoreCloud (previous : PersistedSyncConfiguration) (touched : TouchedTransportFields)
    (failures : List String) : Commit (List String) :=
  if touched.cloud then
    match knownToken previous.cloud with
    | none =>
      if cleanOpaqueCloud previous then
        attempt failures "restore empty cloud config" (call (.writeCloud (writableCloud previous.cloud "")))
      else return failures ++ ["restore cloud config: previous token is opaque"]
    | some previousToken =>
      attempt failures "restore cloud config" (call (.writeCloud (writableCloud previous.cloud previousToken)))
  else return failures

def restoreCloudProvider (previous : PersistedSyncConfiguration) (touched : TouchedTransportFields)
    (failures : List String) : Commit (List String) :=
  if touched.cloudProvider then
    attempt failures "restore cloud provider" (call (.writeCloudProvider previous.cloudProvider))
  else return failures

def verifyConfiguration (requirements : SyncConfigurationSecretRequirements)
    (expected : PersistedSyncConfiguration) (message : String) : Commit Unit := do
  let restored ← call (.readConfiguration requirements)
  check (configurationMatches restored expected) (newError message)

def verifyRestored (previous : PersistedSyncConfiguration) (requirements : SyncConfigurationSecretRequirements)
    (failures : List String) : Commit (List String) :=
  if failures = [] then
    attempt failures "verify restored transports"
      (verifyConfiguration requirements { previous with backend := .off }
        "restored transport values do not match the last proven configuration")
  else return failures

def reactivatePrevious (previous : PersistedSyncConfiguration)
    (requirements : SyncConfigurationSecretRequirements) (reactivatePreviousBackend : Bool)
    (failures : List String) : Commit (List String) :=
  if failures = [] ∧ reactivatePreviousBackend = true ∧ previous.backend ≠ .off then do
    let failures ← attempt failures "reactivate previous backend" (call (.writeBackend previous.backend))
    attempt failures "verify previous backend"
      (verifyConfiguration requirements previous
        "reactivated configuration does not match the last proven configuration")
  else return failures

def restoreLastProvenConfiguration (previous : PersistedSyncConfiguration) (reactivatePreviousBackend : Bool)
    (requirements : SyncConfigurationSecretRequirements) (touched : TouchedTransportFields) : Commit Unit := do
  tryCatch (do let _ ← ensureBackendDisabled noRequirements) fun error => do
    let _ ← attempt [] "keep sync disabled" (call (.writeBackend .off))
    throw (.disabled ("Previous sync settings were not restored because sync could not be durably disabled. "
      ++ errorMessage error))
  let failures ← restoreSyncPath previous touched []
  let failures ← restoreWebDav previous touched failures
  let failures ← restoreCloud previous touched failures
  let failures ← restoreCloudProvider previous touched failures
  let failures ← verifyRestored previous requirements failures
  let failures ← reactivatePrevious previous requirements reactivatePreviousBackend failures
  if failures = [] then return
  else
    let failures ← attempt failures "keep sync disabled" (call (.writeBackend .off))
    throw (.disabled ("Previous sync settings could not be fully restored; sync remains disabled. "
      ++ "; ".intercalate failures))

def candidatePassword (webdav : CandidateWebDavConfiguration) (previous : Option String) : String :=
  if isBlankSecret webdav.password then previous.getD "" else trim (webdav.password.getD "")

def candidateToken (cloud : CandidateCloudConfiguration) (previous : Option String) : String :=
  if isBlank cloud.token then previous.getD "" else trim cloud.token

def writeCandidateWebDav (candidate : CandidateWebDavConfiguration) (previous : PersistedSyncConfiguration) :
    Commit PersistedSyncConfiguration := do
  check (previous.webdav.passwordAuthority != .opaqueSecret || !isBlankSecret candidate.password)
    (newError "A WebDAV password is required because no prior password is available")
  let password := candidatePassword candidate (knownPassword previous.webdav)
  let webdav : PersistedWebDavConfiguration :=
    { url := candidate.url
      username := candidate.username
      password := some password
      passwordAuthority := .known
      hasPassword := some (password != "")
      allowInsecureHttp := candidate.allowInsecureHttp.getD previous.webdav.allowInsecureHttp
      allowWeakFingerprint := candidate.allowWeakFingerprint.getD previous.webdav.allowWeakFingerprint }
  touch fun touched => { touched with webdav := true }
  call (.writeWebDav (writableWebDav webdav password (password != "")))
  return { previous with backend := .off, webdav }

def writeCandidateCloud (candidate : CandidateCloudConfiguration) (previous : PersistedSyncConfiguration) :
    Commit PersistedSyncConfiguration := do
  check (previous.cloud.tokenAuthority != .opaqueSecret || !isBlank candidate.token)
    (newError "A self-hosted token is required because no prior token is available")
  let token := candidateToken candidate (knownToken previous.cloud)
  let cloud : PersistedCloudConfiguration :=
    { url := candidate.url
      token := some token
      tokenAuthority := .known
      allowInsecureHttp := candidate.allowInsecureHttp.getD previous.cloud.allowInsecureHttp
      rememberToken := candidate.rememberToken.getD previous.cloud.rememberToken }
  touch fun touched => { touched with cloud := true }
  call (.writeCloud (writableCloud cloud token))
  touch fun touched => { touched with cloudProvider := true }
  call (.writeCloudProvider .selfhosted)
  return { previous with backend := .off, cloudProvider := .selfhosted, cloud }

def writeCandidateProvider (provider : CloudProvider) (previous : PersistedSyncConfiguration) :
    Commit PersistedSyncConfiguration := do
  touch fun touched => { touched with cloudProvider := true }
  call (.writeCloudProvider provider)
  return { previous with backend := .off, cloudProvider := provider }

def writeCandidateTransport (candidate : SyncConfigurationCandidate) (previous : PersistedSyncConfiguration) :
    Commit PersistedSyncConfiguration :=
  match candidate.backend with
  | .file => do
    touch fun touched => { touched with syncPath := true }
    let result ← writeCheckedSyncPath (candidate.syncPath.getD "") candidate.syncPathBookmark
      "Failed to save sync path"
    return { previous with
      backend := .off, syncPath := result.path, syncPathBookmark := candidate.syncPathBookmark }
  | .webdav =>
    match candidate.webdav with
    | none => throw (newError "WebDAV configuration is required")
    | some webdav => writeCandidateWebDav webdav previous
  | .cloud =>
    match candidate.cloudProvider.getD .selfhosted with
    | .selfhosted =>
      match candidate.cloud with
      | none => throw (newError "Self-hosted configuration is required")
      | some cloud => writeCandidateCloud cloud previous
    | .dropbox => writeCandidateProvider .dropbox previous
  | .off | .cloudkit =>
    match candidate.cloudProvider with
    | some provider => writeCandidateProvider provider previous
    | none => return { previous with backend := .off }

/-- The promotion of a staged Dropbox credential, while sync is off. -/
def promoteCredentials (credentialHandle : Option String)
    (verificationRequirements : SyncConfigurationSecretRequirements)
    (expectedDisabled : PersistedSyncConfiguration) : Commit Unit :=
  match credentialHandle with
  | none => return
  | some credentialHandle => do
    modify fun progress => { progress with credentialPromotionAttempted := true }
    call (.promoteDropboxCredentials credentialHandle)
    verifyConfiguration verificationRequirements expectedDisabled
      "Dropbox credentials were promoted while sync was not durably disabled"

/-- The candidate over a configuration that is proven to be disabled and otherwise as before. -/
def commitOverDisabled (candidate : SyncConfigurationCandidate) (credentialHandle : Option String)
    (previous : PersistedSyncConfiguration) (requirements : SyncConfigurationSecretRequirements) :
    Commit Unit := do
  let expectedDisabled ← writeCandidateTransport candidate previous
  let progress ← get
  let verificationRequirements : SyncConfigurationSecretRequirements :=
    { requireWebdavPassword := requirements.requireWebdavPassword || progress.touched.webdav
      requireCloudToken := requirements.requireCloudToken || progress.touched.cloud }
  verifyConfiguration verificationRequirements expectedDisabled
    "Persisted sync settings did not match the proven candidate"
  promoteCredentials credentialHandle verificationRequirements expectedDisabled
  call (.writeBackend candidate.backend)
  verifyConfiguration verificationRequirements { expectedDisabled with backend := candidate.backend }
    "Activated sync settings did not match the proven candidate"

/-- The body of the `try` of `commitProvenSyncConfiguration`. -/
def commitCandidate (candidate : SyncConfigurationCandidate) (credentialHandle : Option String)
    (previous : PersistedSyncConfiguration) (requirements : SyncConfigurationSecretRequirements) :
    Commit Unit := do
  modify fun progress => { progress with candidateMutationStarted := true }
  let initialDisabled ← ensureBackendDisabled requirements
  if configurationMatches initialDisabled { previous with backend := .off } then
    commitOverDisabled candidate credentialHandle previous requirements
  else
    touch (markChangedTransportFields initialDisabled { previous with backend := .off })
    throw (newError "Disabling sync changed the persisted transport configuration")

/-- The error that a call throws, if it throws one. -/
def caught (operation : Commit Unit) : Commit (Option TransactionError) :=
  tryCatch (do operation; return none) fun error => return some error

/-- The error of a rollback that could not disable sync. -/
def disableForRollback : Commit (Option TransactionError) := do
  match ← caught (do let _ ← ensureBackendDisabled noRequirements) with
  | none => return none
  | some disableError =>
    match ← caught (call (.writeBackend .off)) with
    | none => return some disableError
    | some bestEffortDisableError =>
      return some (newError (errorMessage disableError ++ ". " ++ errorMessage bestEffortDisableError))

def discardStagedCredentials (credentialHandle : Option String) (progress : CommitProgress) :
    Commit (Option TransactionError) :=
  match credentialHandle.filter fun _ => !progress.credentialPromotionAttempted with
  | some credentialHandle => caught (call (.discardDropboxCredentials credentialHandle))
  | none => return none

def rollbackPromotedCredentials (credentialHandle : Option String) (progress : CommitProgress) :
    Commit (Option TransactionError) :=
  match credentialHandle.filter fun _ => progress.credentialPromotionAttempted with
  | some credentialHandle => caught (call (.rollbackDropboxCredentials credentialHandle))
  | none => return none

/-- The error of a transaction whose transport has been restored. -/
def restoredError (commitError : TransactionError)
    (credentialCleanupError credentialRollbackError : Option TransactionError) : TransactionError :=
  match credentialRollbackError, credentialCleanupError with
  | some credentialRollbackError, _ =>
    .disabled (errorMessage commitError
      ++ ". Previous Dropbox credentials could not be restored; sync remains disabled. "
      ++ errorMessage credentialRollbackError)
  | none, some credentialCleanupError =>
    newError (errorMessage commitError
      ++ ". Previous sync settings were restored, but the staged Dropbox credential could not be discarded. "
      ++ errorMessage credentialCleanupError)
  | none, none => commitError

def withDetail (detail : String) (error : Option TransactionError) : String :=
  (error.map fun error => detail ++ errorMessage error).getD ""

/-- The rollback of a transaction that has started to change what is stored. -/
def rollbackTransport (credentialHandle : Option String) (previous : PersistedSyncConfiguration)
    (requirements : SyncConfigurationSecretRequirements) (progress : CommitProgress)
    (commitError : TransactionError) (credentialCleanupError : Option TransactionError) : Commit Unit := do
  let rollbackDisableError ← disableForRollback
  let credentialRollbackError ← rollbackPromotedCredentials credentialHandle progress
  match rollbackDisableError with
  | some rollbackDisableError =>
    throw (.disabled (errorMessage commitError
      ++ ". Sync could not be durably disabled for transport rollback; no further transport changes were attempted. "
      ++ errorMessage rollbackDisableError
      ++ withDetail " Previous Dropbox credentials could not be restored. " credentialRollbackError))
  | none =>
    tryCatch (restoreLastProvenConfiguration previous credentialRollbackError.isNone requirements
      progress.touched) fun rollbackError =>
      throw (.disabled (errorMessage commitError ++ ". " ++ errorMessage rollbackError
        ++ withDetail " " credentialCleanupError ++ withDetail " " credentialRollbackError))
    throw (restoredError commitError credentialCleanupError credentialRollbackError)

/-- The body of the `catch` of `commitProvenSyncConfiguration`. -/
def rollbackCandidate (credentialHandle : Option String) (previous : PersistedSyncConfiguration)
    (requirements : SyncConfigurationSecretRequirements) (commitError : TransactionError) : Commit Unit := do
  let progress ← get
  let credentialCleanupError ← discardStagedCredentials credentialHandle progress
  if progress.candidateMutationStarted then
    rollbackTransport credentialHandle previous requirements progress commitError credentialCleanupError
  else
    match credentialCleanupError with
    | some credentialCleanupError =>
      throw (newError (errorMessage commitError ++ ". " ++ errorMessage credentialCleanupError))
    | none => throw commitError

structure SyncConfigurationCommitResult where
  cleanupPending : Bool
  handleFinalized : Bool
deriving DecidableEq

/-- What follows the commit point. -/
def finalizeCredentials (credentialHandle : Option String) : Commit SyncConfigurationCommitResult :=
  match credentialHandle with
  | none => return ⟨false, true⟩
  | some credentialHandle => do
    let error ← caught (call (.finalizeDropboxCredentials credentialHandle))
    return ⟨error.isSome, error.isNone⟩

def readPrevious (candidate : SyncConfigurationCandidate) :
    Commit (PersistedSyncConfiguration × SyncConfigurationSecretRequirements) := do
  let tolerantPrevious ← call (.readConfiguration noRequirements)
  let requirements := getCandidateSecretRequirements candidate tolerantPrevious
  if requirements.requireWebdavPassword || requirements.requireCloudToken then
    let previous ← call (.readConfiguration requirements)
    return (previous, requirements)
  else return (tolerantPrevious, requirements)

/-- The transaction once the credentials of an earlier one are settled. -/
def commitSettled (candidate : SyncConfigurationCandidate) (credentialHandle : Option String) :
    Commit SyncConfigurationCommitResult := do
  let (previous, requirements) ← readPrevious candidate
  tryCatch (commitCandidate candidate credentialHandle previous requirements)
    (rollbackCandidate credentialHandle previous requirements)
  finalizeCredentials credentialHandle

def commitProvenSyncConfiguration (candidate : SyncConfigurationCandidate) :
    Commit SyncConfigurationCommitResult := do
  let credentialHandle := (candidate.dropboxCredentialHandle.map trim).filter (· ≠ "")
  check (credentialHandle.isNone
      || (candidate.backend == .cloud && candidate.cloudProvider == some .dropbox))
    (newError "A staged Dropbox credential can only activate the Dropbox backend")
  if credentialHandle.isNone then do
    call .recoverDropboxCredentialsBeforeConfiguration
    commitSettled candidate credentialHandle
  else commitSettled candidate credentialHandle

def initialProgress : CommitProgress := ⟨createTouchedTransportFields, false, false⟩

/-- A transaction at its start. -/
def commitRun (candidate : SyncConfigurationCandidate) :
    Calls PortCall PortAnswer PortFailure
      (Except TransactionError SyncConfigurationCommitResult × CommitProgress) :=
  (commitProvenSyncConfiguration candidate).run.run initialProgress

end Mindwtr.Sync
