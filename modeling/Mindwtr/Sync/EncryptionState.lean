import Mindwtr.Js.Runtime
import Mindwtr.Js.Throw
import Mindwtr.Lib.System

/-!
# The encryption record of a device

A device keeps one record of where it stands with the encryption of its sync location, and in its key cache at most one
key. Read seams write the record when they discover ciphertext or plaintext; a transition journals its kind before it
first writes to the remote and clears the journal with the last write; an unlock caches a key that the remote's document
has proved.

Every writer rebuilds the record. A discovery of foreign ciphertext rebuilds it without the journal
(`markRemoteEncryptionDiscovered_forgets`); with no such write while a journal is recorded, the journal stays until a
transition completes, no discovery weakens a record, and the record of a device with a key names the key's salt and
costs (`encryption_protected`).
-/

namespace Mindwtr.Sync

open Mindwtr.Js Mindwtr.Lib

inductive SyncEncryptionState where
  | off
  | enabled
  | remoteEncryptedNoKey
  | remotePlaintext
deriving DecidableEq, Repr

inductive SyncEncryptionTransitionKind where
  | enable
  | disable
  | changePassphrase
deriving DecidableEq, Repr

structure SyncCryptoKdfParams where
  mKib : Nat
  t : Nat
  p : Nat
deriving DecidableEq, Repr

structure SyncKeyMaterial where
  key : List UInt8
  salt : List UInt8
  params : SyncCryptoKdfParams
deriving DecidableEq, Repr

structure SyncEncryptionLocalState where
  state : SyncEncryptionState
  discoveredSalt : Option String := none
  discoveredParams : Option SyncCryptoKdfParams := none
  discoveredScope : Option String := none
  incompleteTransition : Option SyncEncryptionTransitionKind := none
deriving DecidableEq, Repr

def bytesToHex (bytes : List UInt8) : String :=
  bytes.foldl (fun out b => out ++ padStart 2 (String.ofList (Nat.toDigits 16 b.toNat))) ""

/-- The states in which a device owns a usable key. -/
def syncEncryptionKeyedStates : List SyncEncryptionState := [.enabled, .remotePlaintext]

def SyncEncryptionState.keyed (state : SyncEncryptionState) : Bool := decide (state ∈ syncEncryptionKeyedStates)

/-- The record that a device stores, `none` for the implicit off, and the cached key with what it was derived from. -/
structure EncryptionDevice where
  localState : Option SyncEncryptionLocalState
  keyCache : Option SyncKeyMaterial
deriving DecidableEq, Repr

/-- The device owns a key, and its record names this salt for it. -/
def EncryptionDevice.keyedUnder (device : EncryptionDevice) (salt : List UInt8) : Bool :=
  device.localState.any fun current =>
    current.state.keyed && decide (current.discoveredSalt = some (bytesToHex salt))

inductive EncryptionRefusal where
  | transitionIncomplete (kind : SyncEncryptionTransitionKind)
  | enableRequiresOff (found : SyncEncryptionState)
  | noEncryptedRemote
deriving DecidableEq, Repr

/-- Must the device refuse to sync with this location before it touches the remote? -/
def isSyncEncryptionStateBlocked (state : Option SyncEncryptionLocalState) (activeScope : Option String) : Bool :=
  match state with
  | none => false
  | some state =>
    if state.incompleteTransition.isSome then true
    else if state.state ≠ .remoteEncryptedNoKey ∧ state.state ≠ .remotePlaintext then false
    else
      match state.discoveredScope with
      | none => false
      | some scope => scope != "" && activeScope.all (· == scope)

/-! ### The writers -/

/-- A record under a named location; without a name the location of before stays. -/
def SyncEncryptionLocalState.withScope (state : SyncEncryptionLocalState) (scope : Option String) :
    SyncEncryptionLocalState :=
  match scope with
  | none => state
  | some scope => if scope = "" then state else { state with discoveredScope := some scope }

def requireMatchingIncompleteTransition (device : EncryptionDevice) (kind : SyncEncryptionTransitionKind) :
    Except EncryptionRefusal (Option SyncEncryptionLocalState) :=
  match device.localState.bind (·.incompleteTransition) with
  | none => .ok device.localState
  | some journal => if journal = kind then .ok device.localState else .error (.transitionIncomplete journal)

def beginSyncEncryptionTransition (device : EncryptionDevice) (kind : SyncEncryptionTransitionKind) :
    Except EncryptionRefusal EncryptionDevice := do
  let current ← requireMatchingIncompleteTransition device kind
  return { device with
    localState := some { current.getD { state := .off } with incompleteTransition := some kind } }

def assertNoIncompleteSyncEncryptionTransition (device : EncryptionDevice) : Except EncryptionRefusal Unit :=
  match device.localState.bind (·.incompleteTransition) with
  | none => .ok ()
  | some kind => .error (.transitionIncomplete kind)

def markRemoteEncryptionDiscovered (device : EncryptionDevice) (salt : List UInt8) (params : SyncCryptoKdfParams)
    (scope : Option String) : EncryptionDevice :=
  if device.keyedUnder salt then device
  else
    { device with
      localState := some <| SyncEncryptionLocalState.withScope
        { state := .remoteEncryptedNoKey, discoveredSalt := some (bytesToHex salt), discoveredParams := some params }
        scope }

def markRemotePlaintextDiscovered (device : EncryptionDevice) (scope : Option String) : EncryptionDevice :=
  match device.localState with
  | none => device
  | some current =>
    if current.state ≠ .enabled then device
    else { device with localState := some ({ current with state := .remotePlaintext }.withScope scope) }

/-- A "not now" to the passphrase prompt. -/
def reaffirmRemoteEncryptionNoKey (device : EncryptionDevice) : EncryptionDevice :=
  match device.localState with
  | none => device
  | some current =>
    if current.state ≠ .remoteEncryptedNoKey then device else { device with localState := some current }

/-- The two writes that end a transition or an unlock with a key: the key, then the record that names its salt. -/
def commitEnabled (device : EncryptionDevice) (material : SyncKeyMaterial) : EncryptionDevice :=
  { device with
    keyCache := some material
    localState := some
      { state := .enabled, discoveredSalt := some (bytesToHex material.salt), discoveredParams := some material.params } }

/-- The two writes that end a transition without a key. -/
def commitOff (device : EncryptionDevice) : EncryptionDevice := { device with localState := none, keyCache := none }

def runEnableSyncEncryptionLocalOnly (device : EncryptionDevice) (material : SyncKeyMaterial) :
    Except EncryptionRefusal EncryptionDevice := do
  assertNoIncompleteSyncEncryptionTransition device
  match device.localState with
  | none => return commitEnabled device material
  | some current =>
    if current.state ≠ .off then throw (.enableRequiresOff current.state)
    return commitEnabled device material

def runDisableSyncEncryptionLocalOnly (device : EncryptionDevice) : Except EncryptionRefusal EncryptionDevice := do
  assertNoIncompleteSyncEncryptionTransition device
  return commitOff device

/-- What the remote answers an unlock: the material that opened its document, or that it holds none. -/
def runProvideSyncEncryptionPassphraseOverRemote (device : EncryptionDevice) (opened : Option SyncKeyMaterial) :
    Except EncryptionRefusal EncryptionDevice := do
  assertNoIncompleteSyncEncryptionTransition device
  match opened with
  | some material => return commitEnabled device material
  | none =>
    if device.localState.map (·.state) = some .remoteEncryptedNoKey then runDisableSyncEncryptionLocalOnly device
    else throw .noEncryptedRemote

/-! ### Runs -/

/-- What may happen to the record. A device serialises its transitions and unlocks, so that what one of them has checked
still holds at its last write; the discoveries come at any moment. Of a transition over a remote these are the journal
and the writes that complete it: one that finds nothing to rewrite completes without a journal. -/
inductive EncryptionEvent where
  | remoteEncryptionDiscovered (salt : List UInt8) (params : SyncCryptoKdfParams) (scope : Option String)
  | remotePlaintextDiscovered (scope : Option String)
  | passphraseDeclined
  | transitionBegins (kind : SyncEncryptionTransitionKind)
  | enableCompletes (material : SyncKeyMaterial)
  | changePassphraseCompletes (material : SyncKeyMaterial)
  | disableCompletes
  | enableLocalOnly (material : SyncKeyMaterial)
  | disableLocalOnly
  | passphraseProvided (opened : Option SyncKeyMaterial)
deriving DecidableEq, Repr

def encryptionStep (device : EncryptionDevice) : EncryptionEvent → Option EncryptionDevice
  | .remoteEncryptionDiscovered salt params scope => some (markRemoteEncryptionDiscovered device salt params scope)
  | .remotePlaintextDiscovered scope => some (markRemotePlaintextDiscovered device scope)
  | .passphraseDeclined => some (reaffirmRemoteEncryptionNoKey device)
  | .transitionBegins kind => (beginSyncEncryptionTransition device kind).toOption
  | .enableCompletes material => some (commitEnabled device material)
  | .changePassphraseCompletes material => some (commitEnabled device material)
  | .disableCompletes => some (commitOff device)
  | .enableLocalOnly material => (runEnableSyncEncryptionLocalOnly device material).toOption
  | .disableLocalOnly => (runDisableSyncEncryptionLocalOnly device).toOption
  | .passphraseProvided opened => (runProvideSyncEncryptionPassphraseOverRemote device opened).toOption

/-! ### What a discovery must leave -/

namespace EncryptionEvent

def completesTransition : EncryptionEvent → Bool
  | enableCompletes _ | changePassphraseCompletes _ | disableCompletes | enableLocalOnly _ | disableLocalOnly => true
  | _ => false

def unlocks : EncryptionEvent → Bool
  | passphraseProvided _ => true
  | _ => false

end EncryptionEvent

namespace EncryptionDevice

variable (device : EncryptionDevice)

def journal : Option SyncEncryptionTransitionKind := device.localState.bind (·.incompleteTransition)

def state : SyncEncryptionState := (device.localState.map (·.state)).getD .off

/-- While the record says that the device owns a key, it names the salt and the costs of the key that is cached. -/
def KeyRecorded : Prop :=
  ∀ record, device.localState = some record → record.state.keyed = true →
    ∃ material, device.keyCache = some material ∧ record.discoveredSalt = some (bytesToHex material.salt) ∧
      record.discoveredParams = some material.params

end EncryptionDevice

/-- No foreign ciphertext is discovered while a journal is recorded. -/
def KeepsJournal (device : EncryptionDevice) : EncryptionEvent → Prop
  | .remoteEncryptionDiscovered salt _ _ => device.journal = none ∨ device.keyedUnder salt = true
  | _ => True

/-- What an event leaves of the protection of a device. -/
structure Protects (device : EncryptionDevice) (event : EncryptionEvent) (next : EncryptionDevice) : Prop where
  journal : ∀ kind, device.journal = some kind → next.journal = some kind ∨ event.completesTransition = true
  keyed : ∀ salt params scope, event = .remoteEncryptionDiscovered salt params scope →
    device.keyedUnder salt = true → next = device
  noKey : device.state = .remoteEncryptedNoKey →
    next.state = .remoteEncryptedNoKey ∨ event.completesTransition = true ∨ event.unlocks = true
  recorded : device.KeyRecorded → next.KeyRecorded

section
variable {device next later start : EncryptionDevice} {event : EncryptionEvent} {kind : SyncEncryptionTransitionKind}
  {material : SyncKeyMaterial} {salt : List UInt8} {params : SyncCryptoKdfParams} {scope : Option String}

@[simp] theorem withScope_state (record : SyncEncryptionLocalState) (scope : Option String) :
    (record.withScope scope).state = record.state := by
  unfold SyncEncryptionLocalState.withScope
  split
  · rfl
  · split <;> rfl

@[simp] theorem withScope_salt (record : SyncEncryptionLocalState) (scope : Option String) :
    (record.withScope scope).discoveredSalt = record.discoveredSalt := by
  unfold SyncEncryptionLocalState.withScope
  split
  · rfl
  · split <;> rfl

@[simp] theorem withScope_params (record : SyncEncryptionLocalState) (scope : Option String) :
    (record.withScope scope).discoveredParams = record.discoveredParams := by
  unfold SyncEncryptionLocalState.withScope
  split
  · rfl
  · split <;> rfl

@[simp] theorem withScope_journal (record : SyncEncryptionLocalState) (scope : Option String) :
    (record.withScope scope).incompleteTransition = record.incompleteTransition := by
  unfold SyncEncryptionLocalState.withScope
  split
  · rfl
  · split <;> rfl

/-! ### The record after each event -/

theorem journal_of_assertNoIncomplete {u : Unit}
    (h : assertNoIncompleteSyncEncryptionTransition device = .ok u) : device.journal = none := by
  unfold assertNoIncompleteSyncEncryptionTransition at h
  split at h
  · assumption
  · cases h

theorem begin_ok (h : beginSyncEncryptionTransition device kind = .ok next) :
    (device.journal = none ∨ device.journal = some kind) ∧
      next = { device with
        localState := some { device.localState.getD { state := .off } with incompleteTransition := some kind } } := by
  obtain ⟨current, hcurrent, h⟩ := bind_eq_ok h
  obtain rfl := Except.ok.inj h
  unfold requireMatchingIncompleteTransition at hcurrent
  split at hcurrent
  · rename_i hjournal
    obtain rfl := Except.ok.inj hcurrent
    exact ⟨.inl hjournal, rfl⟩
  · rename_i journal hjournal
    split at hcurrent
    · rename_i hkind
      obtain rfl := Except.ok.inj hcurrent
      exact ⟨.inr (hkind ▸ hjournal), rfl⟩
    · cases hcurrent

theorem disableLocalOnly_ok (h : runDisableSyncEncryptionLocalOnly device = .ok next) :
    device.journal = none ∧ next = commitOff device := by
  obtain ⟨u, hfree, h⟩ := bind_eq_ok h
  exact ⟨journal_of_assertNoIncomplete hfree, (Except.ok.inj h).symm⟩

theorem enableLocalOnly_ok (h : runEnableSyncEncryptionLocalOnly device material = .ok next) :
    device.journal = none ∧ device.state = .off ∧ next = commitEnabled device material := by
  obtain ⟨u, hfree, h⟩ := bind_eq_ok h
  refine ⟨journal_of_assertNoIncomplete hfree, ?_⟩
  split at h
  · rename_i hnone
    exact ⟨by simp [EncryptionDevice.state, hnone], (Except.ok.inj h).symm⟩
  · rename_i current hcurrent
    split at h
    · cases h
    · rename_i hoff
      exact ⟨by simpa [EncryptionDevice.state, hcurrent] using hoff, (Except.ok.inj h).symm⟩

theorem providePassphrase_ok {opened : Option SyncKeyMaterial}
    (h : runProvideSyncEncryptionPassphraseOverRemote device opened = .ok next) :
    device.journal = none ∧ (next = commitOff device ∨ ∃ material, next = commitEnabled device material) := by
  obtain ⟨u, hfree, h⟩ := bind_eq_ok h
  refine ⟨journal_of_assertNoIncomplete hfree, ?_⟩
  cases opened with
  | some material => exact .inr ⟨material, (Except.ok.inj h).symm⟩
  | none =>
    dsimp only at h
    split at h
    · exact .inl (disableLocalOnly_ok h).2
    · cases h

/-- The events that commit write both halves; the others leave the key cache alone. -/
theorem encryptionStep_commits (h : encryptionStep device event = some next)
    (hevent : event.completesTransition = true ∨ event.unlocks = true) :
    (next = commitOff device ∨ ∃ material, next = commitEnabled device material) ∧
      (event.unlocks = true → device.journal = none) := by
  cases event <;> simp only [EncryptionEvent.completesTransition, EncryptionEvent.unlocks, Bool.false_eq_true,
    or_self] at hevent
  case enableCompletes material => exact ⟨.inr ⟨material, (Option.some.inj h).symm⟩, by simp [EncryptionEvent.unlocks]⟩
  case changePassphraseCompletes material =>
    exact ⟨.inr ⟨material, (Option.some.inj h).symm⟩, by simp [EncryptionEvent.unlocks]⟩
  case disableCompletes => exact ⟨.inl (Option.some.inj h).symm, by simp [EncryptionEvent.unlocks]⟩
  case enableLocalOnly material =>
    exact ⟨.inr ⟨material, (enableLocalOnly_ok (toOption_eq_some h)).2.2⟩, by simp [EncryptionEvent.unlocks]⟩
  case disableLocalOnly =>
    exact ⟨.inl (disableLocalOnly_ok (toOption_eq_some h)).2, by simp [EncryptionEvent.unlocks]⟩
  case passphraseProvided opened =>
    obtain ⟨hfree, hnext⟩ := providePassphrase_ok (toOption_eq_some h)
    exact ⟨hnext, fun _ => hfree⟩

/-- Everything that is no commit: the discovery of ciphertext, and what keeps the rest of the record. -/
theorem encryptionStep_keeps (h : encryptionStep device event = some next)
    (hcompletes : event.completesTransition = false) (hunlocks : event.unlocks = false) :
    next = device ∨
    (∃ salt params scope, event = .remoteEncryptionDiscovered salt params scope ∧ device.keyedUnder salt = false ∧
      next = { device with
        localState := some <| SyncEncryptionLocalState.withScope
          { state := .remoteEncryptedNoKey, discoveredSalt := some (bytesToHex salt), discoveredParams := some params }
          scope }) ∨
    (∃ current scope, event = .remotePlaintextDiscovered scope ∧ device.localState = some current ∧
      current.state = .enabled ∧
      next = { device with localState := some ({ current with state := .remotePlaintext }.withScope scope) }) ∨
    ∃ kind, event = .transitionBegins kind ∧ (device.journal = none ∨ device.journal = some kind) ∧
      next = { device with
        localState := some { device.localState.getD { state := .off } with incompleteTransition := some kind } } := by
  cases event <;> simp only [EncryptionEvent.completesTransition, EncryptionEvent.unlocks, Bool.true_eq_false]
    at hcompletes hunlocks
  case remoteEncryptionDiscovered salt params scope =>
    obtain rfl := Option.some.inj h
    unfold markRemoteEncryptionDiscovered
    split
    · exact .inl rfl
    · rename_i hkeyed
      exact .inr (.inl ⟨salt, params, scope, rfl, by simpa using hkeyed, rfl⟩)
  case remotePlaintextDiscovered scope =>
    obtain rfl := Option.some.inj h
    unfold markRemotePlaintextDiscovered
    split
    · exact .inl rfl
    · rename_i current hcurrent
      split
      · exact .inl rfl
      · rename_i henabled
        exact .inr (.inr (.inl ⟨current, scope, rfl, hcurrent, by simpa using henabled, rfl⟩))
  case passphraseDeclined =>
    obtain rfl := Option.some.inj h
    unfold reaffirmRemoteEncryptionNoKey
    split
    · exact .inl rfl
    · rename_i current hcurrent
      split
      · exact .inl rfl
      · left
        rw [← hcurrent]
  case transitionBegins kind =>
    obtain ⟨hfree, hnext⟩ := begin_ok (toOption_eq_some h)
    exact .inr (.inr (.inr ⟨kind, rfl, hfree, hnext⟩))

/-! ### One event -/

theorem commitEnabled_recorded : (commitEnabled device material).KeyRecorded := by
  intro record hrecord _
  obtain rfl := Option.some.inj hrecord
  exact ⟨material, rfl, rfl, rfl⟩

theorem commitOff_recorded : (commitOff device).KeyRecorded := by
  intro record hrecord
  cases hrecord

theorem KeyRecorded.step (hdevice : device.KeyRecorded) (h : encryptionStep device event = some next) :
    next.KeyRecorded := by
  by_cases hevent : event.completesTransition = true ∨ event.unlocks = true
  · rcases (encryptionStep_commits h hevent).1 with rfl | ⟨material, rfl⟩
    · exact commitOff_recorded
    · exact commitEnabled_recorded
  · simp only [not_or, Bool.not_eq_true] at hevent
    rcases encryptionStep_keeps h hevent.1 hevent.2 with rfl | ⟨salt, params, scope, -, -, rfl⟩ |
      ⟨current, scope, -, hcurrent, henabled, rfl⟩ | ⟨kind, -, -, rfl⟩
    · exact hdevice
    · intro record hrecord hkeyed
      obtain rfl := Option.some.inj hrecord
      simp [SyncEncryptionState.keyed, syncEncryptionKeyedStates] at hkeyed
    · intro record hrecord _
      obtain rfl := Option.some.inj hrecord
      simpa using hdevice current hcurrent (by simp [henabled, SyncEncryptionState.keyed, syncEncryptionKeyedStates])
    · intro record hrecord hkeyed
      obtain rfl := Option.some.inj hrecord
      cases hlocal : device.localState with
      | none => simp [hlocal, SyncEncryptionState.keyed, syncEncryptionKeyedStates] at hkeyed
      | some current => simpa [hlocal] using hdevice current hlocal (by simpa [hlocal] using hkeyed)

theorem journal_step (hjournal : device.journal = some kind) (h : encryptionStep device event = some next)
    (hkeeps : KeepsJournal device event) (hcompletes : event.completesTransition = false) :
    next.journal = some kind := by
  cases hunlocks : event.unlocks with
  | true =>
    have hfree := (encryptionStep_commits h (.inr hunlocks)).2 hunlocks
    rw [hjournal] at hfree
    cases hfree
  | false =>
    rcases encryptionStep_keeps h hcompletes hunlocks with rfl | ⟨salt, params, scope, rfl, hkeyed, rfl⟩ |
      ⟨current, scope, -, hcurrent, henabled, rfl⟩ | ⟨began, -, hfree, rfl⟩
    · exact hjournal
    · rcases hkeeps with hfree | hkeyed'
      · rw [hjournal] at hfree
        cases hfree
      · rw [hkeyed] at hkeyed'
        cases hkeyed'
    · simpa [EncryptionDevice.journal, hcurrent] using hjournal
    · have hbegan : began = kind := by
        rcases hfree with hfree | hfree <;> rw [hjournal] at hfree
        · cases hfree
        · exact (Option.some.inj hfree).symm
      simp [EncryptionDevice.journal, hbegan]

theorem noKey_step (hstate : device.state = .remoteEncryptedNoKey) (h : encryptionStep device event = some next)
    (hcompletes : event.completesTransition = false) (hunlocks : event.unlocks = false) :
    next.state = .remoteEncryptedNoKey := by
  rcases encryptionStep_keeps h hcompletes hunlocks with rfl | ⟨salt, params, scope, -, -, rfl⟩ |
    ⟨current, scope, -, hcurrent, henabled, rfl⟩ | ⟨began, -, -, rfl⟩
  · exact hstate
  · simp [EncryptionDevice.state]
  · simp [EncryptionDevice.state, hcurrent, henabled] at hstate
  · cases hlocal : device.localState with
    | none => simp [EncryptionDevice.state, hlocal] at hstate
    | some current => simpa [EncryptionDevice.state, hlocal] using hstate

theorem keyedUnder_discovered (hkeyed : device.keyedUnder salt = true)
    (h : encryptionStep device (.remoteEncryptionDiscovered salt params scope) = some next) : next = device := by
  obtain rfl := Option.some.inj h
  exact if_pos hkeyed

theorem keyedUnder_step (hkeyed : device.keyedUnder salt = true) (h : encryptionStep device event = some next)
    (hcompletes : event.completesTransition = false) (hunlocks : event.unlocks = false)
    (hsalt : ∀ found params scope, event = .remoteEncryptionDiscovered found params scope → found = salt) :
    next.keyedUnder salt = true := by
  rcases encryptionStep_keeps h hcompletes hunlocks with rfl | ⟨found, params, scope, rfl, hforeign, rfl⟩ |
    ⟨current, scope, -, hcurrent, henabled, rfl⟩ | ⟨began, -, -, rfl⟩
  · exact hkeyed
  · rw [hsalt found params scope rfl, hkeyed] at hforeign
    cases hforeign
  · simp only [EncryptionDevice.keyedUnder, hcurrent, Option.any_some, Bool.and_eq_true] at hkeyed
    simpa [EncryptionDevice.keyedUnder, SyncEncryptionState.keyed, syncEncryptionKeyedStates] using hkeyed.2
  · cases hlocal : device.localState with
    | none => simp [EncryptionDevice.keyedUnder, hlocal] at hkeyed
    | some current => simpa [EncryptionDevice.keyedUnder, hlocal] using hkeyed

/-- The discovery of foreign ciphertext leaves no journal. -/
theorem markRemoteEncryptionDiscovered_forgets (hkeyed : device.keyedUnder salt = false) :
    (markRemoteEncryptionDiscovered device salt params scope).journal = none := by
  simp [markRemoteEncryptionDiscovered, hkeyed, EncryptionDevice.journal]

theorem protects_iff (h : encryptionStep device event = some next) :
    Protects device event next ↔ KeepsJournal device event := by
  constructor
  · intro hprotects
    cases event <;> try exact trivial
    case remoteEncryptionDiscovered salt params scope =>
      cases hjournal : device.journal with
      | none => exact .inl hjournal
      | some kind =>
        refine .inr (by_contra fun hkeyed => ?_)
        obtain rfl := Option.some.inj h
        rcases hprotects.journal kind hjournal with hkept | hcompletes
        · rw [markRemoteEncryptionDiscovered_forgets (by simpa using hkeyed)] at hkept
          cases hkept
        · cases hcompletes
  · intro hkeeps
    refine ⟨?_, ?_, ?_, fun hdevice => KeyRecorded.step hdevice h⟩
    · intro kind hjournal
      cases hcompletes : event.completesTransition with
      | true => exact .inr rfl
      | false => exact .inl (journal_step hjournal h hkeeps hcompletes)
    · rintro salt params scope rfl hkeyed
      exact keyedUnder_discovered hkeyed h
    · intro hstate
      cases hcompletes : event.completesTransition with
      | true => exact .inr (.inl rfl)
      | false =>
        cases hunlocks : event.unlocks with
        | true => exact .inr (.inr rfl)
        | false => exact .inl (noKey_step hstate h hcompletes hunlocks)

/-! ### Runs of events -/

/-- A recorded journal keeps the device from every sync. -/
theorem blocked_of_journal (h : device.journal = some kind) (activeScope : Option String) :
    isSyncEncryptionStateBlocked device.localState activeScope = true := by
  obtain ⟨record, hrecord, hjournal⟩ := Option.bind_eq_some_iff.1 h
  simp [isSyncEncryptionStateBlocked, hrecord, hjournal]

theorem KeyRecorded.run {ok : EncryptionDevice → EncryptionEvent → Prop} (hstart : start.KeyRecorded)
    (hrun : Reaches encryptionStep ok start device) : device.KeyRecorded :=
  hrun.invariant hstart fun _ _ _ hdevice _ h => KeyRecorded.step hdevice h

/-- In every run in which no foreign ciphertext is discovered while a journal is recorded: the record of a device with
a key names that key's salt and costs, every further step protects the device exactly if it is no such discovery, a
journal stays and blocks every sync until a transition completes, a device keyed under a salt stays so through
discoveries of that salt, and one that lacks the key lacks it until a transition or an unlock completes. -/
theorem encryption_protected (hstart : start.KeyRecorded) (hrun : Reaches encryptionStep KeepsJournal start device) :
    device.KeyRecorded ∧
    (∀ event next, encryptionStep device event = some next →
      (Protects device event next ↔ KeepsJournal device event)) ∧
    (∀ kind later, device.journal = some kind →
      Reaches encryptionStep (fun d e => KeepsJournal d e ∧ e.completesTransition = false) device later →
      later.journal = some kind ∧ ∀ activeScope, isSyncEncryptionStateBlocked later.localState activeScope = true) ∧
    (∀ salt later, device.keyedUnder salt = true →
      Reaches encryptionStep (fun _ e => (e.completesTransition = false ∧ e.unlocks = false) ∧
        ∀ found params scope, e = .remoteEncryptionDiscovered found params scope → found = salt) device later →
      later.keyedUnder salt = true) ∧
    ∀ later, device.state = .remoteEncryptedNoKey →
      Reaches encryptionStep (fun _ e => e.completesTransition = false ∧ e.unlocks = false) device later →
      later.state = .remoteEncryptedNoKey := by
  refine ⟨KeyRecorded.run hstart hrun, fun event next h => protects_iff h, ?_, ?_, ?_⟩
  · intro kind later hjournal hlater
    have hkept : later.journal = some kind :=
      hlater.invariant (P := fun d => d.journal = some kind) hjournal
        fun _ _ _ hd hok h => journal_step hd h hok.1 hok.2
    exact ⟨hkept, fun activeScope => blocked_of_journal hkept activeScope⟩
  · intro salt later hkeyed hlater
    exact hlater.invariant (P := fun d => d.keyedUnder salt = true) hkeyed
      fun _ _ _ hd hok h => keyedUnder_step hd h hok.1.1 hok.1.2 hok.2
  · intro later hstate hlater
    exact hlater.invariant (P := fun d => d.state = .remoteEncryptedNoKey) hstate
      fun _ _ _ hd hok h => noKey_step hd h hok.1 hok.2

def freshDevice : EncryptionDevice := { localState := none, keyCache := none }

/-- A device whose first enabling was interrupted. -/
theorem encryption_protected_interrupted :
    freshDevice.KeyRecorded ∧ ∃ device, Reaches encryptionStep KeepsJournal freshDevice device ∧
      device.journal = some .enable ∧
      ∀ event next, encryptionStep device event = some next →
        (Protects device event next ↔ KeepsJournal device event) := by
  have hfresh : freshDevice.KeyRecorded := by
    intro record hrecord
    cases hrecord
  have hrun : Reaches encryptionStep KeepsJournal freshDevice
      { localState := some { state := .off, incompleteTransition := some .enable }, keyCache := none } :=
    .step .refl (e := .transitionBegins .enable) trivial rfl
  exact ⟨hfresh, _, hrun, rfl, (encryption_protected hfresh hrun).2.1⟩

/-- An enabling is interrupted with its journal on record; ciphertext that a read then discovers elsewhere takes the
journal with it, and the half-migrated location no longer blocks a sync. -/
theorem markRemoteEncryptionDiscovered_unblocks :
    ∃ device later : EncryptionDevice,
      Reaches encryptionStep (fun _ e => e.completesTransition = false) freshDevice device ∧
      Reaches encryptionStep (fun _ e => e.completesTransition = false) device later ∧
      device.journal = some .enable ∧ later.journal = none ∧
      isSyncEncryptionStateBlocked device.localState (some "file") = true ∧
      isSyncEncryptionStateBlocked later.localState (some "file") = false := by
  refine ⟨{ localState := some { state := .off, incompleteTransition := some .enable }, keyCache := none }, _,
    .step .refl (e := .transitionBegins .enable) rfl rfl,
    .step .refl (e := .remoteEncryptionDiscovered [7] ⟨19456, 2, 1⟩ (some "dropbox")) rfl rfl, rfl, rfl, rfl, rfl⟩

end

end Mindwtr.Sync
