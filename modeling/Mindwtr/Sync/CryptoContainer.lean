import Mindwtr.Lib.LittleEndian
import Mindwtr.Sync.EncryptionState

/-!
# The encrypted container

An artifact that is stored encrypted starts with a header of 54 bytes: a magic, the ids of the format, the costs of the
key derivation, the salt, the nonce and the length of what was sealed. The header is what the seal authenticates besides
the text.

The writer checks that the header can represent the costs, the reader that they are below a ceiling. An artifact below
the ceiling opens to the text that was sealed, whatever was appended to it, and nothing opens but artifacts that were
sealed under the key (`encryptSyncArtifact_opens`).
-/

namespace Mindwtr.Sync.CryptoContainer

open Mindwtr.Js Mindwtr.Lib

abbrev Bytes := List UInt8

inductive SyncCryptoError where
  /-- `SyncCryptoAuthError` -/
  | auth (message : String)
  /-- `SyncCryptoUnsupportedError` -/
  | unsupported (message : String)
  | rangeError (message : String)
deriving DecidableEq, Repr

def magic : Bytes := [0x4d, 0x57, 0x45, 0x4e, 0x43, 0x31]

def headerLen : Nat := 54

def formatVersion1 : UInt8 := 0x01

def kdfIdArgon2id : UInt8 := 0x01

def cipherIdAes256Gcm : UInt8 := 0x01

def saltLen : Nat := 16

def nonceLen : Nat := 12

def gcmTagLen : Nat := 16

def keyLen : Nat := 32

def kdfCostCeilingMKib : Nat := 262144

def kdfCostCeilingT : Nat := 16

def kdfCostCeilingP : Nat := 8

def u32Max : Nat := 0xffffffff

/-- `Number.MAX_SAFE_INTEGER`, which is also the length of the longest array of bytes. -/
def maxSafeInteger : Nat := 2 ^ 53 - 1

/-- The costs a caller passes: any numbers. -/
structure KdfNumbers where
  mKib : Rat
  t : Rat
  p : Rat
deriving DecidableEq, Repr

def numbersOf (params : SyncCryptoKdfParams) : KdfNumbers := ⟨params.mKib, params.t, params.p⟩

structure KeyMaterial where
  key : Bytes
  salt : Bytes
  params : KdfNumbers
deriving DecidableEq, Repr

/-- The primitives of one call; `randomBytes` are the bytes that it draws. -/
structure SyncCryptoPrimitives where
  aesGcmSeal : Bytes → Bytes → Bytes → Bytes → Except SyncCryptoError Bytes
  aesGcmOpen : Bytes → Bytes → Bytes → Bytes → Except SyncCryptoError Bytes
  randomBytes : Nat → Bytes

/-! ### Reading -/

/-- `bytes.slice(start, stop)` -/
def slice (start stop : Nat) (bytes : Bytes) : Bytes := (bytes.take stop).drop start

def readU32LE (bytes : Bytes) (offset : Nat) : Nat := LittleEndian.decode (slice offset (offset + 4) bytes)

def readU64LE (bytes : Bytes) (offset : Nat) : Nat := LittleEndian.decode (slice offset (offset + 8) bytes)

def hasMagic (bytes : Bytes) : Bool := bytes.take magic.length == magic

structure ParsedHeaderFields where
  formatVersion : UInt8
  kdfId : UInt8
  params : SyncCryptoKdfParams
  cipherId : UInt8
  salt : Bytes
  nonce : Bytes
  ciphertextLen : Nat
deriving DecidableEq, Repr

def ceilingText : String :=
  s!"MWENC1 KDF cost exceeds accepted ceiling (m_kib<={kdfCostCeilingMKib}, t<={kdfCostCeilingT}, p<={kdfCostCeilingP})"

def exceedsCeiling (params : SyncCryptoKdfParams) : Bool :=
  kdfCostCeilingMKib < params.mKib || kdfCostCeilingT < params.t || kdfCostCeilingP < params.p

def parseHeader (bytes : Bytes) : Except SyncCryptoError ParsedHeaderFields :=
  if bytes.length < headerLen then .error (.unsupported "MWENC1 header truncated") else
  let formatVersion := bytes.getD 6 0
  let kdfId := bytes.getD 7 0
  let cipherId := bytes.getD 17 0
  if formatVersion ≠ formatVersion1 then
    .error (.unsupported s!"unsupported MWENC1 format_version {formatVersion.toNat}") else
  if kdfId ≠ kdfIdArgon2id then .error (.unsupported s!"unsupported MWENC1 kdf_id {kdfId.toNat}") else
  if cipherId ≠ cipherIdAes256Gcm then .error (.unsupported s!"unsupported MWENC1 cipher_id {cipherId.toNat}") else
  let params : SyncCryptoKdfParams := ⟨readU32LE bytes 8, readU32LE bytes 12, (bytes.getD 16 0).toNat⟩
  if exceedsCeiling params then .error (.unsupported ceilingText) else
  let salt := slice 18 34 bytes
  let nonce := slice 34 46 bytes
  let ciphertextLen := readU64LE bytes 46
  if maxSafeInteger < ciphertextLen then
    .error (.unsupported "MWENC1 ciphertext_len exceeds supported range") else
  if bytes.length < headerLen + ciphertextLen then
    .error (.unsupported "MWENC1 ciphertext_len exceeds available bytes") else
  .ok { formatVersion, kdfId, params, cipherId, salt, nonce, ciphertextLen }

inductive SyncArtifactInspection where
  | encrypted (header : ParsedHeaderFields)
  | unsupported (reason : String)
  | plaintext
deriving DecidableEq, Repr

/-- `err.message` -/
def messageOf : SyncCryptoError → String
  | .auth message => message
  | .unsupported message => message
  | .rangeError message => message

def inspectSyncArtifact (bytes : Bytes) : SyncArtifactInspection :=
  if !hasMagic bytes then .plaintext else
  match parseHeader bytes with
  | .ok header => .encrypted header
  | .error err => .unsupported (messageOf err)

def decryptSyncArtifact (bytes key : Bytes) (prims : SyncCryptoPrimitives) : Except SyncCryptoError Bytes :=
  if key.length ≠ keyLen then .error (.unsupported s!"sync key must be {keyLen} bytes") else
  if !hasMagic bytes then .error (.unsupported "missing MWENC1 magic") else do
  let header ← parseHeader bytes
  let aad := slice 0 headerLen bytes
  let ctAndTag := slice headerLen (headerLen + header.ciphertextLen) bytes
  prims.aesGcmOpen key header.nonce ctAndTag aad

/-! ### Writing -/

/-- `Number.isInteger(n) && n >= low && n <= high` -/
def isIntegerWithin (low high : Nat) (n : Rat) : Bool := n.den == 1 && decide ((low : Rat) ≤ n) && decide (n ≤ high)

def isValidKdfParams (params : KdfNumbers) : Bool :=
  isIntegerWithin 0 u32Max params.mKib && isIntegerWithin 0 u32Max params.t && isIntegerWithin 1 0xff params.p

/-- The header, field by field; a number that is written is the unsigned integer it is. -/
def headerBytes (params : KdfNumbers) (salt nonce : Bytes) (ciphertextLen : Nat) : Bytes :=
  magic ++ [formatVersion1, kdfIdArgon2id] ++ LittleEndian.encode 4 params.mKib.num.toNat ++
    LittleEndian.encode 4 params.t.num.toNat ++ [UInt8.ofNat params.p.num.toNat, cipherIdAes256Gcm] ++ salt ++ nonce ++
    LittleEndian.encode 8 ciphertextLen

def encryptSyncArtifact (plaintext : Bytes) (material : KeyMaterial) (prims : SyncCryptoPrimitives) :
    Except SyncCryptoError Bytes :=
  if material.key.length ≠ keyLen then
    .error (.unsupported s!"sync key material key must be {keyLen} bytes") else
  if material.salt.length ≠ saltLen then
    .error (.unsupported s!"sync key material salt must be {saltLen} bytes") else
  if !isValidKdfParams material.params then
    .error (.unsupported "sync key material params do not fit the MWENC1 header fields") else
  let nonce := prims.randomBytes nonceLen
  if nonce.length ≠ nonceLen then
    .error (.unsupported s!"randomBytes({nonceLen}) returned {nonce.length} bytes") else do
  let ciphertextLen := plaintext.length + gcmTagLen
  let header := headerBytes material.params material.salt nonce ciphertextLen
  let ctAndTag ← prims.aesGcmSeal material.key nonce plaintext header
  -- `new Uint8Array(HEADER_LEN + ctAndTag.length)`
  if maxSafeInteger < headerLen + ctAndTag.length then .error (.rangeError "Invalid typed array length") else
  pure (header ++ ctAndTag)

/-! ### The costs of a header -/

section
variable {params : KdfNumbers} {fields : SyncCryptoKdfParams} {low high : Nat}

theorem eq_natCast_of_isIntegerWithin {n : Rat} (h : isIntegerWithin low high n = true) :
    n = n.num.toNat ∧ low ≤ n.num.toNat ∧ n.num.toNat ≤ high := by
  rw [isIntegerWithin, Bool.and_eq_true, Bool.and_eq_true, beq_iff_eq, decide_eq_true_eq, decide_eq_true_eq] at h
  obtain ⟨⟨hden, hlow⟩, hhigh⟩ := h
  have hint : ((n.num : Int) : Rat) = n := Rat.den_eq_one_iff n |>.1 hden
  have hnonneg : 0 ≤ n.num := Rat.num_nonneg.2 (le_trans (Nat.cast_nonneg low) hlow)
  have heq : n = n.num.toNat := by
    have hcast : ((n.num.toNat : Int) : Rat) = n := by rw [Int.toNat_of_nonneg hnonneg, hint]
    exact_mod_cast hcast.symm
  refine ⟨heq, ?_, ?_⟩
  · rw [heq] at hlow
    exact_mod_cast hlow
  · rw [heq] at hhigh
    exact_mod_cast hhigh

/-- A header holds the costs the writer lets through. -/
def Represents (fields : SyncCryptoKdfParams) (params : KdfNumbers) : Prop :=
  params = numbersOf fields ∧ fields.mKib < 256 ^ 4 ∧ fields.t < 256 ^ 4 ∧ fields.p < 256

theorem represents_of_isValidKdfParams (h : isValidKdfParams params = true) : ∃ fields, Represents fields params := by
  rw [isValidKdfParams, Bool.and_eq_true, Bool.and_eq_true] at h
  obtain ⟨hm, -, hm'⟩ := eq_natCast_of_isIntegerWithin h.1.1
  obtain ⟨ht, -, ht'⟩ := eq_natCast_of_isIntegerWithin h.1.2
  obtain ⟨hp, -, hp'⟩ := eq_natCast_of_isIntegerWithin h.2
  refine ⟨⟨params.mKib.num.toNat, params.t.num.toNat, params.p.num.toNat⟩, ?_, ?_, ?_, ?_⟩
  · cases params
    rw [numbersOf, KdfNumbers.mk.injEq]
    exact ⟨hm, ht, hp⟩
  · exact Nat.lt_of_le_of_lt hm' (by decide)
  · exact Nat.lt_of_le_of_lt ht' (by decide)
  · exact Nat.lt_of_le_of_lt hp' (by decide)

end

/-! ### The fields of a header -/

theorem slice_eq {start stop : Nat} {bytes pre field post : Bytes} (hbytes : bytes = pre ++ field ++ post)
    (hstart : pre.length = start) (hstop : start + field.length = stop) : slice start stop bytes = field := by
  rw [slice, hbytes, ← hstop, ← hstart, ← List.length_append, List.take_left, List.drop_left]

theorem readU32LE_eq {offset n : Nat} {bytes pre post : Bytes} (hbytes : bytes = pre ++ LittleEndian.encode 4 n ++ post)
    (hoffset : pre.length = offset) (hn : n < 256 ^ 4) : readU32LE bytes offset = n := by
  rw [readU32LE, slice_eq hbytes hoffset (by rw [LittleEndian.length_encode]), LittleEndian.decode_encode hn]

theorem readU64LE_eq {offset n : Nat} {bytes pre post : Bytes} (hbytes : bytes = pre ++ LittleEndian.encode 8 n ++ post)
    (hoffset : pre.length = offset) (hn : n < 256 ^ 8) : readU64LE bytes offset = n := by
  rw [readU64LE, slice_eq hbytes hoffset (by rw [LittleEndian.length_encode]), LittleEndian.decode_encode hn]

section
variable {fields : SyncCryptoKdfParams} {params : KdfNumbers} {salt nonce : Bytes} {ciphertextLen : Nat}

theorem length_headerBytes (hsalt : salt.length = saltLen) (hnonce : nonce.length = nonceLen) :
    (headerBytes params salt nonce ciphertextLen).length = headerLen := by
  simp [headerBytes, magic, hsalt, hnonce, saltLen, nonceLen, headerLen]

/-- The reader finds what the writer put in the header. -/
theorem parseHeader_headerBytes (hparams : Represents fields params) (hsalt : salt.length = saltLen)
    (hnonce : nonce.length = nonceLen) (hlen : ciphertextLen ≤ maxSafeInteger) {rest : Bytes}
    (hrest : ciphertextLen ≤ rest.length) :
    parseHeader (headerBytes params salt nonce ciphertextLen ++ rest) =
      if exceedsCeiling fields then .error (.unsupported ceilingText)
      else .ok ⟨formatVersion1, kdfIdArgon2id, fields, cipherIdAes256Gcm, salt, nonce, ciphertextLen⟩ := by
  obtain ⟨rfl, hm, ht, hp⟩ := hparams
  set bytes := headerBytes (numbersOf fields) salt nonce ciphertextLen ++ rest with hbytes
  have hlength : bytes.length = headerLen + rest.length := by
    rw [hbytes, List.length_append, length_headerBytes hsalt hnonce]
  have hmKib : readU32LE bytes 8 = fields.mKib := by
    have hsplit : bytes = (magic ++ [formatVersion1, kdfIdArgon2id]) ++ LittleEndian.encode 4 fields.mKib ++
        (LittleEndian.encode 4 fields.t ++ [UInt8.ofNat fields.p, cipherIdAes256Gcm] ++ salt ++ nonce ++
          LittleEndian.encode 8 ciphertextLen ++ rest) := by
      simp [hbytes, headerBytes, numbersOf]
    exact readU32LE_eq hsplit rfl hm
  have ht' : readU32LE bytes 12 = fields.t := by
    have hsplit : bytes = (magic ++ [formatVersion1, kdfIdArgon2id] ++ LittleEndian.encode 4 fields.mKib) ++
        LittleEndian.encode 4 fields.t ++
        ([UInt8.ofNat fields.p, cipherIdAes256Gcm] ++ salt ++ nonce ++
          LittleEndian.encode 8 ciphertextLen ++ rest) := by
      simp [hbytes, headerBytes, numbersOf]
    exact readU32LE_eq hsplit rfl ht
  have hsalt' : slice 18 34 bytes = salt := by
    have hsplit : bytes = (magic ++ [formatVersion1, kdfIdArgon2id] ++ LittleEndian.encode 4 fields.mKib ++
        LittleEndian.encode 4 fields.t ++ [UInt8.ofNat fields.p, cipherIdAes256Gcm]) ++ salt ++
        (nonce ++ LittleEndian.encode 8 ciphertextLen ++ rest) := by
      simp [hbytes, headerBytes, numbersOf]
    exact slice_eq hsplit rfl (by rw [hsalt]; rfl)
  have hnonce' : slice 34 46 bytes = nonce := by
    have hsplit : bytes = (magic ++ [formatVersion1, kdfIdArgon2id] ++ LittleEndian.encode 4 fields.mKib ++
        LittleEndian.encode 4 fields.t ++ [UInt8.ofNat fields.p, cipherIdAes256Gcm] ++ salt) ++ nonce ++
        (LittleEndian.encode 8 ciphertextLen ++ rest) := by
      simp [hbytes, headerBytes, numbersOf]
    exact slice_eq hsplit (by rw [List.length_append, hsalt]; rfl) (by rw [hnonce]; rfl)
  have hlen' : readU64LE bytes 46 = ciphertextLen := by
    have hsplit : bytes = (magic ++ [formatVersion1, kdfIdArgon2id] ++ LittleEndian.encode 4 fields.mKib ++
        LittleEndian.encode 4 fields.t ++ [UInt8.ofNat fields.p, cipherIdAes256Gcm] ++ salt ++ nonce) ++
        LittleEndian.encode 8 ciphertextLen ++ rest := by
      simp [hbytes, headerBytes, numbersOf]
    exact readU64LE_eq hsplit (by rw [List.length_append, List.length_append, hsalt, hnonce]; rfl)
      (Nat.lt_of_le_of_lt hlen (by decide))
  have hp' : (bytes.getD 16 0).toNat = fields.p := by
    exact UInt8.toNat_ofNat'.trans (Nat.mod_eq_of_lt hp)
  have hformat : bytes.getD 6 0 = formatVersion1 := rfl
  have hkdf : bytes.getD 7 0 = kdfIdArgon2id := rfl
  have hcipher : bytes.getD 17 0 = cipherIdAes256Gcm := rfl
  have hlong : ¬bytes.length < headerLen := by omega
  have hfits : ¬bytes.length < headerLen + ciphertextLen := by omega
  simp only [parseHeader, hformat, hkdf, hcipher, hmKib, ht', hp', hsalt', hnonce', hlen', ne_eq, not_true_eq_false,
    if_false, if_neg hlong, if_neg hfits, if_neg (Nat.not_lt.2 hlen)]

theorem hasMagic_headerBytes {rest : Bytes} : hasMagic (headerBytes params salt nonce ciphertextLen ++ rest) = true :=
  rfl

end

/-! ### What the writer accepts -/

section
variable {plaintext out : Bytes} {material : KeyMaterial} {prims : SyncCryptoPrimitives}

/-- The header of an artifact. -/
def headerOf (plaintext : Bytes) (material : KeyMaterial) (prims : SyncCryptoPrimitives) : Bytes :=
  headerBytes material.params material.salt (prims.randomBytes nonceLen) (plaintext.length + gcmTagLen)

structure Accepted (plaintext : Bytes) (material : KeyMaterial) (prims : SyncCryptoPrimitives) (ctAndTag : Bytes) :
    Prop where
  key : material.key.length = keyLen
  salt : material.salt.length = saltLen
  params : isValidKdfParams material.params = true
  nonce : (prims.randomBytes nonceLen).length = nonceLen
  sealed : prims.aesGcmSeal material.key (prims.randomBytes nonceLen) plaintext (headerOf plaintext material prims) =
    .ok ctAndTag
  fits : headerLen + ctAndTag.length ≤ maxSafeInteger

theorem Accepted.length_header {ctAndTag : Bytes} (h : Accepted plaintext material prims ctAndTag) :
    (headerOf plaintext material prims).length = headerLen :=
  length_headerBytes h.salt h.nonce

theorem encryptSyncArtifact_eq_ok_iff : encryptSyncArtifact plaintext material prims = .ok out ↔
    ∃ ctAndTag, Accepted plaintext material prims ctAndTag ∧ out = headerOf plaintext material prims ++ ctAndTag := by
  constructor
  · intro h
    unfold encryptSyncArtifact at h
    dsimp only at h
    split_ifs at h with hkey hsalt hparams hnonce
    obtain ⟨ctAndTag, hsealed, h⟩ := bind_eq_ok h
    split_ifs at h with hlong
    exact ⟨ctAndTag, ⟨not_not.1 hkey, not_not.1 hsalt, by simpa using hparams, not_not.1 hnonce, hsealed,
      Nat.not_lt.1 hlong⟩, (Except.ok.inj h).symm⟩
  · rintro ⟨ctAndTag, h, rfl⟩
    rw [encryptSyncArtifact, if_neg (not_not.2 h.key), if_neg (not_not.2 h.salt), h.params,
      if_neg (by simp), if_neg (not_not.2 h.nonce)]
    change (prims.aesGcmSeal material.key (prims.randomBytes nonceLen) plaintext (headerOf plaintext material prims) >>=
      _) = _
    rw [h.sealed]
    exact if_neg (Nat.not_lt.2 h.fits)

end

/-! ### Ideal authenticated encryption -/

/-- One text that was sealed. -/
structure Sealing where
  key : Bytes
  nonce : Bytes
  plaintext : Bytes
  aad : Bytes
  ctAndTag : Bytes
deriving DecidableEq, Repr

/-- What is stored of a sealed text. -/
def Sealing.artifact (s : Sealing) : Bytes := s.aad ++ s.ctAndTag

/-- Exactly what was sealed opens, under its key, its nonce and its associated data. -/
structure IdealAead (prims : SyncCryptoPrimitives) (sealings : Set Sealing) : Prop where
  length : ∀ s ∈ sealings, s.ctAndTag.length = s.plaintext.length + gcmTagLen
  opens : ∀ s ∈ sealings, prims.aesGcmOpen s.key s.nonce s.ctAndTag s.aad = .ok s.plaintext
  refuses : ∀ key nonce ctAndTag aad,
    (∀ s ∈ sealings, ¬(s.key = key ∧ s.nonce = nonce ∧ s.ctAndTag = ctAndTag ∧ s.aad = aad)) →
      prims.aesGcmOpen key nonce ctAndTag aad = .error (.auth "wrong passphrase or corrupted data")

section
variable {prims : SyncCryptoPrimitives} {sealings : Set Sealing} {plaintext out bytes key text : Bytes}
  {material : KeyMaterial}

/-- The text that a call of the writer seals, and what comes of it. -/
def sealingOf (plaintext : Bytes) (material : KeyMaterial) (prims : SyncCryptoPrimitives) (out : Bytes) : Sealing :=
  ⟨material.key, prims.randomBytes nonceLen, plaintext, headerOf plaintext material prims, out.drop headerLen⟩

theorem IdealAead.sealing_of_opens (ideal : IdealAead prims sealings) {nonce ctAndTag aad : Bytes}
    (h : prims.aesGcmOpen key nonce ctAndTag aad = .ok text) :
    ∃ s ∈ sealings, s.key = key ∧ s.ctAndTag = ctAndTag ∧ s.aad = aad ∧ s.plaintext = text := by
  by_contra hnone
  push Not at hnone
  have hrefused := ideal.refuses key nonce ctAndTag aad fun s hs heq => by
    obtain ⟨rfl, rfl, rfl, rfl⟩ := heq
    have hopens := ideal.opens s hs
    rw [h] at hopens
    exact hnone s hs rfl rfl rfl (Except.ok.inj hopens).symm
  rw [h] at hrefused
  cases hrefused

theorem decryptSyncArtifact_eq_ok (h : decryptSyncArtifact bytes key prims = .ok text) :
    ∃ header, parseHeader bytes = .ok header ∧ prims.aesGcmOpen key header.nonce
      (slice headerLen (headerLen + header.ciphertextLen) bytes) (slice 0 headerLen bytes) = .ok text := by
  unfold decryptSyncArtifact at h
  split_ifs at h with hkey hmagic
  exact bind_eq_ok h

/-- What opens is an artifact that was sealed under the key. -/
theorem artifact_of_decryptSyncArtifact (ideal : IdealAead prims sealings)
    (h : decryptSyncArtifact bytes key prims = .ok text) :
    ∃ s ∈ sealings, s.key = key ∧ s.plaintext = text ∧ s.artifact <+: bytes := by
  obtain ⟨header, hheader, hopens⟩ := decryptSyncArtifact_eq_ok h
  obtain ⟨s, hs, hkey, hct, haad, htext⟩ := ideal.sealing_of_opens hopens
  refine ⟨s, hs, hkey, htext, ?_⟩
  have hsplit := List.take_append_drop headerLen (bytes.take (headerLen + header.ciphertextLen))
  rw [List.take_take, Nat.min_eq_left (Nat.le_add_right _ _)] at hsplit
  have hartifact : s.artifact = bytes.take (headerLen + header.ciphertextLen) := by
    rw [Sealing.artifact, hct, haad, slice, slice, List.drop_zero, hsplit]
  rw [hartifact]
  exact List.take_prefix _ _

/-- The reader opens an artifact at these costs. -/
def WithinCeiling (params : KdfNumbers) : Prop :=
  params.mKib ≤ kdfCostCeilingMKib ∧ params.t ≤ kdfCostCeilingT ∧ params.p ≤ kdfCostCeilingP

theorem exceedsCeiling_eq_false_iff {fields : SyncCryptoKdfParams} :
    exceedsCeiling fields = false ↔ WithinCeiling (numbersOf fields) := by
  simp only [exceedsCeiling, WithinCeiling, numbersOf, Bool.or_eq_false_iff, decide_eq_false_iff_not, not_lt,
    Nat.cast_le, and_assoc]

/-- Whatever follows an artifact, the reader sees its header. -/
theorem parseHeader_artifact (ideal : IdealAead prims sealings)
    (hwrite : encryptSyncArtifact plaintext material prims = .ok out)
    (hsealed : sealingOf plaintext material prims out ∈ sealings) {fields : SyncCryptoKdfParams}
    (hfields : Represents fields material.params) (padding : Bytes) : parseHeader (out ++ padding) =
      if exceedsCeiling fields then .error (.unsupported ceilingText)
      else .ok ⟨formatVersion1, kdfIdArgon2id, fields, cipherIdAes256Gcm, material.salt, prims.randomBytes nonceLen,
        plaintext.length + gcmTagLen⟩ := by
  obtain ⟨ctAndTag, haccepted, rfl⟩ := encryptSyncArtifact_eq_ok_iff.1 hwrite
  have hct : (headerOf plaintext material prims ++ ctAndTag).drop headerLen = ctAndTag :=
    List.drop_left' haccepted.length_header
  have hlength : ctAndTag.length = plaintext.length + gcmTagLen := by
    rw [← hct]
    exact ideal.length _ hsealed
  have hfits := haccepted.fits
  rw [List.append_assoc]
  exact parseHeader_headerBytes hfields haccepted.salt haccepted.nonce (by omega)
    (by rw [List.length_append]; omega)

theorem artifact_sealingOf (hwrite : encryptSyncArtifact plaintext material prims = .ok out) :
    (sealingOf plaintext material prims out).artifact = out := by
  obtain ⟨ctAndTag, haccepted, rfl⟩ := encryptSyncArtifact_eq_ok_iff.1 hwrite
  rw [Sealing.artifact, sealingOf, List.drop_left' haccepted.length_header]

theorem hasMagic_artifact (hwrite : encryptSyncArtifact plaintext material prims = .ok out) (padding : Bytes) :
    hasMagic (out ++ padding) = true := by
  obtain ⟨ctAndTag, -, rfl⟩ := encryptSyncArtifact_eq_ok_iff.1 hwrite
  rw [List.append_assoc]
  exact hasMagic_headerBytes

/-- An artifact below the ceiling opens. -/
theorem decryptSyncArtifact_artifact (ideal : IdealAead prims sealings)
    (hwrite : encryptSyncArtifact plaintext material prims = .ok out)
    (hsealed : sealingOf plaintext material prims out ∈ sealings) {padding : Bytes} {header : ParsedHeaderFields}
    (hheader : parseHeader (out ++ padding) = .ok header) (hnonce : header.nonce = prims.randomBytes nonceLen)
    (hlen : header.ciphertextLen = plaintext.length + gcmTagLen) :
    decryptSyncArtifact (out ++ padding) material.key prims = .ok plaintext := by
  have hmagic := hasMagic_artifact hwrite padding
  have hopens := ideal.opens _ hsealed
  have hlength := ideal.length _ hsealed
  obtain ⟨ctAndTag, haccepted, rfl⟩ := encryptSyncArtifact_eq_ok_iff.1 hwrite
  have hheaderLen := haccepted.length_header
  simp only [sealingOf, List.drop_left' hheaderLen] at hopens hlength
  have haad : slice 0 headerLen (headerOf plaintext material prims ++ ctAndTag ++ padding) =
      headerOf plaintext material prims := by
    rw [slice, List.drop_zero, List.append_assoc, List.take_left' hheaderLen]
  have hct : slice headerLen (headerLen + header.ciphertextLen)
      (headerOf plaintext material prims ++ ctAndTag ++ padding) = ctAndTag :=
    slice_eq rfl hheaderLen (by rw [hlength, hlen])
  rw [decryptSyncArtifact, if_neg (not_not.2 haccepted.key), hmagic, if_neg (by simp), hheader]
  change prims.aesGcmOpen material.key header.nonce _ _ = _
  rw [hnonce, haad, hct, hopens]

theorem encryptSyncArtifact_opens (ideal : IdealAead prims sealings)
    (hwrite : encryptSyncArtifact plaintext material prims = .ok out)
    (hsealed : sealingOf plaintext material prims out ∈ sealings) :
    (WithinCeiling material.params → ∀ padding,
      (∃ header, inspectSyncArtifact (out ++ padding) = .encrypted header ∧ header.salt = material.salt ∧
        header.nonce = prims.randomBytes nonceLen ∧ numbersOf header.params = material.params ∧
        header.ciphertextLen = plaintext.length + gcmTagLen) ∧
      decryptSyncArtifact (out ++ padding) material.key prims = .ok plaintext) ∧
    (¬WithinCeiling material.params → ∀ padding,
      inspectSyncArtifact (out ++ padding) = .unsupported ceilingText ∧
      decryptSyncArtifact (out ++ padding) material.key prims = .error (.unsupported ceilingText)) ∧
    (∀ bytes, ¬out <+: bytes → (∃ e, decryptSyncArtifact bytes material.key prims = .error e) ∨
      ∃ other ∈ sealings, other ≠ sealingOf plaintext material prims out ∧ other.key = material.key ∧
        other.artifact <+: bytes ∧ decryptSyncArtifact bytes material.key prims = .ok other.plaintext) ∧
    ∀ bytes key text, decryptSyncArtifact bytes key prims = .ok text →
      ∃ s ∈ sealings, s.key = key ∧ s.plaintext = text ∧ s.artifact <+: bytes := by
  obtain ⟨ctAndTag, haccepted, -⟩ := encryptSyncArtifact_eq_ok_iff.mp hwrite
  obtain ⟨fields, hfields⟩ := represents_of_isValidKdfParams haccepted.params
  have hparse := parseHeader_artifact ideal hwrite hsealed hfields
  refine ⟨fun hceiling padding => ?_, fun hceiling padding => ?_, fun bytes hchanged => ?_, fun bytes key text h =>
    artifact_of_decryptSyncArtifact ideal h⟩
  · rw [hfields.1, ← exceedsCeiling_eq_false_iff] at hceiling
    have hheader := hparse padding
    rw [hceiling, if_neg Bool.false_ne_true] at hheader
    have hinspect : inspectSyncArtifact (out ++ padding) = .encrypted ⟨formatVersion1, kdfIdArgon2id, fields,
        cipherIdAes256Gcm, material.salt, prims.randomBytes nonceLen, plaintext.length + gcmTagLen⟩ := by
      rw [inspectSyncArtifact, hasMagic_artifact hwrite, hheader]
      rfl
    exact ⟨⟨_, hinspect, rfl, rfl, hfields.1.symm, rfl⟩,
      decryptSyncArtifact_artifact ideal hwrite hsealed hheader rfl rfl⟩
  · rw [hfields.1, ← exceedsCeiling_eq_false_iff, Bool.not_eq_false] at hceiling
    have hheader := hparse padding
    rw [if_pos hceiling] at hheader
    constructor
    · rw [inspectSyncArtifact, hasMagic_artifact hwrite, hheader]
      rfl
    · rw [decryptSyncArtifact, if_neg (not_not.mpr haccepted.key), hasMagic_artifact hwrite, hheader]
      rfl
  · cases hopens : decryptSyncArtifact bytes material.key prims with
    | error e => exact .inl ⟨e, rfl⟩
    | ok text =>
      obtain ⟨s, hs, hkey, rfl, hprefix⟩ := artifact_of_decryptSyncArtifact ideal hopens
      refine .inr ⟨s, hs, ?_, hkey, hprefix, rfl⟩
      rintro rfl
      rw [artifact_sealingOf hwrite] at hprefix
      exact hchanged hprefix

end

/-- The primitives of a world in which one text was sealed. -/
def sealedOnly (s : Sealing) : SyncCryptoPrimitives where
  aesGcmSeal := fun _ _ _ _ => .ok s.ctAndTag
  aesGcmOpen := fun key nonce ctAndTag aad =>
    if s.key = key ∧ s.nonce = nonce ∧ s.ctAndTag = ctAndTag ∧ s.aad = aad then .ok s.plaintext
    else .error (.auth "wrong passphrase or corrupted data")
  randomBytes := fun _ => s.nonce

theorem idealAead_sealedOnly {s : Sealing} (h : s.ctAndTag.length = s.plaintext.length + gcmTagLen) :
    IdealAead (sealedOnly s) {s} where
  length := by
    rintro s rfl
    exact h
  opens := by
    rintro s rfl
    exact if_pos ⟨rfl, rfl, rfl, rfl⟩
  refuses := fun _ _ _ _ hnone => if_neg (hnone s rfl)

/-- A note sealed under a key with the given costs. -/
def noteMaterial (params : KdfNumbers) : KeyMaterial := ⟨List.replicate 32 7, List.replicate 16 1, params⟩

def noteSealing (params : KdfNumbers) : Sealing :=
  let nonce := List.replicate 12 2
  ⟨(noteMaterial params).key, nonce, [104, 105], headerBytes params (noteMaterial params).salt nonce 18,
    [104, 105] ++ List.replicate 16 0⟩

theorem encryptSyncArtifact_note {params : KdfNumbers} (h : isValidKdfParams params = true) :
    encryptSyncArtifact [104, 105] (noteMaterial params) (sealedOnly (noteSealing params)) =
      .ok (noteSealing params).artifact :=
  encryptSyncArtifact_eq_ok_iff.2 ⟨_, ⟨rfl, rfl, h, rfl, rfl, by change 54 + 18 ≤ 2 ^ 53 - 1; decide⟩, rfl⟩

/-- `SYNC_CRYPTO_DEFAULT_KDF_PARAMS` -/
def defaultNumbers : KdfNumbers := ⟨19456, 2, 1⟩

theorem encryptSyncArtifact_opens_note :
    decryptSyncArtifact ((noteSealing defaultNumbers).artifact ++ [0, 0]) (noteMaterial defaultNumbers).key
      (sealedOnly (noteSealing defaultNumbers)) = .ok [104, 105] :=
  ((encryptSyncArtifact_opens (idealAead_sealedOnly rfl) (encryptSyncArtifact_note (by decide)) rfl).1
    ⟨by decide, by decide, by decide⟩ [0, 0]).2

/-- The writer lets nine lanes through. -/
def nineLanes : KdfNumbers := ⟨19456, 2, 9⟩

theorem encryptSyncArtifact_nineLanes :
    ¬∀ (prims : SyncCryptoPrimitives) (sealings : Set Sealing) (plaintext out : Bytes) (material : KeyMaterial),
      IdealAead prims sealings → encryptSyncArtifact plaintext material prims = .ok out →
        sealingOf plaintext material prims out ∈ sealings →
          ((∃ header, inspectSyncArtifact out = .encrypted header) ∧
            decryptSyncArtifact out material.key prims = .ok plaintext) := by
  intro h
  obtain ⟨⟨header, hheader⟩, -⟩ := h _ {noteSealing nineLanes} _ _ _ (idealAead_sealedOnly rfl)
    (encryptSyncArtifact_note (by decide : isValidKdfParams nineLanes = true)) rfl
  have hunsupported : inspectSyncArtifact (noteSealing nineLanes).artifact = .unsupported ceilingText := rfl
  rw [hunsupported] at hheader
  cases hheader

end Mindwtr.Sync.CryptoContainer
