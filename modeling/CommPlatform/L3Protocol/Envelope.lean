import CommPlatform.L2Crypto.DeviceState

/-!
# Pairwise envelopes: headers, key derivation, sealing and opening

`:58-102` (constants), `211-345` (header and envelope parsing)
and `626-823` (derivations, associated data, buckets, sealing, opening).

* `kdfRoot_eq`, `chainStep_eq`, `aeadMaterial_eq`: the derivations never
  fail on keys, so they are functions of the provider.
* `parse_regularHeader`: the header parser reads back the 58 header bytes a
  sender writes.
* `encryptEnvelope_opens`: what `encrypt_envelope` returns parses to the
  header it was given, and opens under the same message key and recipient to
  the inner bytes.

Bare line numbers are those of `pairwise.rs`.
-/
namespace CommPlatform.L3

open CommPlatform.Core L1 L2
open L1.Reader hiding failIf

/-! ## Constants -/

def headerVersion : UInt8 := 1
def protocolVersion : UInt8 := 1
def suite : UInt8 := 1
def flagInitial : UInt8 := 0x01
def flagClassicalOneTime : UInt8 := 0x02
def flagPqOneTime : UInt8 := 0x04
def flagRepairReplacement : UInt8 := 0x08
def knownHeaderFlags : UInt8 :=
  flagInitial ||| flagClassicalOneTime ||| flagPqOneTime ||| flagRepairReplacement
def absentPrekeyId : UInt32 := 0xffffffff
def purpose : Bytes := ascii "pairwise-transport-v1"
def rootDomain : Bytes := ascii "chat:v1:double-ratchet-root"
def aeadDomain : Bytes := ascii "chat:v1:double-ratchet-aead"
def regularHeaderBytesLen : Nat := 58
def xchachaAbytes : Nat := 16
def senderBlockWithoutRepairBytes : Nat := 170
def senderBlockRepairBytes : Nat := 218
def allowedBuckets : List Nat := [1024, 4096, 16384, 65536, 262144]

/-- mirrors :594-596 -/
def isZero (value : Bytes) : Bool := value.all (· == 0)

/-- mirrors :598-604 -/
def validKeyId (id : UInt32) : CryptoResult UInt32 :=
  if id > keyIdMax then .error .malformedInput else .ok id

/-- mirrors :606-612 -/
def validateOptionalId (present : Bool) (id : UInt32) : CryptoResult Unit :=
  failIf ((present ∧ id > keyIdMax) ∨ (¬ present ∧ id ≠ absentPrekeyId)) .malformedInput

/-! ## Headers -/

/-- mirrors :211-223 -/
structure InitialHeader where
  flags : UInt8
  sessionId : Block 16
  ratchetPublic : Key
  signedPrekeyId : UInt32
  oneTimePrekeyId : UInt32
  pqSignedPrekeyId : UInt32
  pqOneTimePrekeyId : UInt32
  ephemeralPublic : Key
  pqSignedCiphertext : Block 1088
  pqOneTimeCiphertext : Option (Block 1088)
  senderSeal : Bytes

/-- mirrors :225-230 -/
structure RegularHeader where
  sessionId : Block 16
  ratchetPublic : Key
  previousChainLength : UInt32
  messageNumber : UInt32

/-- The bytes `regular_header_bytes` writes for a header.
mirrors :735-744 -/
def RegularHeader.encode (h : RegularHeader) : Bytes :=
  [headerVersion, 0] ++ h.sessionId.bytes ++ h.ratchetPublic.bytes ++
    pushU32 h.previousChainLength ++ pushU32 h.messageNumber

inductive RatchetHeader
  | initial (h : InitialHeader)
  | regular (h : RegularHeader)

/-- The part of an initial header after `message_number`.
mirrors :265-310 -/
def parseInitialTail (flags : UInt8) (sessionId : Block 16) (ratchetPublic : Key)
    (previousChainLength messageNumber : UInt32) : Reader RatchetHeader := do
  Reader.failIf (flags &&& flagInitial = 0) .malformedInput
  let signedPrekeyId ← validKeyId (← Reader.u32)
  let oneTimePrekeyId ← Reader.u32
  let pqSignedPrekeyId ← validKeyId (← Reader.u32)
  let pqOneTimePrekeyId ← Reader.u32
  validateOptionalId (flags &&& flagClassicalOneTime ≠ 0) oneTimePrekeyId
  validateOptionalId (flags &&& flagPqOneTime ≠ 0) pqOneTimePrekeyId
  let ephemeralPublic ← Reader.array 32
  let pqSignedCiphertext ← Reader.array 1088
  let pqOneTimeCiphertext ←
    if flags &&& flagPqOneTime ≠ 0 then some <$> Reader.array 1088 else pure none
  let senderSealLength ← u16
  let senderSeal ← take senderSealLength.toNat
  let finished ← Reader.isFinished
  Reader.failIf (¬ finished ∨ previousChainLength ≠ 0 ∨ messageNumber ≠ 0 ∨
    senderSealLength.toNat ≠
      (if flags &&& flagRepairReplacement ≠ 0 then senderBlockRepairBytes + xchachaAbytes
        else senderBlockWithoutRepairBytes + xchachaAbytes)) .malformedInput
  return .initial ⟨flags, sessionId, ratchetPublic, signedPrekeyId, oneTimePrekeyId,
    pqSignedPrekeyId, pqOneTimePrekeyId, ephemeralPublic, pqSignedCiphertext,
    pqOneTimeCiphertext, senderSeal⟩

/-- mirrors :238-311. The source's further test of
`FLAG_REPAIR_REPLACEMENT` without `FLAG_INITIAL` cannot be met: the initial flag was required
just before. -/
def RatchetHeader.parse (encoded : Bytes) : CryptoResult RatchetHeader :=
  Reader.parse (do
    let version ← Reader.u8
    Reader.failIf (version ≠ headerVersion) .unsupportedVersion
    let flags ← Reader.u8
    Reader.failIf (flags &&& ~~~knownHeaderFlags ≠ 0) .malformedInput
    let sessionId ← Reader.array 16
    Reader.failIf (isZero sessionId.bytes) .malformedInput
    let ratchetPublic ← Reader.array 32
    let previousChainLength ← Reader.u32
    let messageNumber ← Reader.u32
    if flags = 0 then
      let finished ← Reader.isFinished
      Reader.failIf (¬ finished) .malformedInput
      return .regular ⟨sessionId, ratchetPublic, previousChainLength, messageNumber⟩
    else
      parseInitialTail flags sessionId ratchetPublic previousChainLength messageNumber) encoded

/-- mirrors :314-318 -/
structure Envelope where
  headerBytes : Bytes
  header : RatchetHeader
  ciphertext : Bytes

/-- Header and ciphertext of an envelope of `total` bytes.
mirrors :325-339 -/
def Envelope.split (total : Nat) : Reader (Bytes × Bytes) := do
  let version ← Reader.u8
  let suiteByte ← Reader.u8
  Reader.failIf (version ≠ protocolVersion ∨ suiteByte ≠ suite) .unsupportedVersion
  let headerLen ← u16
  Reader.failIf (headerLen.toNat < regularHeaderBytesLen ∨
    headerLen.toNat + (4 + xchachaAbytes + 4) > total) .malformedInput
  let headerBytes ← take headerLen.toNat
  let ciphertext ← take (total - (4 + headerLen.toNat))
  return (headerBytes, ciphertext)

/-- mirrors :321-345 -/
def Envelope.parse (input : Bytes) : CryptoResult Envelope := do
  failIf (input.length ∉ allowedBuckets) .malformedInput
  let parts ← Reader.parse (Envelope.split input.length) input
  let header ← RatchetHeader.parse parts.1
  return ⟨parts.1, header, parts.2⟩

def RatchetHeader.sessionId : RatchetHeader → Block 16
  | .initial h | .regular h => h.sessionId

theorem parseInitialTail_sessionId {flags : UInt8} {sid : Block 16} {pub : Key} {n m : UInt32}
    {r r' : Bytes} {h : RatchetHeader}
    (hp : (parseInitialTail flags sid pub n m).run r = .ok (h, r')) : h.sessionId = sid := by
  unfold parseInitialTail at hp
  simp only [run_bind_eq_ok] at hp
  obtain ⟨_, _, -, _, _, -, _, _, -, _, _, -, _, _, -, _, _, -, _, _, -, _, _, -, _, _, -, _, _, -,
    _, _, -, hp⟩ := hp
  split at hp
  all_goals
    simp only [run_bind_eq_ok] at hp
    obtain ⟨_, _, -, _, _, -, _, _, -, _, _, -, _, _, -, hp⟩ := hp
    cases hp
    rfl

theorem Envelope.parse_sessionId_ne {b : Bytes} {env : Envelope} (h : Envelope.parse b = .ok env) :
    isZero env.header.sessionId.bytes = false := by
  unfold Envelope.parse RatchetHeader.parse at h
  simp only [ok_steps, parse_eq_ok, run_bind_eq_ok, failIf_run_eq_ok] at h
  obtain ⟨_, -, parts, -, header, ⟨r, _, _, -, _, _, -, flags, _, -, _, _, -, sid, _, -, _, _,
    ⟨hsid, -⟩, _, _, -, _, _, -, _, _, -, h⟩, rfl⟩ := h
  suffices hs : header.sessionId = sid by rw [hs]; exact hsid
  split at h
  · simp only [run_bind_eq_ok] at h
    obtain ⟨_, _, -, _, _, -, h⟩ := h
    cases h
    rfl
  · exact parseInitialTail_sessionId h

/-! ## Derivations -/

variable (P : CryptoProvider)

/-- mirrors :626-635 -/
def kdfRoot (rootKey dhOutput : Key) : CryptoResult (Key × Key) := do
  let output ← hkdfSha256 P rootKey.bytes dhOutput.bytes rootDomain 64
  return (output.slice 0 32, output.slice 32 32)

/-- mirrors :637-641 -/
def chainStep (chainKey : Key) : CryptoResult (Key × Key) := do
  let messageKey ← hmacSha256 P chainKey.bytes [0x01]
  let nextChain ← hmacSha256 P chainKey.bytes [0x02]
  return (messageKey, nextChain)

/-- mirrors :643-649 -/
def aeadMaterial (messageKey : Key) : CryptoResult (Key × Block 24) := do
  let material ← hkdfSha256 P (List.replicate 32 0) messageKey.bytes aeadDomain 56
  return (material.slice 0 32, material.slice 32 24)

/-! ## Associated data and buckets -/

/-- mirrors :651-664 -/
def envelopeAad (recipientDeviceId : Block 16) (header : Bytes) : CryptoResult Bytes := do
  reserve (purpose.length + 1 + 1 + 16 + 2 + header.length)
  let len ← tryU16 header.length .inputTooLarge
  return purpose ++ [protocolVersion, suite] ++ recipientDeviceId.bytes ++ pushU16 len ++ header

/-- mirrors :746-757 -/
def chooseBucket (headerLen innerLen : Nat) : CryptoResult Nat :=
  okOr (allowedBuckets.find? (· ≥ 4 + headerLen + (xchachaAbytes + 4) + innerLen)) .inputTooLarge

/-! ## Sealing and opening -/

/-- mirrors :759-799 -/
def encryptEnvelope (recipientDeviceId : Block 16) (header : Bytes)
    (messageKey : Key) (inner entropy : Bytes) : CryptoResult Bytes := do
  let bucket ← chooseBucket header.length inner.length
  let plaintextLen := bucket - (4 + header.length + xchachaAbytes)
  let innerLen ← tryU32 inner.length .inputTooLarge
  let padding ← randomBytes (plaintextLen - (4 + inner.length)) entropy
  let plaintext := pushU32 innerLen ++ inner ++ padding.1
  let material ← aeadMaterial P messageKey
  let aad ← envelopeAad recipientDeviceId header
  let plaintext ← secretVecInput plaintext
  let ciphertext ← P.xchacha20poly1305Encrypt material.1 material.2 plaintext aad
  let headerLen ← tryU16 header.length .inputTooLarge
  let output := [protocolVersion, suite] ++ pushU16 headerLen ++ header ++ ciphertext
  failIf (output.length ≠ bucket) .internalFailure
  return output

/-- mirrors :801-823 -/
def decryptEnvelope (recipientDeviceId : Block 16) (envelope : Envelope)
    (messageKey : Key) : CryptoResult Bytes := do
  let material ← aeadMaterial P messageKey
  let aad ← envelopeAad recipientDeviceId envelope.headerBytes
  let plaintext ← P.xchacha20poly1305Decrypt material.1 material.2 envelope.ciphertext aad
  failIf (plaintext.length < 4) .authenticationFailed
  let realLen := ofBe (plaintext.take 4)
  failIf (plaintext.length < 4 + realLen) .authenticationFailed
  return (plaintext.drop 4).take realLen

/-! ## The derivations as functions -/

/-- The root key after a Diffie-Hellman step. -/
def nextRoot (rootKey dhOutput : Key) : Key :=
  (P.hkdf rootKey.bytes dhOutput.bytes rootDomain 64).slice 0 32

/-- The chain that starts with a Diffie-Hellman step. -/
def chainStart (rootKey dhOutput : Key) : Key :=
  (P.hkdf rootKey.bytes dhOutput.bytes rootDomain 64).slice 32 32

def messageKeyOf (chainKey : Key) : Key := P.hmac chainKey.bytes [0x01]

def nextChainOf (chainKey : Key) : Key := P.hmac chainKey.bytes [0x02]

def aeadOf (messageKey : Key) : Key × Block 24 :=
  let material := P.hkdf (List.replicate 32 0) messageKey.bytes aeadDomain 56
  (material.slice 0 32, material.slice 32 24)

theorem kdfRoot_eq (P : CryptoProvider) (rootKey dhOutput : Key) : kdfRoot P rootKey dhOutput =
      .ok (nextRoot P rootKey dhOutput, chainStart P rootKey dhOutput) := by
  unfold kdfRoot
  rw [hkdfSha256_eq P (by simp [maxInputBytes]) (by simp [maxInputBytes]) (by decide) (by decide)]
  rfl

theorem chainStep_eq (P : CryptoProvider) (chainKey : Key) :
    chainStep P chainKey = .ok (messageKeyOf P chainKey, nextChainOf P chainKey) := by
  unfold chainStep
  rw [hmacSha256_eq P (by simp [maxInputBytes]) (by decide),
    hmacSha256_eq P (by simp [maxInputBytes]) (by decide)]
  rfl

theorem aeadMaterial_eq (P : CryptoProvider) (messageKey : Key) :
    aeadMaterial P messageKey = .ok (aeadOf P messageKey) := by
  unfold aeadMaterial
  rw [hkdfSha256_eq P (by simp [maxInputBytes]) (by simp [maxInputBytes]) (by decide) (by decide)]
  rfl

/-! ## Reading back a header -/

theorem parse_regularHeader (h : RegularHeader) (hz : isZero h.sessionId.bytes = false) :
    RatchetHeader.parse h.encode = .ok (.regular h) := by
  simp [RatchetHeader.parse, Reader.parse, RegularHeader.encode, failIf_run, hz]

/-! ## Reading back an envelope -/

def envelopeBytes (header ciphertext : Bytes) : Bytes :=
  [protocolVersion, suite] ++ pushU16 (UInt16.ofNat header.length) ++ header ++ ciphertext

@[simp] theorem length_envelopeBytes (header ciphertext : Bytes) :
    (envelopeBytes header ciphertext).length = 4 + header.length + ciphertext.length := by
  simp [envelopeBytes]; omega

variable {header ct : Bytes}

theorem Envelope.split_envelopeBytes (h58 : 58 ≤ header.length)
    (h16 : header.length < 2 ^ 16) (hct : 20 ≤ ct.length) :
    Reader.parse (Envelope.split (4 + header.length + ct.length)) (envelopeBytes header ct) =
      .ok (header, ct) := by
  have hlen : (UInt16.ofNat header.length).toNat = header.length := by simp; omega
  have htake := take_run_append ct (rfl : header.length = header.length)
  have hrest : (take ct.length).run ct = .ok (ct, []) := by simp
  have hbody : 4 + header.length + ct.length - (4 + header.length) = ct.length := by omega
  have hfits : ¬ 4 + header.length + ct.length < header.length + 24 := by omega
  simp [Envelope.split, envelopeBytes, Reader.parse, failIf_run, hlen, htake, hbody, hrest,
    regularHeaderBytesLen, xchachaAbytes, Nat.not_lt.mpr h58, hfits]

variable {hdr : RatchetHeader}

theorem Envelope.parse_envelopeBytes
    (h58 : 58 ≤ header.length) (h16 : header.length < 2 ^ 16) (hct : 20 ≤ ct.length)
    (hb : (envelopeBytes header ct).length ∈ allowedBuckets)
    (hp : RatchetHeader.parse header = .ok hdr) :
    Envelope.parse (envelopeBytes header ct) = .ok ⟨header, hdr, ct⟩ := by
  unfold Envelope.parse
  rw [failIf_neg (by simpa using hb), ok_bind, length_envelopeBytes,
    Envelope.split_envelopeBytes h58 h16 hct, ok_bind]
  simp only [hp, ok_bind, pure_eq_ok]

/-! ## Sealing, taken apart -/

/-- `ct` is the ciphertext `encrypt_envelope` puts behind `header` for `recipient`: the length of
`inner`, `inner` and some padding, sealed under the material of `messageKey`. -/
def SealedUnder (recipient : Block 16) (header : Bytes) (messageKey : Key)
    (inner ct : Bytes) : Prop :=
  ∃ padding aad, inner.length < 2 ^ 32 ∧ envelopeAad recipient header = .ok aad ∧
    P.xchacha20poly1305Encrypt (aeadOf P messageKey).1 (aeadOf P messageKey).2
      (pushU32 (UInt32.ofNat inner.length) ++ inner ++ padding) aad = .ok ct

theorem chooseBucket_eq_ok {headerLen innerLen bucket : Nat}
    (h : chooseBucket headerLen innerLen = .ok bucket) :
    bucket ∈ allowedBuckets ∧ 4 + headerLen + 20 + innerLen ≤ bucket := by
  unfold chooseBucket at h
  rw [okOr_eq_ok] at h
  have hm := List.mem_of_find?_eq_some h
  have hs := List.find?_some h
  simp only [xchachaAbytes, ge_iff_le, decide_eq_true_eq] at hs
  exact ⟨hm, by omega⟩

variable {recipient : Block 16} {P : CryptoProvider} {messageKey : Key} {inner entropy out : Bytes}

theorem encryptEnvelope_inv
    (h : encryptEnvelope P recipient header messageKey inner entropy = .ok out) :
    ∃ ct, out = envelopeBytes header ct ∧ SealedUnder P recipient header messageKey inner ct ∧
      header.length < 2 ^ 16 ∧ 20 + inner.length ≤ ct.length ∧ out.length ∈ allowedBuckets := by
  unfold encryptEnvelope at h
  simp only [ok_steps, aeadMaterial_eq, tryU32_eq_ok, tryU16_eq_ok, secretVecInput_eq_ok] at h
  obtain ⟨bucket, hb, _, ⟨hi, rfl⟩, padding, -, _, rfl, aad, ha, _, ⟨-, rfl⟩, ct, hct, _,
    ⟨hh, rfl⟩, _, hlen, rfl⟩ := h
  obtain ⟨hmem, hle⟩ := chooseBucket_eq_ok hb
  have hout : (envelopeBytes header ct).length = bucket := not_not.mp hlen
  have hl := length_envelopeBytes header ct
  exact ⟨ct, rfl, ⟨padding.1, aad, hi, ha, hct⟩, hh, by omega, hout.symm ▸ hmem⟩

theorem SealedUnder.opens (hP : Correct P) {inner ct : Bytes}
    (h : SealedUnder P recipient header messageKey inner ct) (hdr : RatchetHeader) :
    decryptEnvelope P recipient ⟨header, hdr, ct⟩ messageKey = .ok inner := by
  obtain ⟨padding, aad, hi, ha, hct⟩ := h
  have hopen := hP.aead_opens _ _ _ _ _ hct
  have hreal : ofBe (be 4 (UInt32.ofNat inner.length).toNat) = inner.length := by
    have : (UInt32.ofNat inner.length).toNat = inner.length := by simp; omega
    rw [this, ofBe_be (by omega)]
  have htake : (pushU32 (UInt32.ofNat inner.length) ++ inner ++ padding).take 4 =
      be 4 (UInt32.ofNat inner.length).toNat := by
    rw [List.append_assoc, List.take_append_of_le_length (by simp)]
    exact List.take_of_length_le (by simp)
  have hdrop : (pushU32 (UInt32.ofNat inner.length) ++ inner ++ padding).drop 4 =
      inner ++ padding := by
    rfl
  unfold decryptEnvelope
  rw [aeadMaterial_eq, ok_bind, ha, ok_bind, hopen, ok_bind, failIf_neg (by simp), ok_bind,
    htake, hreal, hdrop]
  dsimp only
  rw [failIf_neg (by simp), List.take_append_of_le_length le_rfl, List.take_length]
  rfl

theorem encryptEnvelope_parse
    (h : encryptEnvelope P recipient header messageKey inner entropy = .ok out)
    (h58 : 58 ≤ header.length) (hp : RatchetHeader.parse header = .ok hdr) :
    ∃ ct, Envelope.parse out = .ok ⟨header, hdr, ct⟩ ∧
      SealedUnder P recipient header messageKey inner ct ∧ out.length ∈ allowedBuckets := by
  obtain ⟨ct, rfl, hs, h16, hct, hb⟩ := encryptEnvelope_inv h
  exact ⟨ct, Envelope.parse_envelopeBytes h58 h16 (by omega) hb hp, hs, hb⟩

theorem length_le_of_mem_buckets {n : Nat} (h : n ∈ allowedBuckets) : n ≤ maxInputBytes := by
  simp only [allowedBuckets, List.mem_cons, List.not_mem_nil, or_false] at h
  unfold maxInputBytes; omega

end CommPlatform.L3
