import CommPlatform.L3Protocol.Ratchet

/-!
# PQXDH handshake

`:105-209` (peer bundle and sender projection), `825-1299`
(sealed sender block, probe, initiation) and `2206-2397` (acceptance). The
initiator and the responder assemble the key material, the header prefix,
the sealed sender's associated data and the signature input in separate
code; they are separate definitions here too.

`initiate` is cut into the key agreement (`initiatorSecrets`), the header
with the sealed sender block (`initialHeader`) and the ratchet start; the
order of the random draws is the source's.

Bare line numbers are those of `pairwise.rs`.
-/
namespace CommPlatform.L3

open CommPlatform.Core L1 L2

def probeMagic : Bytes := ascii "CPPBV001"
def pqxdhDomain : Bytes := ascii "chat:v1:pqxdh-x25519-mlkem768-sha256"
def initAuthDomain : Bytes := ascii "chat:v1:pqxdh-init-auth"

/-! ## Inputs -/

/-- A one-time prekey of the claimed bundle; `parse_optional_classical` bounds the id.
mirrors :105-108 -/
structure OptionalClassicalPrekey where
  id : UInt32
  publicKey : Key
  id_le : id ≤ keyIdMax

/-- mirrors :111-114 -/
structure OptionalPqPrekey where
  id : UInt32
  publicKey : Block 1184
  id_le : id ≤ keyIdMax

/-- A verified bundle, with the checks `PeerBundle::parse` makes on the fields it keeps.
mirrors :116-164 -/
structure PeerBundle where
  deviceId : Block 16
  ikPublic : Block 64
  signedPrekeyId : UInt32
  signedPrekeyPublic : Key
  pqSignedPrekeyId : UInt32
  pqSignedPrekeyPublic : Block 1184
  signedPrekeyId_le : signedPrekeyId ≤ keyIdMax
  pqSignedPrekeyId_le : pqSignedPrekeyId ≤ keyIdMax
  deviceId_ne : isZero deviceId.bytes = false

theorem head_le : 0 + 32 ≤ 64 := by decide

theorem tail_le : 32 + 32 ≤ 64 := by decide

/-- mirrors :166-168 -/
def PeerBundle.identityPublic (peer : PeerBundle) : Key := peer.ikPublic.slice 32 32 tail_le

/-- The live-set entry of the sender, with the checks of its parser.
mirrors :171-200 -/
structure AuthenticatedSenderProjection where
  userId : Block 16
  deviceId : Block 16
  ikPublic : Block 64
  registrationId : UInt32
  bundleVersion : UInt32
  deviceId_ne : isZero deviceId.bytes = false

/-- mirrors :202-204 -/
def AuthenticatedSenderProjection.deviceSigningPublic (p : AuthenticatedSenderProjection) : Key :=
  p.ikPublic.slice 0 32 head_le

/-- mirrors :206-208 -/
def AuthenticatedSenderProjection.identityPublic (p : AuthenticatedSenderProjection) : Key :=
  p.ikPublic.slice 32 32 tail_le

/-! ## Byte inputs of the handshake -/

/-- `if let Some(value)` followed by `extend_from_slice`. -/
def optionBytes {n : Nat} (o : Option (Block n)) : Bytes := o.elim [] Block.bytes

/-- mirrors :666-686 -/
def senderAad (recipientDeviceId : Block 16) (headerPrefix : Bytes) (finalHeaderLength : Nat) :
    CryptoResult Bytes := do
  reserve (1 + 1 + 2 + headerPrefix.length + 16 + purpose.length)
  let len ← tryU16 finalHeaderLength .inputTooLarge
  return [protocolVersion, suite] ++ pushU16 len ++ headerPrefix ++ recipientDeviceId.bytes ++
    purpose

/-- mirrors :688-702 -/
def initSignatureInput (recipientDeviceId : Block 16) (headerPrefix senderBlockPrefix : Bytes) :
    CryptoResult Bytes := do
  let version ← pushFrame [protocolVersion]
  let suiteFrame ← pushFrame [suite]
  let purposeFrame ← pushFrame purpose
  let recipient ← pushFrame recipientDeviceId.bytes
  let header ← pushFrame headerPrefix
  let sender ← pushFrame senderBlockPrefix
  return initAuthDomain ++ version ++ suiteFrame ++ purposeFrame ++ recipient ++ header ++ sender

/-- mirrors :704-733 -/
def initialHeaderPrefix (flags : UInt8) (sessionId : Block 16) (ratchetPublic : Key)
    (signedPrekeyId oneTimePrekeyId pqSignedPrekeyId pqOneTimePrekeyId : UInt32)
    (ephemeralPublic : Key) (pqSignedCiphertext : Block 1088)
    (pqOneTimeCiphertext : Option (Block 1088)) : Bytes :=
  [headerVersion, flags] ++ sessionId.bytes ++ ratchetPublic.bytes ++ pushU32 0 ++ pushU32 0 ++
    pushU32 signedPrekeyId ++ pushU32 oneTimePrekeyId ++ pushU32 pqSignedPrekeyId ++
    pushU32 pqOneTimePrekeyId ++ ephemeralPublic.bytes ++ pqSignedCiphertext.bytes ++
    optionBytes pqOneTimeCiphertext

/-! ## Sealed sender block -/

/-- mirrors :851-859 -/
structure SenderBlock where
  senderUserId : Block 16
  senderDeviceId : Block 16
  senderIkPublic : Block 64
  senderRegistrationId : UInt32
  senderBundleVersion : UInt32
  repair : Option (Block 16 × Key)
  initSignature : Block 64

def repairBytes : Option (Block 16 × Key) → Bytes
  | some r => 1 :: r.1.bytes ++ r.2.bytes
  | none => [0]

/-- `SenderBlock::prefix`: what the initiator writes.
mirrors :870-891 -/
def senderBlockPrefix (device : DeviceState) (senderDeviceId : Block 16)
    (repair : Option (Block 16 × Key)) : Bytes :=
  1 :: device.userId.bytes ++ senderDeviceId.bytes ++ device.ikPublic.bytes ++
    pushU32 device.registrationId ++ pushU32 device.bundleVersion ++ repairBytes repair

/-- `prefix_bytes`: what the responder rebuilds from the parsed block.
mirrors :931-948 -/
def SenderBlock.prefixBytes (b : SenderBlock) : Bytes :=
  1 :: b.senderUserId.bytes ++ b.senderDeviceId.bytes ++ b.senderIkPublic.bytes ++
    pushU32 b.senderRegistrationId ++ pushU32 b.senderBundleVersion ++ repairBytes b.repair

def parseRepair : Reader (Option (Block 16 × Key)) := do
  if ← Reader.boolean then
    let oldSessionId ← Reader.array 16
    let token ← Reader.array 32
    return some (oldSessionId, token)
  else return none

/-- mirrors :893-929 -/
def SenderBlock.parse (input : Bytes) : CryptoResult SenderBlock := do
  let block ← Reader.parse (do
    let version ← Reader.u8
    Reader.failIf (version ≠ 1) .unsupportedVersion
    let senderUserId ← Reader.array 16
    let senderDeviceId ← Reader.array 16
    let senderIkPublic ← Reader.array 64
    let senderRegistrationId ← Reader.u32
    let senderBundleVersion ← Reader.u32
    let repair ← parseRepair
    let initSignature ← Reader.array 64
    let finished ← Reader.isFinished
    Reader.failIf (¬ finished ∨ senderBundleVersion = 0) .malformedInput
    return SenderBlock.mk senderUserId senderDeviceId senderIkPublic senderRegistrationId
      senderBundleVersion repair initSignature) input
  failIf (input.length ≠
    (if block.repair.isSome then senderBlockRepairBytes else senderBlockWithoutRepairBytes))
    .malformedInput
  return block

/-! ## Derivations -/

variable (P : CryptoProvider) (device : DeviceState)

/-- mirrors :825-832 -/
def pqxdhSecret (ikm : Bytes) : CryptoResult Key :=
  hkdfSha256 P (List.replicate 32 0) ikm pqxdhDomain 32

theorem key_le : 0 + 32 ≤ 56 := by decide

theorem nonce_le : 32 + 24 ≤ 56 := by decide

/-- mirrors :834-840 -/
def anonymousMaterial (ikm : Bytes) : CryptoResult (Key × Block 24) := do
  let material ← hkdfSha256 P (List.replicate 32 0) ikm sealedSenderDomain 56
  return (material.slice 0 32 key_le, material.slice 32 24 nonce_le)

/-- mirrors :962-967 -/
structure InitialSecrets where
  dh3 : Key
  dh4 : Option Key
  signedPq : Key
  oneTimePq : Option Key

/-- mirrors :983-994 -/
def InitialSecrets.anonymousIkm (s : InitialSecrets) : Bytes :=
  s.dh3.bytes ++ optionBytes s.dh4 ++ s.signedPq.bytes ++ optionBytes s.oneTimePq

/-! ## Repair authorization -/

/-- mirrors :1111-1137 -/
def verifyRepairAuthorization (authorization : Bytes) :
    CryptoResult (Option (Block 16 × Key)) :=
  if authorization.isEmpty then .ok none
  else do
    let fields ← Reader.parse (do
      let magic ← Reader.take 8
      Reader.failIf (magic ≠ repairAuthMagic) .malformedInput
      let oldSessionId ← Reader.array 16
      let token ← Reader.array 32
      let suppliedTag ← Reader.array 32
      let finished ← Reader.isFinished
      Reader.failIf (¬ finished) .malformedInput
      return ((oldSessionId, token), suppliedTag)) authorization
    let probeKey ← deviceProbeKey P device.identitySecret
    let expected ← hmacSha256 P probeKey.bytes
      (repairDomain ++ authorization.take (authorization.length - 32))
    failIf (expected ≠ fields.2) .authenticationFailed
    return some fields.1

/-! ## Initiation -/

/-- What the key agreement of `initiate` leaves: keys, ciphertexts, the session id and the
entropy not drawn yet. -/
structure InitiatorSecrets where
  ratchetSecret : Key
  ratchetPublic : Key
  ephemeralPublic : Key
  dh1 : Key
  dh2 : Key
  dh3 : Key
  dh4 : Option Key
  pqSignedCiphertext : Block 1088
  pqSignedSecret : Key
  pqOneTimeCiphertext : Option (Block 1088)
  pqOneTimeSecret : Option Key
  sessionId : Block 16
  entropy : Bytes

/-- `mlkem768_encapsulate` drawing its coins from the tape. -/
def encapsulate (publicKey : Block 1184) (entropy : Bytes) :
    CryptoResult ((Block 1088 × Key) × Bytes) := do
  let coins ← randomArray 32 entropy
  let sealed ← P.mlkem768Encapsulate publicKey coins.1
  return (sealed, coins.2)

def initiatorDh4 (ephemeralSecret : Key) :
    Option OptionalClassicalPrekey → CryptoResult (Option Key)
  | some key => do
    let dh ← P.x25519Shared ephemeralSecret key.publicKey
    return some dh
  | none => .ok none

def initiatorPqOneTime (entropy : Bytes) :
    Option OptionalPqPrekey → CryptoResult ((Option (Block 1088) × Option Key) × Bytes)
  | some key => do
    let sealed ← encapsulate P key.publicKey entropy
    return ((some sealed.1.1, some sealed.1.2), sealed.2)
  | none => .ok ((none, none), entropy)

/-- The draws, exchanges and encapsulations of `initiate`.
mirrors :1160-1184, 1208-1212 -/
def initiatorSecrets (peer : PeerBundle)
    (classicalOneTime : Option OptionalClassicalPrekey) (pqOneTime : Option OptionalPqPrekey)
    (entropy : Bytes) : CryptoResult InitiatorSecrets := do
  let ephemeral ← randomArray 32 entropy
  let ratchet ← randomArray 32 ephemeral.2
  let ephemeralPublic ← P.x25519Public ephemeral.1
  let ratchetPublic ← P.x25519Public ratchet.1
  let dh1 ← P.x25519Shared device.identitySecret peer.signedPrekeyPublic
  let dh2 ← P.x25519Shared ephemeral.1 peer.identityPublic
  let dh3 ← P.x25519Shared ephemeral.1 peer.signedPrekeyPublic
  let dh4 ← initiatorDh4 P ephemeral.1 classicalOneTime
  let pqSigned ← encapsulate P peer.pqSignedPrekeyPublic ratchet.2
  let pqOneTimeSealed ← initiatorPqOneTime P pqSigned.2 pqOneTime
  let sessionId ← randomArray 16 pqOneTimeSealed.2
  failIf (isZero sessionId.1.bytes) .entropyUnavailable
  return ⟨ratchet.1, ratchetPublic, ephemeralPublic, dh1, dh2, dh3, dh4, pqSigned.1.1,
    pqSigned.1.2, pqOneTimeSealed.1.1, pqOneTimeSealed.1.2, sessionId.1, sessionId.2⟩

/-- mirrors :1185-1196 -/
def InitiatorSecrets.pqxdhIkm (k : InitiatorSecrets) : Bytes :=
  List.replicate 32 0xff ++ k.dh1.bytes ++ k.dh2.bytes ++ k.dh3.bytes ++ optionBytes k.dh4 ++
    k.pqSignedSecret.bytes ++ optionBytes k.pqOneTimeSecret

/-- mirrors :1198-1206 -/
def InitiatorSecrets.anonymousIkm (k : InitiatorSecrets) : Bytes :=
  k.dh3.bytes ++ optionBytes k.dh4 ++ k.pqSignedSecret.bytes ++ optionBytes k.pqOneTimeSecret

/-- mirrors :1213-1222 -/
def initiatorFlags (classicalOneTime pqOneTime repair : Bool) : UInt8 :=
  flagInitial ||| (if classicalOneTime then flagClassicalOneTime else 0) |||
    (if pqOneTime then flagPqOneTime else 0) ||| (if repair then flagRepairReplacement else 0)

/-- The header prefix `initiate` writes.
mirrors :1223-1234 -/
def initiatorHeaderPrefix (peer : PeerBundle) (classicalOneTime : Option OptionalClassicalPrekey)
    (pqOneTime : Option OptionalPqPrekey) (repair : Option (Block 16 × Key))
    (k : InitiatorSecrets) : Bytes :=
  initialHeaderPrefix
    (initiatorFlags classicalOneTime.isSome pqOneTime.isSome repair.isSome)
    k.sessionId k.ratchetPublic peer.signedPrekeyId (classicalOneTime.elim absentPrekeyId (·.id))
    peer.pqSignedPrekeyId (pqOneTime.elim absentPrekeyId (·.id)) k.ephemeralPublic
    k.pqSignedCiphertext k.pqOneTimeCiphertext

/-- The complete initial header: prefix, signature, sealed sender block.
mirrors :1235-1263 -/
def initialHeader
    (senderDeviceId recipientDeviceId : Block 16) (headerPrefix : Bytes)
    (repair : Option (Block 16 × Key)) (anonymousIkm : Bytes) : CryptoResult Bytes := do
  let anonymous ← anonymousMaterial P anonymousIkm
  let senderPrefix := senderBlockPrefix device senderDeviceId repair
  let signatureInput ← initSignatureInput recipientDeviceId headerPrefix senderPrefix
  let signature ← P.ed25519Sign device.deviceSigningSecret signatureInput
  let senderPlaintext := senderPrefix ++ signature.bytes
  let finalHeaderLength := headerPrefix.length + (2 + senderPlaintext.length + xchachaAbytes)
  let aad ← senderAad recipientDeviceId headerPrefix finalHeaderLength
  let plaintext ← secretVecInput senderPlaintext
  let senderSeal ← P.xchacha20poly1305Encrypt anonymous.1 anonymous.2 plaintext aad
  let sealLength ← tryU16 senderSeal.length .inputTooLarge
  let header := headerPrefix ++ pushU16 sealLength ++ senderSeal
  failIf (header.length ≠ finalHeaderLength) .internalFailure
  return header

/-- The session the initiator starts.
mirrors :1276-1296 -/
def initiatedSession (senderDeviceId recipientDeviceId : Block 16) (peer : PeerBundle)
    (keys : InitiatorSecrets) (transcriptHash : Block 32) (rootKey nextChain : Key) :
    RatchetState where
  sessionId := keys.sessionId
  localDeviceId := senderDeviceId
  remoteDeviceId := recipientDeviceId
  initiatorDeviceId := senderDeviceId
  transcriptHash := transcriptHash
  primary := true
  receiveOnly := false
  rootKey := rootKey
  sendingChain := some nextChain
  receivingChain := none
  localRatchetSecret := keys.ratchetSecret
  localRatchetPublic := keys.ratchetPublic
  remoteRatchetPublic := peer.signedPrekeyPublic
  sendCount := 1
  receiveCount := 0
  previousSendCount := 0
  skipped := []
  issuedRepairToken := none
  receivedRepairToken := none

/-- mirrors :1140-1299 -/
def initiate
    (senderDeviceId recipientDeviceId : Block 16) (peer : PeerBundle)
    (classicalOneTime : Option OptionalClassicalPrekey) (pqOneTime : Option OptionalPqPrekey)
    (repairAuthorization inner : Bytes) (otherSessionsSkipped : UInt32) (entropy : Bytes) :
    CryptoResult (RatchetState × Bytes) := do
  failIf (peer.deviceId ≠ recipientDeviceId ∨ senderDeviceId = recipientDeviceId ∨
    otherSessionsSkipped.toNat > maxSkippedAccount) .authenticationFailed
  let repair ← verifyRepairAuthorization P device repairAuthorization
  let keys ← initiatorSecrets P device peer classicalOneTime pqOneTime entropy
  let sharedSecret ← pqxdhSecret P keys.pqxdhIkm
  let header ← initialHeader P device senderDeviceId recipientDeviceId
    (initiatorHeaderPrefix peer classicalOneTime pqOneTime repair keys) repair keys.anonymousIkm
  let ratchetDh ← P.x25519Shared keys.ratchetSecret peer.signedPrekeyPublic
  let derived ← kdfRoot P sharedSecret ratchetDh
  let step ← chainStep P derived.2
  let envelope ← encryptEnvelope P recipientDeviceId header step.1 inner keys.entropy
  let transcriptHash ← P.sha256 header
  return (initiatedSession senderDeviceId recipientDeviceId peer keys transcriptHash derived.1 step.2,
    envelope)

/-! ## Probing and accepting -/

def responderDh4 (header : InitialHeader) :
    CryptoResult (Option Key) :=
  if header.flags &&& flagClassicalOneTime ≠ 0 then do
    let key ← okOr (device.findClassicalOneTime header.oneTimePrekeyId) .authenticationFailed
    let dh ← P.x25519Shared key.secretKey header.ephemeralPublic
    return some dh
  else .ok none

def responderPqOneTime (header : InitialHeader) :
    CryptoResult (Option Key) :=
  if header.flags &&& flagPqOneTime ≠ 0 then do
    let key ← okOr (device.findPqOneTime header.pqOneTimePrekeyId) .authenticationFailed
    let ciphertext ← okOr header.pqOneTimeCiphertext .malformedInput
    let secret ← P.mlkem768Decapsulate key.secretKey ciphertext
    return some secret
  else .ok none

/-- mirrors :997-1050 -/
def responderInitialSecrets (header : InitialHeader) :
    CryptoResult InitialSecrets := do
  let signedClassical ← okOr (device.signedClassical header.signedPrekeyId) .authenticationFailed
  let signedPq ← okOr (device.signedPq header.pqSignedPrekeyId) .authenticationFailed
  let dh3 ← P.x25519Shared signedClassical.secretKey header.ephemeralPublic
  let dh4 ← responderDh4 P device header
  let signedPqSecret ← P.mlkem768Decapsulate signedPq.secretKey header.pqSignedCiphertext
  let oneTimePq ← responderPqOneTime P device header
  return ⟨dh3, dh4, signedPqSecret, oneTimePq⟩

/-- mirrors :951-954 -/
structure ProbeResult where
  sender : SenderBlock
  probeToken : Key

def headerPrefixOf (headerBytes : Bytes) (header : InitialHeader) : CryptoResult Bytes := do
  failIf (headerBytes.length < 2 + header.senderSeal.length) .malformedInput
  return headerBytes.take (headerBytes.length - (2 + header.senderSeal.length))

/-- mirrors :1052-1091 -/
def probeInitial (recipientDeviceId : Block 16)
    (envelopeBytes : Bytes) : CryptoResult ProbeResult := do
  let envelope ← Envelope.parse envelopeBytes
  match envelope.header with
  | .regular _ => .error .stateViolation
  | .initial header => do
    let secrets ← responderInitialSecrets P device header
    let anonymous ← anonymousMaterial P secrets.anonymousIkm
    let headerPrefix ← headerPrefixOf envelope.headerBytes header
    let aad ← senderAad recipientDeviceId headerPrefix envelope.headerBytes.length
    let plaintext ← P.xchacha20poly1305Decrypt anonymous.1 anonymous.2 header.senderSeal aad
    let sender ← SenderBlock.parse plaintext
    failIf (decide (header.flags &&& flagRepairReplacement ≠ 0) ≠ sender.repair.isSome)
      .authenticationFailed
    let envelopeHash ← P.sha256 envelopeBytes
    let probeKey ← deviceProbeKey P device.identitySecret
    let probeToken ← hmacSha256 P probeKey.bytes
      (probeMagic ++ recipientDeviceId.bytes ++ envelopeHash.bytes ++ plaintext)
    return ⟨sender, probeToken⟩

/-- mirrors :1301-1314 -/
structure AcceptedInitial where
  nextDeviceState : Bytes
  session : RatchetState
  sessionState : Bytes
  inner : Bytes
  replayMarker : Block 32
  consumedClassicalId : UInt32
  consumedPqId : UInt32
  disposition : UInt8
  updatedExistingState : Bytes
  replacedSessionId : Option (Block 16)
  referencedSignedPrekeyId : UInt32
  referencedPqSignedPrekeyId : UInt32

/-- The check of a repair block against the replaced session.
mirrors :2250-2271 -/
def checkReplaced (recipientDeviceId : Block 16)
    (senderDeviceId : Block 16) (repair : Option (Block 16 × Key))
    (existingPrimaryStateBytes replacedStateBytes : Bytes) :
    CryptoResult (Option (Block 16)) :=
  match repair with
  | some (oldSessionId, repairToken) => do
    failIf (replacedStateBytes.isEmpty ∨ ¬ existingPrimaryStateBytes.isEmpty) .stateViolation
    let old ← RatchetState.decode P device replacedStateBytes
    failIf (old.sessionId ≠ oldSessionId ∨ old.localDeviceId ≠ recipientDeviceId ∨
      old.remoteDeviceId ≠ senderDeviceId ∨ old.issuedRepairToken ≠ some repairToken)
      .authenticationFailed
    return some oldSessionId
  | none => do
    failIf (¬ replacedStateBytes.isEmpty) .stateViolation
    return none

/-- The existing primary session of a simultaneous initiation.
mirrors :2273-2289 -/
def readExisting (recipientDeviceId : Block 16)
    (senderDeviceId : Block 16) (repair : Bool) (existingPrimaryStateBytes : Bytes) :
    CryptoResult (Option RatchetState) :=
  if existingPrimaryStateBytes.isEmpty then .ok none
  else do
    failIf repair .stateViolation
    let existing ← RatchetState.decode P device existingPrimaryStateBytes
    failIf (existing.localDeviceId ≠ recipientDeviceId ∨ existing.remoteDeviceId ≠ senderDeviceId ∨
      existing.initiatorDeviceId ≠ recipientDeviceId ∨ ¬ existing.primary ∨ existing.receiveOnly)
      .stateViolation
    return some existing

/-- The existing session after the incoming one won.
mirrors :2335-2340 -/
def RatchetState.demoted (s : RatchetState) : RatchetState :=
  { s with sendingChain := none, primary := false, receiveOnly := true }

/-- The responder's PQXDH input.
mirrors :2303-2314 -/
def responderIkm (dh1 dh2 : Key) (s : InitialSecrets) : Bytes :=
  List.replicate 32 0xff ++ dh1.bytes ++ dh2.bytes ++ s.dh3.bytes ++ optionBytes s.dh4 ++
    s.signedPq.bytes ++ optionBytes s.oneTimePq

/-- The one-time prekeys a header names are consumed; returns the ids reported to the caller.
mirrors :2369-2380 -/
def consumeNamed (device : DeviceState) (header : InitialHeader) :
    CryptoResult (DeviceState × UInt32 × UInt32) := do
  let afterClassical ←
    if header.flags &&& flagClassicalOneTime ≠ 0 then
      device.consumeClassicalOneTime header.oneTimePrekeyId
    else .ok device
  let afterPq ←
    if header.flags &&& flagPqOneTime ≠ 0 then
      afterClassical.consumePqOneTime header.pqOneTimePrekeyId
    else .ok afterClassical
  return (afterPq,
    if header.flags &&& flagClassicalOneTime ≠ 0 then header.oneTimePrekeyId else absentPrekeyId,
    if header.flags &&& flagPqOneTime ≠ 0 then header.pqOneTimePrekeyId else absentPrekeyId)

/-- The incoming session wins unless both sides initiated and the recipient's raw id is the lower
one. mirrors :2329-2331 -/
def incomingWins (repair : Bool) (existing : Option RatchetState)
    (senderDeviceId recipientDeviceId : Block 16) : Bool :=
  repair ∨ existing.isNone ∨ senderDeviceId.bytes < recipientDeviceId.bytes

/-- The encoding of the demoted session, empty when nothing is demoted.
mirrors :2333-2347 -/
def encodeDemoted (wins : Bool)
    (existing : Option RatchetState) : CryptoResult Bytes :=
  match wins, existing with
  | true, some session => session.demoted.encode P device
  | _, _ => .ok []

/-- The session the responder starts.
mirrors :2348-2368 -/
def acceptedSession (recipientDeviceId senderDeviceId : Block 16) (header : InitialHeader)
    (transcriptHash : Block 32) (wins : Bool) (rootKey nextReceivingChain : Key)
    (signedClassical : ClassicalSignedKey) : RatchetState where
  sessionId := header.sessionId
  localDeviceId := recipientDeviceId
  remoteDeviceId := senderDeviceId
  initiatorDeviceId := senderDeviceId
  transcriptHash := transcriptHash
  primary := wins
  receiveOnly := !wins
  rootKey := rootKey
  sendingChain := none
  receivingChain := some nextReceivingChain
  localRatchetSecret := signedClassical.secretKey
  localRatchetPublic := signedClassical.publicKey
  remoteRatchetPublic := header.ratchetPublic
  sendCount := 0
  receiveCount := 1
  previousSendCount := 0
  skipped := []
  issuedRepairToken := none
  receivedRepairToken := none

/-- The probe names the sender the caller authenticated.
mirrors :2217-2232 -/
def probeMatches (probe : ProbeResult) (suppliedProbeToken : Key)
    (sender : AuthenticatedSenderProjection) (recipientDeviceId : Block 16) : Bool :=
  probe.probeToken = suppliedProbeToken ∧ probe.sender.senderUserId = sender.userId ∧
    probe.sender.senderDeviceId = sender.deviceId ∧
    probe.sender.senderIkPublic = sender.ikPublic ∧
    probe.sender.senderRegistrationId = sender.registrationId ∧
    ¬ probe.sender.senderBundleVersion > sender.bundleVersion ∧
    sender.deviceId ≠ recipientDeviceId

/-- The key agreement of the responder: root, receiving chain start and the signed prekey used.
mirrors :2291-2320 -/
def responderAgreement (header : InitialHeader)
    (senderIdentityPublic : Key) : CryptoResult (ClassicalSignedKey × Key × Key) := do
  let signedClassical ← okOr (device.signedClassical header.signedPrekeyId) .authenticationFailed
  let secrets ← responderInitialSecrets P device header
  let dh1 ← P.x25519Shared signedClassical.secretKey senderIdentityPublic
  let dh2 ← P.x25519Shared device.identitySecret header.ephemeralPublic
  let sharedSecret ← pqxdhSecret P (responderIkm dh1 dh2 secrets)
  let ratchetDh ← P.x25519Shared signedClassical.secretKey header.ratchetPublic
  let derived ← kdfRoot P sharedSecret ratchetDh
  return (signedClassical, derived)

/-- mirrors :2206-2397 -/
def acceptInitial (recipientDeviceId : Block 16)
    (envelopeBytes : Bytes) (suppliedProbeToken : Key) (sender : AuthenticatedSenderProjection)
    (existingPrimaryStateBytes replacedStateBytes : Bytes) : CryptoResult AcceptedInitial := do
  let probe ← probeInitial P device recipientDeviceId envelopeBytes
  failIf (¬ probeMatches probe suppliedProbeToken sender recipientDeviceId) .authenticationFailed
  let envelope ← Envelope.parse envelopeBytes
  match envelope.header with
  | .regular _ => .error .stateViolation
  | .initial header => do
    let headerPrefix ← headerPrefixOf envelope.headerBytes header
    let signatureInput ← initSignatureInput recipientDeviceId headerPrefix probe.sender.prefixBytes
    P.ed25519Verify sender.deviceSigningPublic signatureInput probe.sender.initSignature
    let replacedSessionId ← checkReplaced P device recipientDeviceId sender.deviceId
      probe.sender.repair existingPrimaryStateBytes replacedStateBytes
    let existing ← readExisting P device recipientDeviceId sender.deviceId
      probe.sender.repair.isSome existingPrimaryStateBytes
    let agreed ← responderAgreement P device header sender.identityPublic
    let step ← chainStep P agreed.2.2
    let inner ← decryptEnvelope P recipientDeviceId envelope step.1
    let transcriptHash ← P.sha256 envelope.headerBytes
    let wins := incomingWins probe.sender.repair.isSome existing sender.deviceId recipientDeviceId
    let updatedExistingState ← encodeDemoted P device wins existing
    let session := acceptedSession recipientDeviceId sender.deviceId header transcriptHash wins
      agreed.2.1 step.2 agreed.1
    let consumed ← consumeNamed device header
    let sessionState ← session.encode P consumed.1
    let nextDeviceState ← encodeDeviceState P consumed.1
    let replayMarker ← P.sha256 envelopeBytes
    return {
      nextDeviceState := nextDeviceState
      session := session
      sessionState := sessionState
      inner := inner
      replayMarker := replayMarker
      consumedClassicalId := consumed.2.1
      consumedPqId := consumed.2.2
      disposition := (!wins).toUInt8
      updatedExistingState := updatedExistingState
      replacedSessionId := replacedSessionId
      referencedSignedPrekeyId := header.signedPrekeyId
      referencedPqSignedPrekeyId := header.pqSignedPrekeyId }

end CommPlatform.L3
