import CommPlatform.L2Crypto.DeviceState

/-!
# Reading a stored device state

`decode_device_state`: the version 1 package of an enrolled device, from
which a state is migrated, and the authenticated version 2 encoding that
every operation stores. The decoder checks order, ids, counts, key pairs
and signatures that the encoder writes as they are, so whether a device
keeps its identity rests on the operations.

Bare line numbers are those of `prekey_state.rs`.
-/
namespace CommPlatform.L2

open CommPlatform.Core L1
open L1.Reader hiding failIf

/-- The provider methods that only prekey maintenance calls: ML-KEM key generation from its 64 coins
and the verifying key of an Ed25519 seed (`SigningKey::from_bytes`). -/
structure PrekeyProvider extends CryptoProvider where
  mlkem768Keypair : Block 64 → CryptoResult (Block 1184 × Block 2400)
  ed25519Public : Key → Key

/-- Signatures of a seed verify under its verifying key, and an ML-KEM decapsulation key holds the
encapsulation key generated with it (FIPS 203). -/
structure PrekeyProvider.Lawful (P : PrekeyProvider) : Prop where
  signs : ∀ s m sig, P.ed25519Sign s m = .ok sig → P.ed25519Verify (P.ed25519Public s) m sig = .ok ()
  embeds : ∀ coins p s, P.mlkem768Keypair coins = .ok (p, s) → s.slice 1152 1184 = p

/-! ## What the signatures cover -/

def signedPrekeyDomain : Bytes := ascii "chat:v1:signed-prekey"
def pqSignedPrekeyDomain : Bytes := ascii "chat:v1:pq-signed-prekey"
def crossSignatureDomain : Bytes := ascii "chat:v1:device-bundle"
def masterSignatureDomain : Bytes := ascii "chat:v1:cross-signing-keys"

/-- mirrors device_signatures.rs:280-297 -/
def encoderField (bytes field : Bytes) : CryptoResult Bytes := do
  let length ← tryU32 field.length .inputTooLarge
  failIf (bytes.length + 4 + field.length > maxInputBytes) .inputTooLarge
  return bytes ++ pushU32 length ++ field

/-- mirrors device_signatures.rs:271-278 -/
def encoderFields (domain : Bytes) (fields : List Bytes) : CryptoResult Bytes := do
  failIf (domain.length > maxInputBytes) .inputTooLarge
  fields.foldlM encoderField domain

/-- mirrors device_signatures.rs:249-255 -/
def encodePrekey (domain : Bytes) (userId : Block 16) (id : UInt32) (publicKey : Bytes) :
    CryptoResult Bytes :=
  encoderFields domain [userId.bytes, pushU32 id, publicKey]

/-- mirrors device_signatures.rs:191-193 -/
def encodeSignedPrekey (userId : Block 16) (id : UInt32) (publicKey : Key) : CryptoResult Bytes :=
  encodePrekey signedPrekeyDomain userId id publicKey.bytes

/-- mirrors device_signatures.rs:195-197 -/
def encodePqSignedPrekey (userId : Block 16) (id : UInt32) (publicKey : Block 1184) :
    CryptoResult Bytes :=
  encodePrekey pqSignedPrekeyDomain userId id publicKey.bytes

/-! ## Validation -/

def maxClassicalOneTime : Nat := 400
def maxPqOneTime : Nat := 240
def maxRetiredSignedPairs : Nat := 3
def uploadReplenish : UInt8 := 1
def uploadRotation : UInt8 := 2

/-- `valid_key_id(reader.u32()?)?`.
mirrors :931-937 -/
def readKeyId : Reader UInt32 := do
  let id ← u32
  Reader.failIf (id > keyIdMax) .malformedInput
  return id

/-- No two neighbours (`windows(2)`) are out of strict order of `key`. -/
def idsSorted {α : Type} (key : α → UInt32) (l : List α) : Bool :=
  (l.zip l.tail).all fun pair => key pair.1 < key pair.2

/-- mirrors :633-647 -/
def validatePqPublicInSecret (secret : Block 2400) (publicKey : Block 1184) : CryptoResult Unit :=
  failIf (secret.slice 1152 1184 ≠ publicKey) .authenticationFailed

/-- `provider.x25519_public(secret)? != public`. -/
def checkX25519 (P : CryptoProvider) (secret publicKey : Key) : CryptoResult Unit := do
  let derived ← P.x25519Public secret
  failIf (derived ≠ publicKey) .authenticationFailed

/-- mirrors :591-611 -/
def validateClassicalSigned (P : CryptoProvider) (signer : Key) (userId : Block 16)
    (key : ClassicalSignedKey) : CryptoResult Unit := do
  checkX25519 P key.secretKey key.publicKey
  let signed ← encodeSignedPrekey userId key.id key.publicKey
  P.ed25519Verify signer signed key.signature

/-- mirrors :613-631 -/
def validatePqSigned (P : CryptoProvider) (signer : Key) (userId : Block 16)
    (key : PqSignedKey) : CryptoResult Unit := do
  validatePqPublicInSecret key.secretKey key.publicKey
  let signed ← encodePqSignedPrekey userId key.id key.publicKey
  P.ed25519Verify signer signed key.signature

/-- `f` on every element, up to the first error. -/
def forEach {α : Type} (f : α → CryptoResult Unit) : List α → CryptoResult Unit
  | [] => .ok ()
  | a :: l => do
    f a
    forEach f l

/-- mirrors :561-589 -/
def validateDeviceMaterial (P : CryptoProvider) (d : DeviceState) : CryptoResult Unit := do
  validateClassicalSigned P d.deviceSigningPublic d.userId d.currentClassical
  validatePqSigned P d.deviceSigningPublic d.userId d.currentPq
  failIf (¬ (idsSorted (·.classical.id) d.retired ∧ idsSorted (·.pq.id) d.retired)) .malformedInput
  forEach (fun pair => do
    validateClassicalSigned P d.deviceSigningPublic d.userId pair.classical
    validatePqSigned P d.deviceSigningPublic d.userId pair.pq) d.retired
  forEach (fun key => checkX25519 P key.secretKey key.publicKey) d.classicalOneTime
  forEach (fun key => validatePqPublicInSecret key.secretKey key.publicKey) d.pqOneTime

/-! ## Version 2 -/

/-- mirrors :947-955 -/
def decodeClassicalSigned : Reader ClassicalSignedKey := do
  let id ← readKeyId
  let createdDay ← u32
  let publicKey ← array 32
  let signature ← array 64
  let secretKey ← array 32
  return ⟨id, createdDay, publicKey, signature, secretKey⟩

/-- mirrors :965-973 -/
def decodePqSigned : Reader PqSignedKey := do
  let id ← readKeyId
  let createdDay ← u32
  let publicKey ← array 1184
  let signature ← array 64
  let secretKey ← array 2400
  return ⟨id, createdDay, publicKey, signature, secretKey⟩

def decodeRetired : Reader RetiredSignedPair := do
  let retainThroughDay ← u32
  let classical ← decodeClassicalSigned
  let pq ← decodePqSigned
  return ⟨retainThroughDay, classical, pq⟩

def decodeClassicalOneTime : Reader ClassicalOneTimeKey := do
  let id ← readKeyId
  let publicKey ← array 32
  let secretKey ← array 32
  return ⟨id, publicKey, secretKey⟩

def decodePqOneTime : Reader PqOneTimeKey := do
  let id ← readKeyId
  let publicKey ← array 1184
  let secretKey ← array 2400
  return ⟨id, publicKey, secretKey⟩

/-- mirrors :496-508 -/
def decodePending : Reader (Option PendingUpload) := do
  if ← boolean then
    let kind ← u8
    Reader.failIf (kind ≠ uploadReplenish ∧ kind ≠ uploadRotation) .malformedInput
    let batchId ← array 16
    let exactProjection ← framed
    return some ⟨batchId, kind, exactProjection⟩
  else return none

/-- A high-water mark is an id to hand out, or the mark of an exhausted space. -/
def validHighWater (next : UInt32) : Bool := next = 0xffffffff || next ≤ keyIdMax

/-- The relations between fields that the reader of a stored state requires. -/
def DeviceState.fieldsConsistent (d : DeviceState) : Bool :=
  d.bundleVersion ≠ 0 && !d.userId.bytes.all (· == 0) && validHighWater d.nextClassicalOneTimeId &&
    validHighWater d.nextPqOneTimeId &&
    d.classicalOneTime.all (fun key => key.id < d.nextClassicalOneTimeId) &&
    d.pqOneTime.all (fun key => key.id < d.nextPqOneTimeId)

/-- The reader of the authenticated bytes.
mirrors :436-522 -/
def decodeV2Body : Reader DeviceState := do
  let magic ← take 8
  Reader.failIf (magic ≠ deviceV2Magic) .unsupportedVersion
  let userId ← array 16
  let registrationId ← u32
  let bundleVersion ← u32
  let nextClassicalOneTimeId ← u32
  let nextPqOneTimeId ← u32
  let deviceSigningPublic ← array 32
  let identityPublic ← array 32
  let deviceSigningSecret ← array 32
  let identitySecret ← array 32
  let currentClassical ← decodeClassicalSigned
  let currentPq ← decodePqSigned
  let crossSignature ← array 64
  let retiredCount ← u8
  Reader.failIf (retiredCount.toNat > maxRetiredSignedPairs) .resourceExhausted
  let retired ← Reader.many decodeRetired retiredCount.toNat
  let classicalCount ← u16
  Reader.failIf (classicalCount.toNat > maxClassicalOneTime) .resourceExhausted
  let classicalOneTime ← Reader.many decodeClassicalOneTime classicalCount.toNat
  let pqCount ← u16
  Reader.failIf (pqCount.toNat > maxPqOneTime) .resourceExhausted
  let pqOneTime ← Reader.many decodePqOneTime pqCount.toNat
  let pending ← decodePending
  let finished ← isFinished
  let state : DeviceState := ⟨userId, registrationId, bundleVersion, nextClassicalOneTimeId,
    nextPqOneTimeId, deviceSigningPublic, identityPublic, deviceSigningSecret, identitySecret,
    currentClassical, currentPq, crossSignature, retired, classicalOneTime, pqOneTime, pending⟩
  Reader.failIf (¬ finished ∨ ¬ state.fieldsConsistent) .malformedInput
  return state

/-- mirrors :430-559 -/
def decodeV2 (P : PrekeyProvider) (input : Bytes) : CryptoResult DeviceState := do
  failIf (input.length < 32 + 8) .malformedInput
  let encoded := input.take (input.length - 32)
  let d ← Reader.parse decodeV2Body encoded
  let authKey ← deviceAuthKey P.toCryptoProvider d.identitySecret
  let expectedTag ← hmacSha256 P.toCryptoProvider authKey.bytes encoded
  failIf (expectedTag.bytes ≠ input.drop (input.length - 32)) .authenticationFailed
  failIf (P.ed25519Public d.deviceSigningSecret ≠ d.deviceSigningPublic) .authenticationFailed
  checkX25519 P.toCryptoProvider d.identitySecret d.identityPublic
  checkX25519 P.toCryptoProvider d.currentClassical.secretKey d.currentClassical.publicKey
  failIf (¬ idsSorted (·.id) d.classicalOneTime) .malformedInput
  failIf (¬ idsSorted (·.id) d.pqOneTime) .malformedInput
  validateDeviceMaterial P.toCryptoProvider d
  return d

/-! ## Version 1 -/

def deviceV1Magic : Bytes := ascii "CPDVV001"

/-- The id after the largest one held, or the mark of an exhausted space.
mirrors :200-207 -/
def initialNextId (ids : List UInt32) : CryptoResult UInt32 :=
  let current := ids.foldl max 0
  if current = keyIdMax then .ok 0xffffffff
  else if current.toNat + 1 < 2 ^ 32 then .ok (current + 1)
  else .error .stateViolation

structure V1Package where
  userId : Block 16
  registrationId : UInt32
  deviceSigningPublic : Key
  identityPublic : Key
  fingerprint : Block 32
  deviceSigningSecret : Key
  identitySecret : Key
  signedPrekey : ClassicalSignedKey
  pqSignedPrekey : PqSignedKey
  classicalOneTime : List ClassicalOneTimeKey
  pqOneTime : List PqOneTimeKey
  finished : Bool

def readPublicHalf (n : Nat) : Reader (UInt32 × Block n) := do
  let id ← readKeyId
  let publicKey ← array n
  return (id, publicKey)

def readClassicalSecret (key : UInt32 × Key) : Reader ClassicalOneTimeKey := do
  let secretKey ← array 32
  return ⟨key.1, key.2, secretKey⟩

def readPqSecret (key : UInt32 × Block 1184) : Reader PqOneTimeKey := do
  let secretKey ← array 2400
  return ⟨key.1, key.2, secretKey⟩

/-- mirrors :304-361 -/
def readV1 (createdDay : UInt32) : Reader V1Package := do
  let magic ← take 8
  Reader.failIf (magic ≠ deviceV1Magic) .unsupportedVersion
  let userId ← array 16
  let registrationId ← u32
  let spkId ← readKeyId
  let pqSpkId ← readKeyId
  let classicalCount ← u16
  let pqCount ← u16
  Reader.failIf (classicalCount = 0 ∨ classicalCount > 8 ∨ pqCount = 0 ∨ pqCount > 4 ∨
    userId.bytes.all (· == 0)) .malformedInput
  let deviceSigningPublic ← array 32
  let identityPublic ← array 32
  let spkPublic ← array 32
  let spkSignature ← array 64
  let pqSpkPublic ← array 1184
  let pqSpkSignature ← array 64
  let fingerprint ← array 32
  let classicalPublic ← Reader.many (readPublicHalf 32) classicalCount.toNat
  let pqPublic ← Reader.many (readPublicHalf 1184) pqCount.toNat
  let deviceSigningSecret ← array 32
  let identitySecret ← array 32
  let spkSecret ← array 32
  let pqSpkSecret ← array 2400
  let classicalOneTime ← each readClassicalSecret classicalPublic
  let pqOneTime ← each readPqSecret pqPublic
  let finished ← isFinished
  return {
    userId := userId
    registrationId := registrationId
    deviceSigningPublic := deviceSigningPublic
    identityPublic := identityPublic
    fingerprint := fingerprint
    deviceSigningSecret := deviceSigningSecret
    identitySecret := identitySecret
    signedPrekey := ⟨spkId, createdDay, spkPublic, spkSignature, spkSecret⟩
    pqSignedPrekey := ⟨pqSpkId, createdDay, pqSpkPublic, pqSpkSignature, pqSpkSecret⟩
    classicalOneTime := classicalOneTime
    pqOneTime := pqOneTime
    finished := finished }

/-- mirrors enrollment.rs:207-230 -/
def encodeV1 (p : V1Package) : Bytes :=
  deviceV1Magic ++ p.userId.bytes ++ pushU32 p.registrationId ++ pushU32 p.signedPrekey.id ++
    pushU32 p.pqSignedPrekey.id ++ pushU16 (UInt16.ofNat p.classicalOneTime.length) ++
    pushU16 (UInt16.ofNat p.pqOneTime.length) ++ p.deviceSigningPublic.bytes ++
    p.identityPublic.bytes ++ p.signedPrekey.publicKey.bytes ++ p.signedPrekey.signature.bytes ++
    p.pqSignedPrekey.publicKey.bytes ++ p.pqSignedPrekey.signature.bytes ++ p.fingerprint.bytes ++
    p.classicalOneTime.flatMap (fun k => pushU32 k.id ++ k.publicKey.bytes) ++
    p.pqOneTime.flatMap (fun k => pushU32 k.id ++ k.publicKey.bytes) ++
    p.deviceSigningSecret.bytes ++ p.identitySecret.bytes ++ p.signedPrekey.secretKey.bytes ++
    p.pqSignedPrekey.secretKey.bytes ++ p.classicalOneTime.flatMap (·.secretKey.bytes) ++
    p.pqOneTime.flatMap (·.secretKey.bytes)

/-- The state a package is migrated to; its signed pair counts as seven days old.
mirrors :293-428 -/
def decodeV1 (P : PrekeyProvider) (input : Bytes) (migrationDay : UInt32) :
    CryptoResult DeviceState := do
  let createdDay : UInt32 := if 7 ≤ migrationDay then migrationDay - 7 else 0
  let p ← Reader.parse (readV1 createdDay) input
  failIf (¬ p.finished ∨ P.ed25519Public p.deviceSigningSecret ≠ p.deviceSigningPublic)
    .authenticationFailed
  checkX25519 P.toCryptoProvider p.identitySecret p.identityPublic
  checkX25519 P.toCryptoProvider p.signedPrekey.secretKey p.signedPrekey.publicKey
  let fingerprint ← P.sha256 (p.deviceSigningPublic.bytes ++ p.identityPublic.bytes)
  failIf (fingerprint ≠ p.fingerprint) .authenticationFailed
  failIf (¬ idsSorted (·.id) p.classicalOneTime) .malformedInput
  failIf (¬ idsSorted (·.id) p.pqOneTime) .malformedInput
  let signed ← encodeSignedPrekey p.userId p.signedPrekey.id p.signedPrekey.publicKey
  P.ed25519Verify p.deviceSigningPublic signed p.signedPrekey.signature
  let pqSigned ← encodePqSignedPrekey p.userId p.pqSignedPrekey.id p.pqSignedPrekey.publicKey
  P.ed25519Verify p.deviceSigningPublic pqSigned p.pqSignedPrekey.signature
  let nextClassicalOneTimeId ← initialNextId (p.classicalOneTime.map (·.id))
  let nextPqOneTimeId ← initialNextId (p.pqOneTime.map (·.id))
  let state : DeviceState :=
    { userId := p.userId
      registrationId := p.registrationId
      bundleVersion := 1
      nextClassicalOneTimeId := nextClassicalOneTimeId
      nextPqOneTimeId := nextPqOneTimeId
      deviceSigningPublic := p.deviceSigningPublic
      identityPublic := p.identityPublic
      deviceSigningSecret := p.deviceSigningSecret
      identitySecret := p.identitySecret
      currentClassical := p.signedPrekey
      currentPq := p.pqSignedPrekey
      crossSignature := Block.fill 64 0
      retired := []
      classicalOneTime := p.classicalOneTime
      pqOneTime := p.pqOneTime
      pending := none }
  validateDeviceMaterial P.toCryptoProvider state
  return state

/-- mirrors :222-232 -/
def decodeDeviceState (P : PrekeyProvider) (input : Bytes) (migrationDay : UInt32) :
    CryptoResult DeviceState :=
  if 8 ≤ input.length ∧ input.take 8 = deviceV1Magic then decodeV1 P input migrationDay
  else if 8 ≤ input.length ∧ input.take 8 = deviceV2Magic then decodeV2 P input
  else .error .unsupportedVersion

variable {u : Unit}

/-! ## What the decoder demands -/

theorem forEach_eq_ok {α : Type} {f : α → CryptoResult Unit} {l : List α} :
    forEach f l = .ok u ↔ ∀ a ∈ l, f a = .ok () := by
  induction l with
  | nil => simp [forEach]
  | cons a l ih => simp [forEach, unit_bind_eq_ok, ih]

variable {d : DeviceState}

theorem idsSorted_iff {α : Type} {key : α → UInt32} {l : List α} :
    idsSorted key l = true ↔ l.Pairwise (key · < key ·) := by
  have htrans : ∀ a b c : α, key a < key b → key b < key c → key a < key c :=
    fun _ _ _ => UInt32.lt_trans
  induction l with
  | nil => simp [idsSorted]
  | cons a l ih =>
    cases l with
    | nil => simp [idsSorted]
    | cons b l =>
      have hstep : idsSorted key (a :: b :: l) = (decide (key a < key b) && idsSorted key (b :: l)) :=
        rfl
      have ih' : idsSorted key (b :: l) = true ↔ (b :: l).Pairwise (key · < key ·) := ih
      rw [hstep, Bool.and_eq_true, ih', decide_eq_true_eq,
        List.pairwise_cons (a := a) (l := b :: l)]
      refine and_congr_left fun hl => ⟨fun hab c hc => ?_, fun h => h b List.mem_cons_self⟩
      rcases List.mem_cons.mp hc with rfl | hc
      · exact hab
      · exact htrans a b c hab (List.rel_of_pairwise_cons hl hc)

theorem DeviceState.fieldsConsistent_iff : d.fieldsConsistent = true ↔
    d.bundleVersion ≠ 0 ∧ d.userId.bytes.all (· == 0) = false ∧
      validHighWater d.nextClassicalOneTimeId = true ∧ validHighWater d.nextPqOneTimeId = true ∧
      (∀ k ∈ d.classicalOneTime, k.id < d.nextClassicalOneTimeId) ∧
      ∀ k ∈ d.pqOneTime, k.id < d.nextPqOneTimeId := by
  simp only [DeviceState.fieldsConsistent, Bool.and_eq_true, decide_eq_true_eq, List.all_eq_true,
    Bool.not_eq_true', and_assoc]

def maxProjectionBytes : Nat := 126033

/-- What the layout of a stored state demands, the order and age of the signed pairs that the
operations rely on besides, and the size of a pending upload. -/
structure DeviceState.Readable (d : DeviceState) : Prop where
  fields : d.fieldsConsistent = true
  classicalIds : ∀ k ∈ d.classicalOneTime, k.id ≤ keyIdMax
  pqIds : ∀ k ∈ d.pqOneTime, k.id ≤ keyIdMax
  classicalSorted : d.classicalOneTime.Pairwise (·.id < ·.id)
  pqSorted : d.pqOneTime.Pairwise (·.id < ·.id)
  classicalCount : d.classicalOneTime.length ≤ maxClassicalOneTime
  pqCount : d.pqOneTime.length ≤ maxPqOneTime
  retiredCount : d.retired.length ≤ maxRetiredSignedPairs
  currentIds : d.currentClassical.id ≤ keyIdMax ∧ d.currentPq.id ≤ keyIdMax
  retiredIds : ∀ p ∈ d.retired, p.classical.id < d.currentClassical.id ∧ p.pq.id < d.currentPq.id
  retiredSorted : d.retired.Pairwise fun p q => p.classical.id < q.classical.id ∧ p.pq.id < q.pq.id
  pending : ∀ p ∈ d.pending, (p.kind = uploadReplenish ∨ p.kind = uploadRotation) ∧
    p.exactProjection.length ≤ maxProjectionBytes
  createdDay : d.currentClassical.createdDay = d.currentPq.createdDay

variable {P : CryptoProvider}

/-- A readable state whose keys belong together and whose signatures verify: all that
`decode_device_state` demands. -/
structure DeviceState.Closed (P : PrekeyProvider) (d : DeviceState) : Prop
    extends DeviceState.Readable d where
  signing : P.ed25519Public d.deviceSigningSecret = d.deviceSigningPublic
  identity : P.x25519Public d.identitySecret = .ok d.identityPublic
  material : validateDeviceMaterial P.toCryptoProvider d = .ok ()

theorem checkX25519_eq_ok {s p : Key} : checkX25519 P s p = .ok u ↔ P.x25519Public s = .ok p := by
  simp only [checkX25519, ok_steps, not_not]
  constructor
  · rintro ⟨q, hq, rfl⟩
    exact hq
  · intro h
    exact ⟨p, h, rfl⟩

variable {signer : Key} {userId : Block 16} {k : ClassicalSignedKey}

theorem validateClassicalSigned_eq_ok : validateClassicalSigned P signer userId k = .ok u ↔
      P.x25519Public k.secretKey = .ok k.publicKey ∧
      ∃ m, encodeSignedPrekey userId k.id k.publicKey = .ok m ∧
        P.ed25519Verify signer m k.signature = .ok u := by
  rw [validateClassicalSigned, unit_bind_eq_ok, checkX25519_eq_ok, bind_eq_ok]

theorem validatePqSigned_eq_ok {k : PqSignedKey} : validatePqSigned P signer userId k = .ok u ↔
      k.secretKey.slice 1152 1184 = k.publicKey ∧
      ∃ m, encodePqSignedPrekey userId k.id k.publicKey = .ok m ∧
        P.ed25519Verify signer m k.signature = .ok u := by
  rw [validatePqSigned, unit_bind_eq_ok, validatePqPublicInSecret, failIf_eq_ok, not_not, bind_eq_ok]

theorem validateDeviceMaterial_eq_ok : validateDeviceMaterial P d = .ok u ↔
      validateClassicalSigned P d.deviceSigningPublic d.userId d.currentClassical = .ok () ∧
      validatePqSigned P d.deviceSigningPublic d.userId d.currentPq = .ok () ∧
      (d.retired.Pairwise fun p q => p.classical.id < q.classical.id ∧ p.pq.id < q.pq.id) ∧
      (∀ p ∈ d.retired,
        validateClassicalSigned P d.deviceSigningPublic d.userId p.classical = .ok () ∧
        validatePqSigned P d.deviceSigningPublic d.userId p.pq = .ok ()) ∧
      (∀ k ∈ d.classicalOneTime, P.x25519Public k.secretKey = .ok k.publicKey) ∧
      ∀ k ∈ d.pqOneTime, k.secretKey.slice 1152 1184 = k.publicKey := by
  unfold validateDeviceMaterial validatePqPublicInSecret
  simp only [unit_bind_eq_ok, failIf_eq_ok, not_not, forEach_eq_ok, idsSorted_iff,
    checkX25519_eq_ok, List.pairwise_and_iff]

/-! ## Reading back an encoded state -/

variable {id : UInt32}

theorem readKeyId_run (h : id ≤ keyIdMax) (r : Bytes) :
    readKeyId.run (pushU32 id ++ r) = .ok (id, r) := by
  simp [readKeyId, failIf_run, UInt32.not_lt.mpr h]

theorem decodeClassicalSigned_run (h : k.id ≤ keyIdMax) (r : Bytes) :
    decodeClassicalSigned.run (encodeClassicalSigned k ++ r) = .ok (k, r) := by
  simp [decodeClassicalSigned, encodeClassicalSigned, readKeyId_run h]

theorem decodePqSigned_run {k : PqSignedKey} (h : k.id ≤ keyIdMax) (r : Bytes) :
    decodePqSigned.run (encodePqSigned k ++ r) = .ok (k, r) := by
  simp [decodePqSigned, encodePqSigned, readKeyId_run h]

theorem decodeRetired_run {p : RetiredSignedPair} (hc : p.classical.id ≤ keyIdMax)
    (hp : p.pq.id ≤ keyIdMax) (r : Bytes) :
    decodeRetired.run (encodeRetired p ++ r) = .ok (p, r) := by
  simp [decodeRetired, encodeRetired, decodeClassicalSigned_run hc, decodePqSigned_run hp]

theorem decodeClassicalOneTime_run {k : ClassicalOneTimeKey} (h : k.id ≤ keyIdMax) (r : Bytes) :
    decodeClassicalOneTime.run (encodeClassicalOneTime k ++ r) = .ok (k, r) := by
  simp [decodeClassicalOneTime, encodeClassicalOneTime, readKeyId_run h]

variable {b : Bytes}

theorem decodePqOneTime_run {k : PqOneTimeKey} (h : k.id ≤ keyIdMax) (r : Bytes) :
    decodePqOneTime.run (encodePqOneTime k ++ r) = .ok (k, r) := by
  simp [decodePqOneTime, encodePqOneTime, readKeyId_run h]

variable {o : Option PendingUpload}

theorem decodePending_run (h : encodePending o = .ok b)
    (ho : ∀ p ∈ o, (p.kind = uploadReplenish ∨ p.kind = uploadRotation) ∧
      p.exactProjection.length ≤ maxProjectionBytes) :
    decodePending.run b = .ok (o, []) := by
  cases o with
  | none => cases h; rfl
  | some p =>
    obtain ⟨hkind, hlen⟩ := ho p rfl
    obtain ⟨f, hf, hb⟩ := bind_eq_ok.mp h
    cases hb
    have hframe := framed_run hf (hlen.trans (by decide)) []
    rw [List.append_nil] at hframe
    have hc : ¬(¬p.kind = uploadReplenish ∧ ¬p.kind = uploadRotation) := by tauto
    simp [decodePending, failIf_run, hc, hframe]

/-- The authenticated bytes of a state; `pending` is the encoded upload. -/
def encodeDeviceBody (d : DeviceState) (pending : Bytes) : Bytes :=
  encodeDeviceHead d ++ UInt8.ofNat d.retired.length :: d.retired.flatMap encodeRetired ++
    pushU16 (UInt16.ofNat d.classicalOneTime.length) ++
    d.classicalOneTime.flatMap encodeClassicalOneTime ++
    pushU16 (UInt16.ofNat d.pqOneTime.length) ++ d.pqOneTime.flatMap encodePqOneTime ++ pending

theorem encodeDeviceState_eq_ok (h : encodeDeviceState P d = .ok b) : ∃ p k t, encodePending
    d.pending = .ok p ∧
      deviceAuthKey P d.identitySecret = .ok k ∧
      hmacSha256 P k.bytes (encodeDeviceBody d p) = .ok t ∧ b = encodeDeviceBody d p ++ t.bytes := by
  unfold encodeDeviceState at h
  simp only [ok_steps, tryU16_eq_ok] at h
  obtain ⟨_, -, _, -, _, ⟨-, rfl⟩, _, ⟨-, rfl⟩, p, hp, k, hk, t, ht, _, -, h⟩ := h
  exact ⟨p, k, t, hp, hk, ht, h.symm⟩

theorem encodeDeviceState_le (h : encodeDeviceState P d = .ok b) : b.length ≤ maxInputBytes := by
  unfold encodeDeviceState at h
  simp only [ok_steps, Nat.not_lt] at h
  obtain ⟨_, -, _, -, _, -, _, -, p, -, k, -, t, -, _, hle, rfl⟩ := h
  exact hle

theorem decodeV2Body_encode (hd : d.Readable) {p : Bytes} (hp : encodePending d.pending = .ok p) :
    Reader.parse decodeV2Body (encodeDeviceBody d p) = .ok d := by
  have hmagic : ∀ r, (take 8).run (deviceV2Magic ++ r) = .ok (deviceV2Magic, r) :=
    fun r => take_run_append r (by decide)
  have hretired := many_run encodeRetired (l := d.retired) (x := decodeRetired)
    fun q hq r => decodeRetired_run
      (UInt32.le_of_lt (UInt32.lt_of_lt_of_le (hd.retiredIds q hq).1 hd.currentIds.1))
      (UInt32.le_of_lt (UInt32.lt_of_lt_of_le (hd.retiredIds q hq).2 hd.currentIds.2)) r
  have hclassical := many_run encodeClassicalOneTime (l := d.classicalOneTime)
    (x := decodeClassicalOneTime) fun k hk r => decodeClassicalOneTime_run (hd.classicalIds k hk) r
  have hpq := many_run encodePqOneTime (l := d.pqOneTime)
    (x := decodePqOneTime) fun k hk r => decodePqOneTime_run (hd.pqIds k hk) r
  have h1 := hd.retiredCount
  have h2 := hd.classicalCount
  have h3 := hd.pqCount
  unfold maxRetiredSignedPairs at h1
  unfold maxClassicalOneTime at h2
  unfold maxPqOneTime at h3
  have hn1 : (UInt8.ofNat d.retired.length).toNat = d.retired.length := by simp; omega
  have hn2 : (UInt16.ofNat d.classicalOneTime.length).toNat = d.classicalOneTime.length := by
    simp; omega
  have hn3 : (UInt16.ofNat d.pqOneTime.length).toNat = d.pqOneTime.length := by simp; omega
  simp [Reader.parse, decodeV2Body, encodeDeviceBody, encodeDeviceHead, hmagic, failIf_run,
    decodeClassicalSigned_run hd.currentIds.1, decodePqSigned_run hd.currentIds.2, hn1, hn2, hn3,
    hretired, hclassical, hpq, decodePending_run hp hd.pending, Nat.not_lt.mpr hd.retiredCount,
    Nat.not_lt.mpr hd.classicalCount, Nat.not_lt.mpr hd.pqCount, hd.fields]

theorem encodeDeviceBody_magic (d : DeviceState) (p : Bytes) :
    ∃ rest, encodeDeviceBody d p = deviceV2Magic ++ rest := by
  unfold encodeDeviceBody encodeDeviceHead
  simp only [List.append_assoc]
  exact ⟨_, rfl⟩

variable {P : PrekeyProvider}

/-- Decoding an encoded state: layout and tag are accepted, so only the key material decides. -/
theorem decodeDeviceState_readable (hd : d.Readable)
    (h : encodeDeviceState P.toCryptoProvider d = .ok b) (day : UInt32) :
    decodeDeviceState P b day = (do
      failIf (P.ed25519Public d.deviceSigningSecret ≠ d.deviceSigningPublic) .authenticationFailed
      checkX25519 P.toCryptoProvider d.identitySecret d.identityPublic
      checkX25519 P.toCryptoProvider d.currentClassical.secretKey d.currentClassical.publicKey
      validateDeviceMaterial P.toCryptoProvider d
      return d) := by
  obtain ⟨p, k, t, hp, hk, ht, hb⟩ := encodeDeviceState_eq_ok h
  have hread := decodeV2Body_encode hd hp
  obtain ⟨rest, hbody⟩ := encodeDeviceBody_magic d p
  have hm : deviceV2Magic.length = 8 := by decide
  have hmagic : b.take 8 = deviceV2Magic := by
    rw [hb, hbody, List.append_assoc, List.take_left' hm]
  have hlen : 8 + 32 ≤ b.length := by
    rw [hb, hbody]; simp [hm]; omega
  have hcut : b.length - 32 = (encodeDeviceBody d p).length := by rw [hb]; simp
  have htake : b.take (b.length - 32) = encodeDeviceBody d p := by rw [hcut, hb, List.take_left]
  have hdrop : b.drop (b.length - 32) = t.bytes := by rw [hcut, hb, List.drop_left]
  unfold decodeDeviceState
  rw [if_neg (by rw [hmagic]; exact fun h => absurd h.2 (by decide)), if_pos ⟨by omega, hmagic⟩]
  unfold decodeV2
  rw [failIf_neg (by omega)]
  simp only [htake, hdrop, hread, ok_bind, hk, ht]
  rw [failIf_neg (by simp)]
  rw [failIf_neg (c := ¬ idsSorted (·.id) d.classicalOneTime = true)
      (by simpa using idsSorted_iff.mpr hd.classicalSorted),
    failIf_neg (c := ¬ idsSorted (·.id) d.pqOneTime = true)
      (by simpa using idsSorted_iff.mpr hd.pqSorted)]
  simp only [ok_bind]

theorem decodeDeviceState_encode (hd : d.Closed P)
    (h : encodeDeviceState P.toCryptoProvider d = .ok b) (day : UInt32) :
    decodeDeviceState P b day = .ok d := by
  have hvalid := validateDeviceMaterial_eq_ok.mp hd.material
  have hcurrent : P.x25519Public d.currentClassical.secretKey = .ok d.currentClassical.publicKey :=
    (validateClassicalSigned_eq_ok.mp hvalid.1).1
  rw [decodeDeviceState_readable hd.toReadable h]
  simp only [unit_bind_eq_ok, failIf_eq_ok, not_not, checkX25519_eq_ok, pure_eq_ok]
  exact ⟨hd.signing, hd.identity, hcurrent, hd.material, trivial⟩

variable {day : UInt32}

theorem decodeDeviceState_eq {d d' : DeviceState} (hd : d.Readable)
    (h : encodeDeviceState P.toCryptoProvider d = .ok b)
    (h' : decodeDeviceState P b day = .ok d') : d' = d := by
  rw [decodeDeviceState_readable hd h] at h'
  simp only [unit_bind_eq_ok, pure_eq_ok, Except.ok.injEq] at h'
  exact h'.2.2.2.2.symm

/-! ## A readable state encodes -/

theorem length_flatMap_encodeRetired (l : List RetiredSignedPair) :
    (l.flatMap encodeRetired).length = 3796 * l.length := by
  induction l with
  | nil => rfl
  | cons p l ih =>
    simp [encodeRetired, encodeClassicalSigned, encodePqSigned]; omega

theorem encodePending_isOk (ho : ∀ p ∈ o, p.exactProjection.length ≤ maxProjectionBytes) :
    ∃ b, encodePending o = .ok b ∧ b.length ≤ 22 + maxProjectionBytes := by
  cases o with
  | none => exact ⟨[0], rfl, by decide⟩
  | some p =>
    have hlen := ho p rfl
    have hlt : p.exactProjection.length < 2 ^ 32 := by unfold maxProjectionBytes at hlen; omega
    refine ⟨_, by simp only [encodePending, pushFrame, tryU32_of_lt hlt]; rfl, ?_⟩
    simp; omega

theorem DeviceState.Readable.encodes (P : CryptoProvider) (hd : d.Readable) :
    ∃ b, encodeDeviceState P d = .ok b := by
  obtain ⟨p, hp, hlen⟩ := encodePending_isOk fun q hq => (hd.pending q hq).2
  have h1 := hd.retiredCount
  have h2 := hd.classicalCount
  have h3 := hd.pqCount
  unfold maxRetiredSignedPairs at h1
  unfold maxClassicalOneTime at h2
  unfold maxPqOneTime at h3
  refine encodeDeviceState_isOk.mpr ⟨by omega, by omega, by omega, p, hp, ?_⟩
  unfold encodedLength
  rw [length_encodeDeviceHead, length_flatMap_encodeRetired]
  unfold maxInputBytes
  unfold maxProjectionBytes at hlen
  omega

/-! ## A migrated state is closed -/

variable {r r' : Bytes}

theorem readKeyId_eq_ok (h : readKeyId.run r = .ok (id, r')) : id ≤ keyIdMax := by
  obtain ⟨i, r1, -, h⟩ := run_bind_eq_ok.mp h
  obtain ⟨_, r2, hc, h⟩ := run_bind_eq_ok.mp h
  cases h
  simpa using (failIf_run_eq_ok.mp hc).1

theorem readPublicHalf_eq_ok {n : Nat} {k : UInt32 × Block n}
    (h : (readPublicHalf n).run r = .ok (k, r')) : k.1 ≤ keyIdMax := by
  obtain ⟨id, _, hid, h⟩ := run_bind_eq_ok.mp h
  obtain ⟨_, _, -, h⟩ := run_bind_eq_ok.mp h
  cases h
  exact readKeyId_eq_ok hid

structure V1Package.Sound (p : V1Package) : Prop where
  userId : p.userId.bytes.all (· == 0) = false
  classicalIds : ∀ k ∈ p.classicalOneTime, k.id ≤ keyIdMax
  pqIds : ∀ k ∈ p.pqOneTime, k.id ≤ keyIdMax
  classicalCount : p.classicalOneTime.length ≤ 8
  pqCount : p.pqOneTime.length ≤ 4
  currentIds : p.signedPrekey.id ≤ keyIdMax ∧ p.pqSignedPrekey.id ≤ keyIdMax
  createdDay : p.signedPrekey.createdDay = p.pqSignedPrekey.createdDay

variable {p : V1Package}

theorem readV1_sound (h : (readV1 day).run r = .ok (p, r')) : p.Sound := by
  -- one step of the reader at a time; only ids, counts and lists are kept
  iterate 4 obtain ⟨_, _, -, h⟩ := run_bind_eq_ok.mp h
  obtain ⟨spkId, _, hspk, h⟩ := run_bind_eq_ok.mp h
  obtain ⟨pqId, _, hpq, h⟩ := run_bind_eq_ok.mp h
  obtain ⟨cc, _, -, h⟩ := run_bind_eq_ok.mp h
  obtain ⟨pc, _, -, h⟩ := run_bind_eq_ok.mp h
  obtain ⟨_, _, hcounts, h⟩ := run_bind_eq_ok.mp h
  iterate 7 obtain ⟨_, _, -, h⟩ := run_bind_eq_ok.mp h
  obtain ⟨cs, _, hcs, h⟩ := run_bind_eq_ok.mp h
  obtain ⟨ps, _, hps, h⟩ := run_bind_eq_ok.mp h
  iterate 4 obtain ⟨_, _, -, h⟩ := run_bind_eq_ok.mp h
  obtain ⟨co, _, hco, h⟩ := run_bind_eq_ok.mp h
  obtain ⟨po, _, hpo, h⟩ := run_bind_eq_ok.mp h
  obtain ⟨_, _, -, h⟩ := run_bind_eq_ok.mp h
  cases h
  have hcounts := (failIf_run_eq_ok.mp hcounts).1
  simp only [decide_eq_false_iff_not, not_or, UInt16.not_lt, Bool.not_eq_true] at hcounts
  obtain ⟨-, hcc, -, hpc, huser⟩ := hcounts
  obtain ⟨hcsLen, hcsIds⟩ := many_eq_ok (fun _ _ _ hrun => readPublicHalf_eq_ok hrun) hcs
  obtain ⟨hpsLen, hpsIds⟩ := many_eq_ok (fun _ _ _ hrun => readPublicHalf_eq_ok hrun) hps
  obtain ⟨hcoLen, hcoIds⟩ := each_eq_ok (Q := fun key => key.id ≤ keyIdMax)
    (fun _ ha _ _ _ hrun => by
      obtain ⟨_, _, -, hrun⟩ := run_bind_eq_ok.mp hrun
      cases hrun
      exact ha) hcsIds hco
  obtain ⟨hpoLen, hpoIds⟩ := each_eq_ok (Q := fun key => key.id ≤ keyIdMax)
    (fun _ ha _ _ _ hrun => by
      obtain ⟨_, _, -, hrun⟩ := run_bind_eq_ok.mp hrun
      cases hrun
      exact ha) hpsIds hpo
  have hcc' : cc.toNat ≤ 8 := UInt16.le_iff_toNat_le.mp hcc
  have hpc' : pc.toNat ≤ 4 := UInt16.le_iff_toNat_le.mp hpc
  have hco8 : co.length ≤ 8 := by omega
  have hpo4 : po.length ≤ 4 := by omega
  exact ⟨huser, hcoIds, hpoIds, hco8, hpo4, ⟨readKeyId_eq_ok hspk, readKeyId_eq_ok hpq⟩, rfl⟩

theorem readV1_encode (hp : p.Sound) (hc : p.classicalOneTime ≠ [])
    (hq : p.pqOneTime ≠ []) (hf : p.finished = true) :
    (readV1 p.signedPrekey.createdDay).run (encodeV1 p) = .ok (p, []) := by
  have hmagic : ∀ r, (take 8).run (deviceV1Magic ++ r) = .ok (deviceV1Magic, r) :=
    fun r => take_run_append r (by decide)
  have hhalves : ∀ {K : Type} {n : Nat} (id : K → UInt32) (pub : K → Block n) (l : List K),
      (∀ k ∈ l, id k ≤ keyIdMax) → ∀ r, (Reader.many (readPublicHalf n) l.length).run
        (l.flatMap (fun k => pushU32 (id k) ++ (pub k).bytes) ++ r) =
          .ok (l.map fun k => (id k, pub k), r) := by
    intro K n id pub l hl r
    have := many_run (x := readPublicHalf n) (fun k => pushU32 k.1 ++ k.2.bytes)
      (l := l.map fun k => (id k, pub k))
      (List.forall_mem_map.mpr fun k hk r => by simp [readPublicHalf, readKeyId_run (hl k hk)]) r
    rwa [List.length_map, List.flatMap_map] at this
  have hclassical := hhalves (·.id) (·.publicKey) p.classicalOneTime hp.classicalIds
  have hpq := hhalves (·.id) (·.publicKey) p.pqOneTime hp.pqIds
  have hclassicalSecrets := each_run (f := readClassicalSecret) (fun k => (k.id, k.publicKey))
    (·.secretKey.bytes) (l := p.classicalOneTime)
    (fun k _ r => by simp [readClassicalSecret])
  have hpqSecrets := each_run (f := readPqSecret) (fun k => (k.id, k.publicKey))
    (·.secretKey.bytes) (l := p.pqOneTime)
    (fun k _ r => by simp [readPqSecret]) []
  rw [List.append_nil] at hpqSecrets
  have hlc := List.length_pos_iff.mpr hc
  have hlq := List.length_pos_iff.mpr hq
  have hn1 : (UInt16.ofNat p.classicalOneTime.length).toNat = p.classicalOneTime.length := by
    have := hp.classicalCount; simp; omega
  have hn2 : (UInt16.ofNat p.pqOneTime.length).toNat = p.pqOneTime.length := by
    have := hp.pqCount; simp; omega
  have hcounts : decide (UInt16.ofNat p.classicalOneTime.length = 0 ∨
      UInt16.ofNat p.classicalOneTime.length > 8 ∨ UInt16.ofNat p.pqOneTime.length = 0 ∨
      UInt16.ofNat p.pqOneTime.length > 4 ∨ p.userId.bytes.all (· == 0) = true) = false := by
    have h1 := hp.classicalCount
    have h2 := hp.pqCount
    have : (0 : UInt16).toNat = 0 := rfl
    have : (8 : UInt16).toNat = 8 := rfl
    have : (4 : UInt16).toNat = 4 := rfl
    simp only [decide_eq_false_iff_not, ← UInt16.toNat_inj, gt_iff_lt, UInt16.lt_iff_toNat_lt, hn1,
      hn2, hp.userId, Bool.false_eq_true, or_false]
    omega
  unfold readV1 encodeV1
  simp only [List.append_assoc]
  refine (run_bind_of (hmagic _)).trans ?_
  refine (run_bind_of (failIf_run_of (by simp))).trans ?_
  refine (run_bind_of (array_run_append _ _)).trans ?_
  refine (run_bind_of (u32_run_push _ _)).trans ?_
  refine (run_bind_of (readKeyId_run hp.currentIds.1 _)).trans ?_
  refine (run_bind_of (readKeyId_run hp.currentIds.2 _)).trans ?_
  iterate 2 refine (run_bind_of (u16_run_push _ _)).trans ?_
  refine (run_bind_of (failIf_run_of hcounts)).trans ?_
  iterate 7 refine (run_bind_of (array_run_append _ _)).trans ?_
  rw [hn1, hn2]
  refine (run_bind_of (hclassical _)).trans ?_
  refine (run_bind_of (hpq _)).trans ?_
  iterate 4 refine (run_bind_of (array_run_append _ _)).trans ?_
  refine (run_bind_of (hclassicalSecrets _)).trans ?_
  refine (run_bind_of hpqSecrets).trans ?_
  refine (run_bind_of (isFinished_run _)).trans ?_
  have hday := hp.createdDay
  rw [List.isEmpty_nil, ← hf]
  nth_rewrite 2 [hday]
  rfl

theorem foldl_max_spec (ids : List UInt32) {a m : UInt32} (ha : a ≤ m) (hm : ∀ id ∈ ids, id ≤ m) :
    a ≤ ids.foldl max a ∧ (∀ id ∈ ids, id ≤ ids.foldl max a) ∧ ids.foldl max a ≤ m := by
  induction ids generalizing a with
  | nil => exact ⟨UInt32.le_refl a, nofun, ha⟩
  | cons b ids ih =>
    obtain ⟨hb, hids⟩ := List.forall_mem_cons.mp hm
    have hmax : a ≤ max a b ∧ b ≤ max a b ∧ max a b ≤ m := by
      rw [UInt32.max_def]
      split
      · next hab => exact ⟨hab, UInt32.le_refl b, hb⟩
      · next hab => exact ⟨UInt32.le_refl a, UInt32.le_of_lt (UInt32.not_le.mp hab), ha⟩
    obtain ⟨h1, h2, h3⟩ := ih hmax.2.2 hids
    exact ⟨UInt32.le_trans hmax.1 h1,
      List.forall_mem_cons.mpr ⟨UInt32.le_trans hmax.2.1 h1, h2⟩, h3⟩

theorem initialNextId_spec {ids : List UInt32} {next : UInt32} (h : initialNextId ids = .ok next)
    (hids : ∀ id ∈ ids, id ≤ keyIdMax) : validHighWater next = true ∧ ∀ id ∈ ids, id < next := by
  obtain ⟨-, hmax, hle⟩ := foldl_max_spec ids (a := 0) (m := keyIdMax) (by decide) hids
  simp only [initialNextId] at h
  generalize ids.foldl max 0 = current at h hmax hle
  split at h
  · cases h
    exact ⟨by decide, fun id hid => UInt32.lt_of_le_of_lt (hids id hid) (by decide)⟩
  · next hne =>
    have hlt : current.toNat < keyIdMax.toNat := by
      have := UInt32.le_iff_toNat_le.mp hle
      have := mt UInt32.toNat_inj.mp hne
      omega
    have hk : keyIdMax.toNat = 2147483647 := by decide
    have hone : (1 : UInt32).toNat = 1 := by decide
    have hsucc : (current + 1).toNat = current.toNat + 1 := by
      rw [UInt32.toNat_add]; omega
    rw [if_pos (by omega)] at h
    cases h
    refine ⟨?_, fun id hid => ?_⟩
    · simp only [validHighWater, Bool.or_eq_true, decide_eq_true_eq, UInt32.le_iff_toNat_le]
      omega
    · have := UInt32.le_iff_toNat_le.mp (hmax id hid)
      exact UInt32.lt_iff_toNat_lt.mpr (by omega)

variable {input : Bytes}

theorem decodeV1_closed (h : decodeV1 P input day = .ok d) : d.Closed P := by
  simp only [decodeV1, ok_steps, checkX25519_eq_ok, not_not, not_or] at h
  obtain ⟨p, hp, _, ⟨-, hsign⟩, _, hid, _, -, _, -, _, -, _, hcs, _, hps, _, -, _, -, _, -, _, -,
    nc, hnc, np, hnp, _, hmat, rfl⟩ := h
  obtain ⟨_, hp⟩ := parse_eq_ok.mp hp
  have hs := readV1_sound hp
  obtain ⟨hncv, hncl⟩ := initialNextId_spec hnc (List.forall_mem_map.mpr hs.classicalIds)
  obtain ⟨hnpv, hnpl⟩ := initialNextId_spec hnp (List.forall_mem_map.mpr hs.pqIds)
  have hcc := hs.classicalCount
  have hpc := hs.pqCount
  exact {
    fields := DeviceState.fieldsConsistent_iff.mpr ⟨(by decide : (1 : UInt32) ≠ 0), hs.userId,
      hncv, hnpv, fun k hk => hncl _ (List.mem_map_of_mem hk),
      fun k hk => hnpl _ (List.mem_map_of_mem hk)⟩
    classicalIds := hs.classicalIds
    pqIds := hs.pqIds
    classicalSorted := idsSorted_iff.mp hcs
    pqSorted := idsSorted_iff.mp hps
    classicalCount := hcc.trans (by decide)
    pqCount := hpc.trans (by decide)
    retiredCount := Nat.zero_le _
    currentIds := hs.currentIds
    retiredIds := by simp
    retiredSorted := .nil
    signing := hsign
    identity := hid
    material := hmat
    pending := by simp
    createdDay := hs.createdDay }

theorem decodeV1_bundleVersion (h : decodeV1 P input day = .ok d) : d.bundleVersion = 1 := by
  simp only [decodeV1, ok_steps] at h
  obtain ⟨p, -, _, -, _, -, _, -, _, -, _, -, _, -, _, -, _, -, _, -, _, -, _, -, nc, -, np, -, _, -,
    rfl⟩ := h
  rfl

end CommPlatform.L2
