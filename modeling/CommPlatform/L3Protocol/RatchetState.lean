import CommPlatform.L3Protocol.Envelope

/-!
# Session state and its authenticated encoding

`:356-624`. `RatchetState.encode` checks only the skipped keys;
`RatchetState.decode` checks, besides the tag and the layout, how the fields
relate (`Usable`).

Bare line numbers are those of `pairwise.rs`.
-/
namespace CommPlatform.L3

open CommPlatform.Core L1 L2
open L1.Reader hiding failIf

def stateMagic : Bytes := ascii "CPRSV001"
def stateAuthDomain : Bytes := ascii "chat:v1:pairwise-state-auth"
def stateAuthTagBytes : Nat := 32
def maxSkippedPerSession : Nat := 2000
def maxSkippedAccount : Nat := 20000

/-- mirrors :356-360 -/
structure SkippedKey where
  ratchetPublic : Key
  messageNumber : UInt32
  messageKey : Key
deriving DecidableEq

/-- mirrors :368-388 -/
structure RatchetState where
  sessionId : Block 16
  localDeviceId : Block 16
  remoteDeviceId : Block 16
  initiatorDeviceId : Block 16
  transcriptHash : Block 32
  primary : Bool
  receiveOnly : Bool
  rootKey : Key
  sendingChain : Option Key
  receivingChain : Option Key
  localRatchetSecret : Key
  localRatchetPublic : Key
  remoteRatchetPublic : Key
  sendCount : UInt32
  receiveCount : UInt32
  previousSendCount : UInt32
  skipped : List SkippedKey
  issuedRepairToken : Option Key
  receivedRepairToken : Option Key
deriving DecidableEq

/-- mirrors :566-570 (`[u8; 32]` compares
lexicographically). -/
def skippedOrder (left right : SkippedKey) : Ordering :=
  if left.ratchetPublic.bytes < right.ratchetPublic.bytes then .lt
  else if left.ratchetPublic = right.ratchetPublic then
    if left.messageNumber < right.messageNumber then .lt
    else if left.messageNumber = right.messageNumber then .eq else .gt
  else .gt

/-- No two neighbours (`windows(2)`) are out of strict order. -/
def strictlySorted (keys : List SkippedKey) : Bool :=
  (keys.zip keys.tail).all fun pair => skippedOrder pair.1 pair.2 == .lt

/-! ## Encoding -/

/-- mirrors :572-580 -/
def encodeOptionalSecret : Option Key → Bytes
  | some bytes => 1 :: bytes.bytes
  | none => [0]

def encodeSkipped (key : SkippedKey) : Bytes :=
  key.ratchetPublic.bytes ++ pushU32 key.messageNumber ++ key.messageKey.bytes

def stateFlags (s : RatchetState) : UInt8 :=
  s.primary.toUInt8 ||| (s.receiveOnly.toUInt8 <<< 1)

/-- mirrors :614-624 -/
def stateAuthKey (P : CryptoProvider) (rootKey deviceIdentitySecret : Key) : CryptoResult Key :=
  hkdfSha256 P deviceIdentitySecret.bytes rootKey.bytes stateAuthDomain 32

def encodeStateTail (s : RatchetState) : Bytes :=
  encodeOptionalSecret s.sendingChain ++ encodeOptionalSecret s.receivingChain ++
    s.localRatchetSecret.bytes ++ s.localRatchetPublic.bytes ++ s.remoteRatchetPublic.bytes ++
    pushU32 s.sendCount ++ pushU32 s.receiveCount ++ pushU32 s.previousSendCount ++
    pushU16 (UInt16.ofNat s.skipped.length) ++ s.skipped.flatMap encodeSkipped ++
    encodeOptionalSecret s.issuedRepairToken ++ encodeOptionalSecret s.receivedRepairToken

def encodeStateHead (s : RatchetState) : Bytes :=
  stateMagic ++ stateFlags s :: s.sessionId.bytes ++ s.localDeviceId.bytes ++
    s.remoteDeviceId.bytes ++ s.initiatorDeviceId.bytes ++ s.transcriptHash.bytes

/-- mirrors :414-456 (`u16::try_from` of at most
`MAX_SKIPPED_PER_SESSION` keys does not fail). -/
def RatchetState.encode (P : CryptoProvider) (s : RatchetState) (device : DeviceState) :
    CryptoResult Bytes := do
  failIf (s.skipped.length > maxSkippedPerSession ∨ ¬ strictlySorted s.skipped) .stateViolation
  let output := encodeStateHead s ++ s.rootKey.bytes ++ encodeStateTail s
  let authKey ← stateAuthKey P s.rootKey device.identitySecret
  let tag ← hmacSha256 P authKey.bytes output
  return output ++ tag.bytes

/-! ## Decoding -/

/-- mirrors :582-588 -/
def decodeOptionalSecret : Reader (Option Key) := do
  if ← boolean then some <$> array 32 else return none

def decodeSkipped : Nat → Reader (List SkippedKey)
  | 0 => return []
  | n + 1 => do
    let ratchetPublic ← array 32
    let messageNumber ← u32
    let messageKey ← array 32
    let rest ← decodeSkipped n
    return ⟨ratchetPublic, messageNumber, messageKey⟩ :: rest

/-- The reader of the authenticated bytes.
mirrors :480-548 -/
def decodeStateBody (rootKey : Key) : Reader RatchetState := do
  let magic ← take 8
  Reader.failIf (magic ≠ stateMagic) .unsupportedVersion
  let flags ← u8
  Reader.failIf (flags &&& ~~~0x03 ≠ 0) .malformedInput
  let sessionId ← array 16
  let localDeviceId ← array 16
  let remoteDeviceId ← array 16
  let initiatorDeviceId ← array 16
  let transcriptHash ← array 32
  let decodedRoot ← array 32
  let sendingChain ← decodeOptionalSecret
  let receivingChain ← decodeOptionalSecret
  let localRatchetSecret ← array 32
  let localRatchetPublic ← array 32
  let remoteRatchetPublic ← array 32
  let sendCount ← u32
  let receiveCount ← u32
  let previousSendCount ← u32
  let skippedCount ← u16
  Reader.failIf (skippedCount.toNat > maxSkippedPerSession) .resourceExhausted
  let skipped ← decodeSkipped skippedCount.toNat
  let issuedRepairToken ← decodeOptionalSecret
  let receivedRepairToken ← decodeOptionalSecret
  let finished ← isFinished
  Reader.failIf (¬ finished ∨ decodedRoot ≠ rootKey ∨ ¬ strictlySorted skipped) .malformedInput
  return ⟨sessionId, localDeviceId, remoteDeviceId, initiatorDeviceId, transcriptHash,
    flags &&& 1 ≠ 0, flags &&& 2 ≠ 0, rootKey, sendingChain, receivingChain, localRatchetSecret,
    localRatchetPublic, remoteRatchetPublic, sendCount, receiveCount, previousSendCount, skipped,
    issuedRepairToken, receivedRepairToken⟩

/-- The relations between fields that `decode` requires of a state.
mirrors :549-557 -/
def RatchetState.fieldsConsistent (s : RatchetState) : Bool :=
  !(isZero s.sessionId.bytes || isZero s.localDeviceId.bytes || isZero s.remoteDeviceId.bytes ||
    s.localDeviceId = s.remoteDeviceId || s.primary = s.receiveOnly ||
    (s.receiveOnly && s.sendingChain.isSome) || (s.sendCount > 0 && s.sendingChain.isNone) ||
    (s.receiveCount > 0 && s.receivingChain.isNone) ||
    (s.issuedRepairToken.isSome && s.receivedRepairToken.isSome))

/-- mirrors :458-563 -/
def RatchetState.decode (P : CryptoProvider) (device : DeviceState) (input : Bytes) :
    CryptoResult RatchetState := do
  failIf (input.length < 105 + 32 + stateAuthTagBytes ∨ input.take 8 ≠ stateMagic)
    .unsupportedVersion
  let authenticatedLen := input.length - stateAuthTagBytes
  let rootKey ← parse (array 32) (input.drop 105)
  let authKey ← stateAuthKey P rootKey device.identitySecret
  let expected ← hmacSha256 P authKey.bytes (input.take authenticatedLen)
  failIf (expected.bytes ≠ input.drop authenticatedLen) .authenticationFailed
  let state ← parse (decodeStateBody rootKey) (input.take authenticatedLen)
  failIf (¬ state.fieldsConsistent) .stateViolation
  let localPublic ← P.x25519Public state.localRatchetSecret
  failIf (localPublic ≠ state.localRatchetPublic) .stateViolation
  return state

/-- What `decode` requires of the state it returns. -/
structure RatchetState.Usable (P : CryptoProvider) (s : RatchetState) : Prop where
  fields : s.fieldsConsistent = true
  ratchetKey : P.x25519Public s.localRatchetSecret = .ok s.localRatchetPublic

/-! ## Reading back an encoded state -/

variable (o : Option Key)

@[simp] theorem decodeOptionalSecret_run (r : Bytes) :
    decodeOptionalSecret.run (encodeOptionalSecret o ++ r) = .ok (o, r) := by
  cases o with
  | none | some k => simp [decodeOptionalSecret, encodeOptionalSecret]

@[simp] theorem decodeOptionalSecret_run_self :
    decodeOptionalSecret.run (encodeOptionalSecret o) = .ok (o, []) := by
  simpa using decodeOptionalSecret_run o []

@[simp] theorem decodeSkipped_run (keys : List SkippedKey) (r : Bytes) :
    (decodeSkipped keys.length).run (keys.flatMap encodeSkipped ++ r) = .ok (keys, r) := by
  induction keys with
  | nil => simp [decodeSkipped]
  | cons key keys ih =>
    simp only [List.length_cons, decodeSkipped, List.flatMap_cons, encodeSkipped,
      List.append_assoc] at ih ⊢
    simp [ih]

theorem stateFlags_read (s : RatchetState) :
    stateFlags s &&& ~~~0x03 = 0 ∧ (!decide (stateFlags s &&& 1 = 0)) = s.primary ∧
      (!decide (stateFlags s &&& 2 = 0)) = s.receiveOnly := by
  unfold stateFlags
  cases s.primary <;> cases s.receiveOnly <;> decide

variable {P : CryptoProvider} {s : RatchetState} {device : DeviceState}

theorem decodeStateBody_encode (s : RatchetState) (hs : s.skipped.length ≤ maxSkippedPerSession)
    (ho : strictlySorted s.skipped = true) :
    parse (decodeStateBody s.rootKey)
      (encodeStateHead s ++ s.rootKey.bytes ++ encodeStateTail s) = .ok s := by
  have hcount : (UInt16.ofNat s.skipped.length).toNat = s.skipped.length := by
    unfold maxSkippedPerSession at hs; simp; omega
  obtain ⟨hf, hp, hr⟩ := stateFlags_read s
  have hmagic : ∀ r, (take 8).run (stateMagic ++ r) = .ok (stateMagic, r) :=
    fun r => take_run_append r (by decide)
  simp [parse, decodeStateBody, encodeStateHead, encodeStateTail, hmagic,
    failIf_run, hf, hcount, Nat.not_lt.mpr hs, ho, hp, hr]

variable {b : Bytes}

theorem encode_eq_ok : s.encode P device = .ok b ↔
      s.skipped.length ≤ maxSkippedPerSession ∧ strictlySorted s.skipped = true ∧
        ∃ k t, stateAuthKey P s.rootKey device.identitySecret = .ok k ∧
          hmacSha256 P k.bytes (encodeStateHead s ++ s.rootKey.bytes ++ encodeStateTail s) = .ok t ∧
          b = encodeStateHead s ++ s.rootKey.bytes ++ encodeStateTail s ++ t.bytes := by
  unfold RatchetState.encode
  simp only [ok_steps, not_or, not_lt, not_not, exists_const, and_assoc]
  constructor
  · rintro ⟨h1, h2, k, hk, t, ht, rfl⟩
    exact ⟨h1, h2, k, t, hk, ht, rfl⟩
  · rintro ⟨h1, h2, k, t, hk, ht, rfl⟩
    exact ⟨h1, h2, k, hk, t, ht, rfl⟩

@[simp] theorem length_encodeStateHead (s : RatchetState) : (encodeStateHead s).length = 105 := by
  have : stateMagic.length = 8 := by decide
  simp [encodeStateHead, this]

theorem encode_of_noSkip (hs : s.skipped = [])
    (device : DeviceState) : ∃ b, s.encode P device = .ok b := by
  refine ⟨_, encode_eq_ok.mpr ⟨by simp [hs], by rw [hs]; rfl, _, _, hkdfSha256_eq P ?_ ?_ ?_ ?_,
    hmacSha256_eq P ?_ ?_, rfl⟩⟩
  · simp [maxInputBytes]
  · simp [maxInputBytes]
  · decide
  · decide
  · simp [maxInputBytes]
  · have hopt : ∀ o : Option Key, (encodeOptionalSecret o).length ≤ 33 := by
      rintro (_ | k) <;> simp [encodeOptionalSecret]
    have h1 := hopt s.sendingChain
    have h2 := hopt s.receivingChain
    have h3 := hopt s.issuedRepairToken
    have h4 := hopt s.receivedRepairToken
    simp only [List.length_append, length_encodeStateHead, Block.length_bytes, encodeStateTail, hs,
      length_pushU32, length_pushU16, List.flatMap_nil, List.length_nil, maxInputBytes]
    omega

/-- Decoding an encoded state: the tag, the layout and the skipped keys are always accepted, so
only the field relations and the ratchet key decide. -/
theorem decode_encode (h : s.encode P device = .ok b) :
    RatchetState.decode P device b = (do
      failIf (¬ s.fieldsConsistent) .stateViolation
      let localPublic ← P.x25519Public s.localRatchetSecret
      failIf (localPublic ≠ s.localRatchetPublic) .stateViolation
      return s) := by
  obtain ⟨hs, ho, k, t, hk, ht, rfl⟩ := encode_eq_ok.mp h
  have hhead := length_encodeStateHead s
  generalize hbody : encodeStateHead s ++ s.rootKey.bytes ++ encodeStateTail s = body at *
  have hlen : 137 ≤ body.length := by
    subst hbody; simp; omega
  have hmagic : (body ++ t.bytes).take 8 = stateMagic := by
    subst hbody
    simp only [encodeStateHead, List.append_assoc]
    exact List.take_left' (by decide)
  have hroot : parse (array 32) ((body ++ t.bytes).drop 105) = .ok s.rootKey := by
    subst hbody
    simp [parse]
  have hcut : (body ++ t.bytes).length - stateAuthTagBytes = body.length := by
    simp [stateAuthTagBytes]
  have hread : parse (decodeStateBody s.rootKey) body = .ok s :=
    hbody ▸ decodeStateBody_encode s hs ho
  unfold RatchetState.decode
  rw [failIf_neg (by simp [stateAuthTagBytes, hmagic]; omega), hroot, hcut]
  simp only [ok_bind, hk, List.take_left, List.drop_left, ht]
  rw [failIf_neg (by simp), ok_bind, hread, ok_bind]

/-- An emitted state can be used again exactly when it is usable. -/
theorem decode_encode_iff
    (h : s.encode P device = .ok b) : RatchetState.decode P device b = .ok s ↔ s.Usable P := by
  rw [decode_encode h]
  simp only [ok_steps, not_not, exists_const, and_true]
  constructor
  · rintro ⟨hf, p, hp, rfl⟩
    exact ⟨hf, hp⟩
  · rintro ⟨hf, hp⟩
    exact ⟨hf, _, hp, rfl⟩

theorem decode_usable (h : RatchetState.decode P device b = .ok s) : s.Usable P := by
  unfold RatchetState.decode at h
  simp only [ok_steps, not_not] at h
  obtain ⟨_, -, _, -, _, -, _, -, _, -, s', -, _, hf, p, hp, _, rfl, rfl⟩ := h
  exact ⟨hf, hp⟩

/-! ## The device enters through its identity secret -/

variable {d e : DeviceState}

theorem encode_congr
    (h : d.identitySecret = e.identitySecret) (s : RatchetState) : s.encode P d = s.encode P e := by
  unfold RatchetState.encode; rw [h]

theorem decode_congr (h : d.identitySecret = e.identitySecret) (b : Bytes) :
    RatchetState.decode P d b = RatchetState.decode P e b := by
  unfold RatchetState.decode; rw [h]

/-- `fieldsConsistent` read off field by field. -/
structure Consistent (s : RatchetState) : Prop where
  sessionId : isZero s.sessionId.bytes = false
  localId : isZero s.localDeviceId.bytes = false
  remoteId : isZero s.remoteDeviceId.bytes = false
  distinct : s.localDeviceId ≠ s.remoteDeviceId
  roles : s.primary = !s.receiveOnly
  receiveOnly : s.receiveOnly = true → s.sendingChain = none
  sending : s.sendingChain = none → s.sendCount = 0
  receiving : s.receivingChain = none → s.receiveCount = 0
  tokens : s.issuedRepairToken = none ∨ s.receivedRepairToken = none

theorem fieldsConsistent_iff : s.fieldsConsistent = true ↔ Consistent s := by
  have hpos : ∀ n : UInt32, ¬ n > 0 ↔ n = 0 := fun n => by
    rw [UInt32.not_lt]; exact UInt32.le_zero_iff
  simp only [RatchetState.fieldsConsistent, Bool.not_eq_true', Bool.or_eq_false_iff,
    decide_eq_false_iff_not, Bool.and_eq_false_iff, hpos]
  constructor
  · rintro ⟨⟨⟨⟨⟨⟨⟨⟨h1, h2⟩, h3⟩, h4⟩, h5⟩, h6⟩, h7⟩, h8⟩, h9⟩
    exact ⟨h1, h2, h3, h4, Bool.eq_not.mpr h5, by simpa [imp_iff_or_not, or_comm] using h6,
      by simpa [imp_iff_or_not, or_comm, Option.isSome_iff_ne_none] using h7,
      by simpa [imp_iff_or_not, or_comm, Option.isSome_iff_ne_none] using h8, by simpa using h9⟩
  · rintro ⟨h1, h2, h3, h4, h5, h6, h7, h8, h9⟩
    exact ⟨⟨⟨⟨⟨⟨⟨⟨h1, h2⟩, h3⟩, h4⟩, Bool.eq_not.mp h5⟩,
      by simpa [imp_iff_or_not, or_comm] using h6⟩,
      by simpa [imp_iff_or_not, or_comm, Option.isSome_iff_ne_none] using h7⟩,
      by simpa [imp_iff_or_not, or_comm, Option.isSome_iff_ne_none] using h8⟩, by simpa using h9⟩

end CommPlatform.L3
