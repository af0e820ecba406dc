import CommPlatform.Core.Counted
import CommPlatform.L3Protocol.RatchetState

/-!
# Double Ratchet operations

`:1305-1620`: sealing and opening regular envelopes, skipped
keys, and the repair token operations. `ratchet_decrypt` is cut at its three
branches: a number behind the counter of the current chain (`openSkipped`),
a ratchet key other than the current one (`ratchetReceive`, then
`openNext`), and the current chain (`openNext`). The passes of the loop of
`skip_receiving_keys` are counted as they are made.

`RatchetStep` says what each successful call does.

Bare line numbers are those of `pairwise.rs`.
-/
namespace CommPlatform.L3

open CommPlatform.Core L1 L2

def repairControlMagic : Bytes := ascii "CPRRV001"
def repairAuthMagic : Bytes := ascii "CPRAV001"
def repairDomain : Bytes := ascii "chat:v1:session-repair"
def sealedSenderDomain : Bytes := ascii "chat:v1:pqxdh-sealed-sender"
def repairControlBytes : Nat := 58
def repairReasonSkippedLimit : UInt8 := 1

/-- mirrors :1316-1319 -/
structure EncryptedTransition where
  state : RatchetState
  envelope : Bytes

/-- mirrors :1321-1326 -/
structure DecryptedTransition where
  state : RatchetState
  inner : Bytes
  replayMarker : Block 32
  payloadKind : UInt8
deriving DecidableEq

inductive ReceiveOutcome
  | prepared (transition : DecryptedTransition)
  | repairRequired
deriving DecidableEq

/-- `checked_add(1)` on a message counter. -/
def checkedSucc (n : UInt32) : CryptoResult UInt32 :=
  if n.toNat + 1 < 2 ^ 32 then .ok (n + 1) else .error .stateViolation

/-! ## Sealing -/

/-- mirrors :735-744 -/
def regularHeaderBytes (s : RatchetState) : Bytes :=
  RegularHeader.encode ⟨s.sessionId, s.localRatchetPublic, s.previousSendCount, s.sendCount⟩

variable (P : CryptoProvider)

/-- A party without a sending chain draws a ratchet key and starts one; returns what is left of
the entropy. mirrors :1349-1364 -/
def startSendingChain (s : RatchetState) (entropy : Bytes) :
    CryptoResult (RatchetState × Bytes) :=
  match s.sendingChain with
  | some _ => .ok (s, entropy)
  | none => do
    let fresh ← randomArray 32 entropy
    let newPublic ← P.x25519Public fresh.1
    let dh ← P.x25519Shared fresh.1 s.remoteRatchetPublic
    let derived ← kdfRoot P s.rootKey dh
    return ({ s with
      rootKey := derived.1
      sendingChain := some derived.2
      localRatchetSecret := fresh.1
      localRatchetPublic := newPublic
      previousSendCount := s.sendCount
      sendCount := 0 }, fresh.2)

/-- mirrors :1333-1383 -/
def ratchetEncrypt (s : RatchetState) (recipientDeviceId : Block 16)
    (inner : Bytes) (otherSessionsSkipped : UInt32) (entropy : Bytes) :
    CryptoResult EncryptedTransition := do
  failIf (s.receiveOnly ∨ s.remoteDeviceId ≠ recipientDeviceId ∨
    otherSessionsSkipped.toNat + s.skipped.length > maxSkippedAccount) .stateViolation
  let started ← startSendingChain P s entropy
  let chain ← okOr started.1.sendingChain .stateViolation
  let step ← chainStep P chain
  let envelope ← encryptEnvelope P recipientDeviceId (regularHeaderBytes started.1) step.1 inner
    started.2
  let sendCount ← checkedSucc started.1.sendCount
  return ⟨{ started.1 with sendingChain := some step.2, sendCount := sendCount }, envelope⟩

/-! ## Skipped keys -/

/-- mirrors :1385-1401 -/
def projectedSkipWithinBounds (s : RatchetState) (additional : Nat)
    (otherSessionsSkipped : UInt32) : Bool :=
  s.skipped.length + additional ≤ maxSkippedPerSession ∧
    otherSessionsSkipped.toNat + (s.skipped.length + additional) ≤ maxSkippedAccount

def sortSkipped (keys : List SkippedKey) : List SkippedKey :=
  keys.insertionSort fun a b => skippedOrder a b ≠ .gt

/-- The `while` loop of `skip_receiving_keys`, which runs `until - receive_count` times.
mirrors :1407-1423 -/
def skipLoop (P : CryptoProvider) : Nat → RatchetState → Counted CryptoError RatchetState
  | 0, s => pure s
  | k + 1, s => do
    Counted.pass
    let chain ← okOr s.receivingChain CryptoError.stateViolation
    let step ← chainStep P chain
    let receiveCount ← checkedSucc s.receiveCount
    skipLoop P k { s with
      skipped := s.skipped ++ [⟨s.remoteRatchetPublic, s.receiveCount, step.1⟩]
      receivingChain := some step.2
      receiveCount := receiveCount }

/-- mirrors :1403-1426 -/
def skipReceivingKeys (s : RatchetState) (until_ : UInt32) :
    Counted CryptoError RatchetState := do
  failIf (until_ < s.receiveCount) CryptoError.stateViolation
  let s ← skipLoop P (until_.toNat - s.receiveCount.toNat) s
  return { s with skipped := sortSkipped s.skipped }

/-! ## Opening -/

/-- The fields of a repair control payload: session id and token.
mirrors :1435-1443 -/
def parseRepairControl (inner : Bytes) : CryptoResult (Block 16 × Key) :=
  Reader.parse (do
    let magic ← Reader.take 8
    let version ← Reader.u8
    Reader.failIf (magic ≠ repairControlMagic ∨ version ≠ 1) .malformedInput
    let oldSessionId ← Reader.array 16
    let token ← Reader.array 32
    let reason ← Reader.u8
    let finished ← Reader.isFinished
    Reader.failIf (reason ≠ repairReasonSkippedLimit ∨ ¬ finished) .malformedInput
    return (oldSessionId, token)) inner

/-- mirrors :1428-1449 -/
def inspectRepairControl (s : RatchetState) (inner : Bytes) : CryptoResult (RatchetState × UInt8) :=
  if ¬ repairControlMagic.isPrefixOf inner then .ok (s, 0)
  else do
    failIf (inner.length ≠ repairControlBytes) .malformedInput
    let control ← parseRepairControl inner
    failIf (control.1 ≠ s.sessionId ∨ s.receivedRepairToken.isSome) .stateViolation
    return ({ s with receivedRepairToken := some control.2 }, 1)

/-- The end of every successful opening. -/
def finishOpen (s : RatchetState) (inner envelopeBytes : Bytes) :
    CryptoResult DecryptedTransition := do
  let inspected ← inspectRepairControl s inner
  let replayMarker ← P.sha256 envelopeBytes
  return ⟨inspected.1, inner, replayMarker, inspected.2⟩

def SkippedKey.matches (header : RegularHeader) (key : SkippedKey) : Bool :=
  key.ratchetPublic = header.ratchetPublic ∧ key.messageNumber = header.messageNumber

/-- A number of the current chain that was already passed.
mirrors :1468-1492 -/
def openSkipped (s : RatchetState) (recipientDeviceId : Block 16)
    (envelope : Envelope) (header : RegularHeader) (envelopeBytes : Bytes) :
    CryptoResult DecryptedTransition := do
  let key ← okOr (s.skipped.find? (·.matches header)) .stateViolation
  let inner ← decryptEnvelope P recipientDeviceId envelope key.messageKey
  finishOpen P { s with skipped := s.skipped.eraseP (·.matches header) } inner envelopeBytes

/-- The Diffie-Hellman ratchet of a receive: close the old chain, derive the receiving chain, draw
a new key and derive the sending chain.
mirrors :1508-1532 -/
def ratchetReceive (s : RatchetState) (header : RegularHeader)
    (entropy : Bytes) : Counted CryptoError RatchetState := do
  let s ← skipReceivingKeys P s header.previousChainLength
  let receivingDh ← P.x25519Shared s.localRatchetSecret header.ratchetPublic
  let afterReceive ← kdfRoot P s.rootKey receivingDh
  let fresh ← randomArray 32 entropy
  let newLocalPublic ← P.x25519Public fresh.1
  let sendingDh ← P.x25519Shared fresh.1 header.ratchetPublic
  let afterSend ← kdfRoot P afterReceive.1 sendingDh
  return { s with
    previousSendCount := s.sendCount
    sendCount := 0
    receiveCount := 0
    remoteRatchetPublic := header.ratchetPublic
    rootKey := afterSend.1
    receivingChain := some afterReceive.2
    sendingChain := some afterSend.2
    localRatchetSecret := fresh.1
    localRatchetPublic := newLocalPublic }

/-- Skip to the message's number on the receiving chain and open it.
mirrors :1543-1566 -/
def openNext (s : RatchetState) (recipientDeviceId : Block 16)
    (envelope : Envelope) (header : RegularHeader) (envelopeBytes : Bytes) :
    Counted CryptoError DecryptedTransition := do
  let s ← skipReceivingKeys P s header.messageNumber
  let chain ← okOr s.receivingChain CryptoError.stateViolation
  let step ← chainStep P chain
  let inner ← decryptEnvelope P recipientDeviceId envelope step.1
  let receiveCount ← checkedSucc s.receiveCount
  finishOpen P { s with receivingChain := some step.2, receiveCount := receiveCount } inner
    envelopeBytes

/-- The branches of `ratchet_decrypt` on a regular header of this session.
mirrors :1468-1566 -/
def receiveRegular (s : RatchetState) (recipientDeviceId : Block 16)
    (envelope : Envelope) (header : RegularHeader) (envelopeBytes : Bytes)
    (otherSessionsSkipped : UInt32) (entropy : Bytes) : Counted CryptoError ReceiveOutcome :=
  if header.ratchetPublic = s.remoteRatchetPublic ∧ header.messageNumber < s.receiveCount then do
    let transition ← openSkipped P s recipientDeviceId envelope header envelopeBytes
    return .prepared transition
  else if header.ratchetPublic ≠ s.remoteRatchetPublic then do
    failIf (header.previousChainLength < s.receiveCount) CryptoError.stateViolation
    let additional := header.previousChainLength.toNat - s.receiveCount.toNat +
      header.messageNumber.toNat
    if ¬ projectedSkipWithinBounds s additional otherSessionsSkipped then return .repairRequired
    else do
      let ratcheted ← ratchetReceive P s header entropy
      let transition ← openNext P ratcheted recipientDeviceId envelope header envelopeBytes
      return .prepared transition
  else do
    failIf (header.messageNumber < s.receiveCount) CryptoError.stateViolation
    let gap := header.messageNumber.toNat - s.receiveCount.toNat
    if ¬ projectedSkipWithinBounds s gap otherSessionsSkipped then return .repairRequired
    else do
      let transition ← openNext P s recipientDeviceId envelope header envelopeBytes
      return .prepared transition

/-- `ratchet_decrypt` with the passes of its two loops.
mirrors :1451-1567 -/
def countedDecrypt (s : RatchetState) (recipientDeviceId : Block 16)
    (envelopeBytes : Bytes) (otherSessionsSkipped : UInt32) (entropy : Bytes) :
    Counted CryptoError ReceiveOutcome := do
  failIf (s.localDeviceId ≠ recipientDeviceId) CryptoError.authenticationFailed
  let envelope ← Envelope.parse envelopeBytes
  match envelope.header with
  | .initial _ => (.error .stateViolation : CryptoResult ReceiveOutcome)
  | .regular header => do
    failIf (header.sessionId ≠ s.sessionId) CryptoError.authenticationFailed
    receiveRegular P s recipientDeviceId envelope header envelopeBytes otherSessionsSkipped entropy

def ratchetDecrypt (s : RatchetState) (recipientDeviceId : Block 16)
    (envelopeBytes : Bytes) (otherSessionsSkipped : UInt32) (entropy : Bytes) :
    CryptoResult ReceiveOutcome :=
  (countedDecrypt P s recipientDeviceId envelopeBytes otherSessionsSkipped entropy).result

/-! ## Repair tokens -/

/-- mirrors :1569-1597 (the control has
`REPAIR_CONTROL_BYTES` bytes by construction). -/
def createRepair (s : RatchetState) (recipientDeviceId : Block 16)
    (otherSessionsSkipped : UInt32) (entropy : Bytes) : CryptoResult EncryptedTransition := do
  failIf s.issuedRepairToken.isSome .stateViolation
  let token ← randomArray 32 entropy
  let control := repairControlMagic ++ 1 :: s.sessionId.bytes ++ token.1.bytes ++
    [repairReasonSkippedLimit]
  ratchetEncrypt P { s with issuedRepairToken := some token.1 } recipientDeviceId control
    otherSessionsSkipped token.2

/-- mirrors :842-849 -/
def deviceProbeKey (identitySecret : Key) : CryptoResult Key :=
  hkdfSha256 P (List.replicate 32 0) identitySecret.bytes sealedSenderDomain 32

/-- mirrors :1599-1620 -/
def consumeRepairAuthorization (device : DeviceState) (s : RatchetState) :
    CryptoResult (RatchetState × Bytes) := do
  let token ← okOr s.receivedRepairToken .stateViolation
  let authorization := repairAuthMagic ++ s.sessionId.bytes ++ token.bytes
  let probeKey ← deviceProbeKey P device.identitySecret
  let tag ← hmacSha256 P probeKey.bytes (repairDomain ++ authorization)
  return ({ s with receivedRepairToken := none }, authorization ++ tag.bytes)

end CommPlatform.L3
