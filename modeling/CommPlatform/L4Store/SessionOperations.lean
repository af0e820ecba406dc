import CommPlatform.L4Store.SessionStore

/-!
# Operations on the session store

What the fan-out coordinator, the repair service, the envelope inspector and
the volatile sealer and opener prepare for one remote device. Each reads the
store, runs side-effect-free native calls on what it read, and hands a
commit to the store later.

`SessionCrypto` is the native interface as these operations use it: every
call is a function of its arguments, `ι` standing for the payload or
envelope and the randomness of the call. The remote device is one the
account has verified, so resolving the sender always succeeds.
-/
namespace CommPlatform.L4

open CommPlatform.Core

/-! ## The native interface -/

structure SealedEnvelope (σ : Type) where
  nextSession : σ
  ciphertext : Bytes

inductive RatchetOpening (σ : Type)
  | repairRequired
  | opened (nextSession : σ) (openedPayload : Bytes) (replayMarker : Block 32) (repairControl : Bool)

structure AcceptedInitial (σ δ : Type) where
  nextSession : σ
  nextDeviceState : δ
  openedPayload : Bytes
  replayMarker : Block 32
  disposition : SessionDisposition
  updatedExistingSession : Option σ

/-- mirrors pairwise_session_crypto_port.dart, with the public
parts of a session state that the callers read. -/
structure SessionCrypto (σ δ ι : Type) where
  sessionId : σ → SessionId
  skippedKeyCount : σ → Nat
  encrypt : ι → σ → Nat → Option (SealedEnvelope σ)
  initiate : ι → δ → Option Bytes → Nat → Option (SealedEnvelope σ)
  createRepairRequest : ι → σ → Nat → Option (SealedEnvelope σ)
  decrypt : ι → σ → Nat → Option (RatchetOpening σ)
  consumeRepairRequest : σ → Option (σ × Bytes)
  /-- the session an initial envelope asks to replace, if it opens at all -/
  probeInitial : ι → δ → Option (Option SessionId)
  acceptInitial : ι → δ → (existingPrimary replaced : Option σ) → Option (AcceptedInitial σ δ)

/-! ## What the operations read -/

variable {σ δ ι : Type}

/-- mirrors pairwise_model.dart:130-145 -/
structure PreparationContext (σ δ : Type) where
  primary : Option (SessionRow σ)
  alternate : Option (SessionRow σ)
  deviceState : δ
  stateVersion : Nat
  otherSessionsSkippedKeyCount : Nat

/-- mirrors drift_pairwise_transport_store.dart:1561-1575 -/
def readPrimary (db : SessionStore σ δ) : Option (SessionRow σ) :=
  db.primary.filter (·.sessionId.isSome)

/-- mirrors drift_pairwise_transport_store.dart:65-122 -/
def readPreparationContext (L : StoreLimits) (user : String) (db : SessionStore σ δ) :
    Option (PreparationContext σ δ) := do
  guard (0 < db.stateRevision)
  guard ((readPrimary db).all (·.remoteUserId = user) ∧ db.alternate.all (·.remoteUserId = user))
  guard (skippedKeyTotal db ≤ L.maximumSkippedKeysPerAccount)
  return ⟨readPrimary db, db.alternate, db.deviceState, db.stateRevision,
    skippedKeyTotal db - (readPrimary db).elim 0 (·.skippedKeyCount)⟩

structure InboundContext (σ : Type) where
  session : SessionRow σ
  disposition : SessionDisposition
  otherSessionsSkippedKeyCount : Nat

/-- The session with this id, of either table.
mirrors drift_pairwise_transport_store.dart:1624-1653 -/
def readSessionById (db : SessionStore σ δ) (sessionId : SessionId) :
    Option (SessionRow σ × SessionDisposition) :=
  match db.primary.filter (·.sessionId = some sessionId),
    db.alternate.filter (·.sessionId = some sessionId) with
  | some _, some _ => none
  | some row, none => some (row, .primaryBidirectional)
  | none, some row => some (row, .alternateReceiveOnly)
  | none, none => none

/-- mirrors drift_pairwise_transport_store.dart:125-174 -/
def readInboundContext (L : StoreLimits) (db : SessionStore σ δ) (sessionId : SessionId) :
    Option (InboundContext σ) := do
  let found ← readSessionById db sessionId
  guard (skippedKeyTotal db ≤ L.maximumSkippedKeysPerAccount)
  return ⟨found.1, found.2, skippedKeyTotal db - found.1.skippedKeyCount⟩

/-! ## What they prepare -/

inductive StoreCommit (σ δ : Type)
  | send (commit : SendCommit σ)
  | receive (commit : ReceiveCommit σ δ)
  | volatileSeal (commit : VolatileSealCommit σ)
  | volatileOpen (commit : VolatileOpenCommit σ δ)

def commitStore (L : StoreLimits) (db : SessionStore σ δ) :
    StoreCommit σ δ → StoreResult (SessionStore σ δ)
  | .send c => commitPreparedSend L c db
  | .receive c => commitPreparedReceive L c db
  | .volatileSeal c => commitVolatileSeal L c db
  | .volatileOpen c => commitVolatileOpen L c db

def hexDigit (n : UInt8) : Char :=
  Char.ofNat (if n < 10 then 48 + n.toNat else 87 + n.toNat)

/-- mirrors `protocolBytesToHex`: two lower-case digits a byte -/
def bytesToHex (b : Bytes) : String :=
  String.ofList (b.flatMap fun x => [hexDigit (x / 16), hexDigit (x % 16)])

inductive Operation (ι : Type)
  | fanOutSend (x : ι) (operationId eventId : String) (payload : Bytes)
  | requestRepair (x : ι) (operationId : String)
  | receiveRegular (x : ι) (envelopeId : String) (sessionId : SessionId)
  | receiveInitial (x : ι) (envelopeId : String)
  | sealVolatile (x : ι)
  | openVolatileRegular (x : ι) (sessionId : SessionId)
  | openVolatileInitial (x : ι)

section Prepare

variable (C : SessionCrypto σ δ ι) (L : StoreLimits) (user : String)

/-- mirrors native_pairwise_outbound_preparation.dart:21-95 -/
def prepareOutbound (x : ι) (ctx : PreparationContext σ δ) : Option (SealedEnvelope σ) :=
  match ctx.primary with
  | none => C.initiate x ctx.deviceState none ctx.otherSessionsSkippedKeyCount
  | some primary =>
    match primary.repairState, primary.repairAuthorization with
    | .ready, none => C.encrypt x primary.opaqueState ctx.otherSessionsSkippedKeyCount
    | .replacementPending, some authorization =>
      C.initiate x ctx.deviceState (some authorization) ctx.otherSessionsSkippedKeyCount
    | _, _ => none

def primaryTransition (previous : Option (SessionRow σ)) (next : σ) (repairState : RepairState)
    (authorization : Option Bytes) : SessionTransition σ where
  remoteUserId := user
  sessionId := C.sessionId next
  nextOpaqueState := next
  expectedStateVersion := previous.map (·.stateVersion)
  nextStateVersion := previous.elim 0 (·.stateVersion) + 1
  nextSkippedKeyCount := C.skippedKeyCount next
  disposition := .primaryBidirectional
  repairState := repairState
  repairAuthorization := authorization

/-- mirrors pairwise_fanout_coordinator.dart:174-407, for
one target. An operation already in the outbox is not prepared again. -/
def prepareSend (x : ι) (operationId eventId : String) (payload : Bytes) (db : SessionStore σ δ) :
    Option (SendCommit σ) := do
  guard (¬ db.outbox.any (·.operationId = operationId))
  let ctx ← readPreparationContext L user db
  let envelope ← prepareOutbound C x ctx
  return {
    operationId := operationId
    eventId := eventId
    expectedDeviceStateVersion := ctx.stateVersion
    openedLocalPayload := payload
    exactCiphertext := envelope.ciphertext
    sessionTransition := primaryTransition C user ctx.primary envelope.nextSession .ready none
    demotedExistingSessionTransition := none }

/-- mirrors pairwise_session_repair_service.dart:38-146
and pairwise_opaque_envelope_inspector.dart:763-844 -/
def prepareRepairRequest (x : ι) (operationId marker : String) (db : SessionStore σ δ) :
    Option (SendCommit σ) := do
  guard (¬ db.outbox.any (·.operationId = operationId))
  let ctx ← readPreparationContext L user db
  let session ← ctx.primary
  guard (session.repairState = .ready)
  let envelope ← C.createRepairRequest x session.opaqueState ctx.otherSessionsSkippedKeyCount
  return {
    operationId := operationId
    eventId := operationId
    expectedDeviceStateVersion := ctx.stateVersion
    openedLocalPayload := ascii ("session.repair:" ++ marker)
    exactCiphertext := envelope.ciphertext
    sessionTransition := primaryTransition C user (some session) envelope.nextSession
      .authenticatedRequestPending none
    demotedExistingSessionTransition := none }

/-- What opening a regular envelope makes of the session: its state, repair state and
authorization. -/
def openedSession (session : SessionRow σ) (next : σ) : Bool → Option (σ × RepairState × Option Bytes)
  | false => some (next, session.repairState, session.repairAuthorization)
  | true => do
    let consumed ← C.consumeRepairRequest next
    return (consumed.1, .replacementPending, some consumed.2)

/-- mirrors pairwise_opaque_envelope_inspector.dart:97-225.
An envelope past the skipped-key bound asks for a repair instead. -/
def prepareRegular (x : ι) (envelopeId : String) (sessionId : SessionId) (db : SessionStore σ δ) :
    Option (StoreCommit σ δ) := do
  let ctx ← readInboundContext L db sessionId
  guard (ctx.disposition = .primaryBidirectional)
  match ← C.decrypt x ctx.session.opaqueState ctx.otherSessionsSkippedKeyCount with
  | .repairRequired =>
    return .send (← prepareRepairRequest C L user x ("pairwise-repair:" ++ envelopeId)
      envelopeId db)
  | .opened next payload marker repairControl => do
    guard (payload ≠ [])
    let opened ← openedSession C ctx.session next repairControl
    return .receive {
      envelopeId := envelopeId
      senderUserId := ctx.session.remoteUserId
      replayMarker := marker
      openedOpaquePayload := payload
      sessionTransition := primaryTransition C ctx.session.remoteUserId (some ctx.session) opened.1
        opened.2.1 opened.2.2
      demotedExistingSessionTransition := none
      replacedSessionId := none
      deviceStateTransition := none }

/-- The rows an accepted initial writes: the new session, the demoted one and the device state. -/
structure InitialTransitions (σ δ : Type) where
  accepted : AcceptedInitial σ δ
  sessionTransition : SessionTransition σ
  demoted : Option (SessionTransition σ)
  deviceStateTransition : DeviceStateTransition δ

def demotedTransition (existing : Option (SessionRow σ)) :
    Option σ → Option (Option (SessionTransition σ))
  | none => some none
  | some updated => do
    let session ← existing
    guard (session.sessionId = some (C.sessionId updated))
    return some { primaryTransition C session.remoteUserId (some session) updated session.repairState
      session.repairAuthorization with disposition := .alternateReceiveOnly }

/-- mirrors pairwise_opaque_envelope_inspector.dart:344-497
and pairwise_volatile_opener.dart:222-318 -/
def prepareAccepted (x : ι) (ctx : PreparationContext σ δ)
    (existing replaced : Option (SessionRow σ)) :
    Option (InitialTransitions σ δ) := do
  let accepted ← C.acceptInitial x ctx.deviceState (existing.map (·.opaqueState))
    (replaced.map (·.opaqueState))
  guard (accepted.openedPayload ≠ [])
  let demoted ← demotedTransition C ctx.primary accepted.updatedExistingSession
  return {
    accepted := accepted
    sessionTransition := { primaryTransition C user none accepted.nextSession .ready none with
      disposition := accepted.disposition }
    demoted := demoted
    deviceStateTransition := ⟨accepted.nextDeviceState, ctx.stateVersion, ctx.stateVersion + 1⟩ }

/-- The session a repair replacement names: the primary one, with our request pending. -/
def readReplaced (db : SessionStore σ δ) : Option SessionId → Option (Option (SessionRow σ))
  | none => some none
  | some replacedSessionId => do
    let ctx ← readInboundContext L db replacedSessionId
    guard (ctx.disposition = .primaryBidirectional ∧
      ctx.session.repairState = .authenticatedRequestPending ∧ ctx.session.remoteUserId = user)
    return some ctx.session

/-- mirrors pairwise_opaque_envelope_inspector.dart:253-497 -/
def prepareInitial (x : ι) (envelopeId : String) (db : SessionStore σ δ) :
    Option (ReceiveCommit σ δ) := do
  let replacedSessionId ← C.probeInitial x db.deviceState
  let ctx ← readPreparationContext L user db
  let replaced ← readReplaced L user db replacedSessionId
  let existing := if replacedSessionId.isSome then none else ctx.primary
  let t ← prepareAccepted C user x ctx existing replaced
  return {
    envelopeId := envelopeId
    senderUserId := user
    replayMarker := t.accepted.replayMarker
    openedOpaquePayload := t.accepted.openedPayload
    sessionTransition := t.sessionTransition
    demotedExistingSessionTransition := t.demoted
    replacedSessionId := replacedSessionId
    deviceStateTransition := some t.deviceStateTransition }

/-- mirrors pairwise_volatile_sealer.dart:101-270, for one
target. -/
def prepareVolatileSeal (x : ι) (db : SessionStore σ δ) : Option (VolatileSealCommit σ) := do
  let ctx ← readPreparationContext L user db
  let primary ← ctx.primary
  guard (primary.repairState = .ready ∧ primary.repairAuthorization = none)
  let envelope ← prepareOutbound C x ctx
  return ⟨ctx.stateVersion, primaryTransition C user (some primary) envelope.nextSession .ready none⟩

/-- mirrors pairwise_volatile_opener.dart:98-167. A repair
control is refused; a frame past the skipped-key bound asks for a repair. -/
def prepareVolatileRegular (x : ι) (sessionId : SessionId) (db : SessionStore σ δ) :
    Option (StoreCommit σ δ) := do
  let ctx ← readInboundContext L db sessionId
  guard (ctx.disposition = .primaryBidirectional)
  match ← C.decrypt x ctx.session.opaqueState ctx.otherSessionsSkippedKeyCount with
  | .repairRequired =>
    let operationId := "pairwise-repair:signal:" ++ bytesToHex sessionId.bytes
    return .send (← prepareRepairRequest C L user x operationId operationId db)
  | .opened next payload _ repairControl => do
    guard (payload ≠ [] ∧ repairControl = false)
    return .volatileOpen ⟨primaryTransition C ctx.session.remoteUserId (some ctx.session) next
      ctx.session.repairState ctx.session.repairAuthorization, none, none, none⟩

/-- mirrors pairwise_volatile_opener.dart:169-318. A repair
replacement is refused. -/
def prepareVolatileInitial (x : ι) (db : SessionStore σ δ) : Option (VolatileOpenCommit σ δ) := do
  let replacedSessionId ← C.probeInitial x db.deviceState
  guard (replacedSessionId = none)
  let ctx ← readPreparationContext L user db
  let t ← prepareAccepted C user x ctx ctx.primary none
  return ⟨t.sessionTransition, t.demoted, some t.deviceStateTransition,
    some t.accepted.replayMarker⟩

def Operation.prepare (db : SessionStore σ δ) : Operation ι → Option (StoreCommit σ δ)
  | .fanOutSend x operationId eventId payload =>
    (prepareSend C L user x operationId eventId payload db).map .send
  | .requestRepair x operationId => 
    (prepareRepairRequest C L user x operationId operationId db).map .send
  | .receiveRegular x envelopeId sessionId => prepareRegular C L user x envelopeId sessionId db
  | .receiveInitial x envelopeId => (prepareInitial C L user x envelopeId db).map .receive
  | .sealVolatile x => (prepareVolatileSeal C L user x db).map .volatileSeal
  | .openVolatileRegular x sessionId => prepareVolatileRegular C L user x sessionId db
  | .openVolatileInitial x => (prepareVolatileInitial C L user x db).map .volatileOpen

end Prepare

end CommPlatform.L4
