import CommPlatform.Core.Bytes
import CommPlatform.Core.Outcome

/-!
# The session store of one device

`drift_pairwise_transport_store.dart`: the rows a device keeps about one
remote device (primary session, alternate session, outbox rows), with what
the commits of the transport store check and write. A commit is one
database transaction: it fails as a whole and then changes nothing.

Session states and device states are opaque here, as they are to the store;
`SessionOperations` says what the operations put into them. The rows of the
other remote devices enter the checks through their session ids, their
skipped keys and their outbox rows, which these commits do not change.

Bare line numbers are those of `drift_pairwise_transport_store.dart`.
-/
namespace CommPlatform.L4

open CommPlatform.Core

abbrev SessionId := Block 16

/-- mirrors pairwise_model.dart:7-7 -/
inductive SessionDisposition
  | primaryBidirectional | alternateReceiveOnly
deriving DecidableEq

/-- mirrors pairwise_model.dart:10-15 -/
inductive RepairState
  | ready | repairRequired | authenticatedRequestPending | replacementPending
deriving DecidableEq

inductive StoreFailure
  | invalidInput | conflict | replay | capacityExceeded | deviceStateHeld
deriving DecidableEq

abbrev StoreResult := Except StoreFailure

/-- A row of the primary or the alternate table. Rows from before session ids have none. -/
structure SessionRow (σ : Type) where
  remoteUserId : String
  sessionId : Option SessionId
  opaqueState : σ
  stateVersion : Nat
  skippedKeyCount : Nat
  repairState : RepairState
  repairAuthorization : Option Bytes
deriving DecidableEq

/-- mirrors pairwise_model.dart:64-96; no expected version
creates a session. -/
structure SessionTransition (σ : Type) where
  remoteUserId : String
  sessionId : SessionId
  nextOpaqueState : σ
  expectedStateVersion : Option Nat
  nextStateVersion : Nat
  nextSkippedKeyCount : Nat
  disposition : SessionDisposition
  repairState : RepairState
  repairAuthorization : Option Bytes

structure DeviceStateTransition (δ : Type) where
  nextOpaqueState : δ
  expectedStateVersion : Nat
  nextStateVersion : Nat

structure OutboxRow where
  operationId : String
  eventId : String
  exactCiphertext : Bytes
deriving DecidableEq

structure LocalApplication where
  operationId : String
  eventId : String
  openedLocalPayload : Bytes

structure StoreLimits where
  maximumSkippedKeysPerSession : Nat
  maximumSkippedKeysPerAccount : Nat
  maximumOutboxTargets : Nat
  maximumLocalApplications : Nat
  maximumReplayMarkers : Nat

structure SessionStore (σ δ : Type) where
  primary : Option (SessionRow σ)
  alternate : Option (SessionRow σ)
  deviceState : δ
  stateRevision : Nat
  /-- a prekey maintenance plan owns the device state -/
  maintenancePending : Bool
  outbox : List OutboxRow
  localApplications : List LocalApplication
  /-- inbox envelopes under inspection -/
  inspecting : List String
  replayMarkers : List (Block 32)
  otherSessionIds : List SessionId
  otherSkippedKeys : Nat
  otherOutboxRows : Nat

variable {σ δ : Type}

/-! ## Transitions -/

/-- mirrors :1918-1924 -/
def validRepairAuthorization (state : RepairState) : Option Bytes → Bool
  | none => state ≠ .replacementPending
  | some authorization => state = .replacementPending ∧ authorization.length = 88

/-- A created row has version 1, an updated one the next version. -/
def validVersions (next : Nat) : Option Nat → Bool
  | none => next = 1
  | some expected => 0 < expected ∧ next = expected + 1

variable (L : StoreLimits)

/-- mirrors :1884-1901;
identifiers and state blobs are well formed by type. -/
def validTransition (t : SessionTransition σ) : Bool :=
  t.remoteUserId ≠ "" ∧ validVersions t.nextStateVersion t.expectedStateVersion ∧
    t.nextSkippedKeyCount ≤ L.maximumSkippedKeysPerSession ∧
    validRepairAuthorization t.repairState t.repairAuthorization

def SessionTransition.row (t : SessionTransition σ) : SessionRow σ :=
  ⟨t.remoteUserId, some t.sessionId, t.nextOpaqueState, t.nextStateVersion, t.nextSkippedKeyCount,
    t.repairState, t.repairAuthorization⟩

/-- mirrors :1480-1506 -/
def assertNoSessionIdCollision (db : SessionStore σ δ) (t : SessionTransition σ) :
    StoreResult Unit := do
  failIf (t.sessionId ∈ db.otherSessionIds) .conflict
  failIf (db.primary.any (·.sessionId = some t.sessionId) ∧
    ¬ (t.disposition = .primaryBidirectional ∧ t.expectedStateVersion.isSome)) .conflict
  failIf (db.alternate.any (·.sessionId = some t.sessionId)) .conflict

/-- mirrors :1330-1439:
with an expected version, compare and set, and drop the alternate; without one, insert, moving a
row that stands there to the alternate table. -/
def applyPrimaryTransition (db : SessionStore σ δ) (t : SessionTransition σ) :
    StoreResult (SessionStore σ δ) :=
  match t.expectedStateVersion, db.primary with
  | some _, none => .error .conflict
  | some expected, some existing => do
    failIf (existing.stateVersion ≠ expected ∨ existing.remoteUserId ≠ t.remoteUserId) .conflict
    return { db with primary := some t.row, alternate := none }
  | none, none => .ok { db with primary := some t.row }
  | none, some existing =>
    if existing.sessionId = none then .ok { db with primary := some t.row }
    else do
      failIf (existing.remoteUserId ≠ t.remoteUserId ∨ db.alternate.isSome) .conflict
      return { db with primary := some t.row, alternate := some existing }

/-- mirrors :1441-1478 -/
def applyAlternateTransition (db : SessionStore σ δ) (t : SessionTransition σ) :
    StoreResult (SessionStore σ δ) := do
  failIf (t.expectedStateVersion.isSome ∨ db.alternate.isSome) .conflict
  failIf (db.primary.any (·.remoteUserId ≠ t.remoteUserId)) .conflict
  return { db with alternate := some t.row }

/-- mirrors :1283-1296 -/
def applySessionTransition (db : SessionStore σ δ) (t : SessionTransition σ) :
    StoreResult (SessionStore σ δ) := do
  failIf (¬ validTransition L t) .conflict
  assertNoSessionIdCollision db t
  match t.disposition with
  | .primaryBidirectional => applyPrimaryTransition db t
  | .alternateReceiveOnly => applyAlternateTransition db t

/-- mirrors :1508-1559 -/
def applyDemotedExistingTransition (db : SessionStore σ δ)
    (t : SessionTransition σ) : StoreResult (SessionStore σ δ) := do
  failIf (¬ validTransition L t ∨ t.disposition ≠ .alternateReceiveOnly ∨
    t.expectedStateVersion = none ∨ db.alternate.isSome) .conflict
  let existing ← okOr db.primary .conflict
  failIf (some existing.stateVersion ≠ t.expectedStateVersion ∨
    existing.remoteUserId ≠ t.remoteUserId ∨ existing.sessionId ≠ some t.sessionId) .conflict
  return { db with primary := none, alternate := some t.row }

/-- mirrors :1298-1328 -/
def eraseAuthenticatedRepairSession (db : SessionStore σ δ) (replacement : SessionTransition σ)
    (replacedSessionId : SessionId) : StoreResult (SessionStore σ δ) := do
  let existing ← okOr db.primary .conflict
  failIf (existing.remoteUserId ≠ replacement.remoteUserId ∨
    existing.sessionId ≠ some replacedSessionId ∨
    existing.repairState ≠ .authenticatedRequestPending) .conflict
  return { db with primary := none }

/-- mirrors :1682-1690 -/
def skippedKeyTotal (db : SessionStore σ δ) : Nat :=
  db.otherSkippedKeys + (db.primary.elim 0 (·.skippedKeyCount)) +
    (db.alternate.elim 0 (·.skippedKeyCount))

/-- mirrors :1219-1252 -/
def applyDeviceStateTransition (db : SessionStore σ δ) (t : DeviceStateTransition δ) :
    StoreResult (SessionStore σ δ) := do
  failIf db.maintenancePending .deviceStateHeld
  failIf (db.stateRevision ≠ t.expectedStateVersion) .conflict
  return { db with deviceState := t.nextOpaqueState, stateRevision := t.nextStateVersion }

/-! ## Commits -/

/-- mirrors :1903-1916 -/
def validDemotedTransition (demoted replacement : SessionTransition σ) : Bool :=
  validTransition L demoted ∧ demoted.disposition = .alternateReceiveOnly ∧
    demoted.expectedStateVersion.isSome ∧ replacement.disposition = .primaryBidirectional ∧
    replacement.expectedStateVersion = none ∧ demoted.remoteUserId = replacement.remoteUserId ∧
    demoted.sessionId ≠ replacement.sessionId

/-- mirrors :1926-1930 -/
def validDeviceTransition (t : DeviceStateTransition δ) : Bool :=
  0 < t.expectedStateVersion ∧ t.nextStateVersion = t.expectedStateVersion + 1

/-- What a send writes for one recipient device.
mirrors pairwise_model.dart:160-197 -/
structure SendCommit (σ : Type) where
  operationId : String
  eventId : String
  expectedDeviceStateVersion : Nat
  openedLocalPayload : Bytes
  exactCiphertext : Bytes
  sessionTransition : SessionTransition σ
  demotedExistingSessionTransition : Option (SessionTransition σ)

/-- mirrors :1708-1746 -/
def validSend (c : SendCommit σ) : Bool :=
  c.operationId ≠ "" ∧ c.eventId ≠ "" ∧ 0 < c.expectedDeviceStateVersion ∧
    c.openedLocalPayload ≠ [] ∧ c.openedLocalPayload.length ≤ 262144 ∧
    c.sessionTransition.disposition = .primaryBidirectional ∧
    c.demotedExistingSessionTransition.all (validDemotedTransition L · c.sessionTransition)

/-- mirrors :1932-1938 -/
def sameLocalApplication (c : SendCommit σ) (row : LocalApplication) : Bool :=
  row.eventId = c.eventId ∧ row.openedLocalPayload = c.openedLocalPayload

/-- mirrors :1940-1969 -/
def samePreparedSend (rows : List OutboxRow) (existingLocal : Option LocalApplication)
    (c : SendCommit σ) : Bool :=
  existingLocal.any (sameLocalApplication c) ∧
    rows = [⟨c.operationId, c.eventId, c.exactCiphertext⟩]

def applyDemoted (db : SessionStore σ δ) :
    Option (SessionTransition σ) → StoreResult (SessionStore σ δ)
  | none => .ok db
  | some demoted => applyDemotedExistingTransition L db demoted

/-- mirrors :229-336 -/
def commitPreparedSend (c : SendCommit σ)
    (db : SessionStore σ δ) : StoreResult (SessionStore σ δ) := do
  failIf (¬ validSend L c) .invalidInput
  let existingRows := db.outbox.filter (·.operationId = c.operationId)
  let existingLocal := db.localApplications.find? (·.operationId = c.operationId)
  if existingRows ≠ [] then do
    failIf (¬ samePreparedSend existingRows existingLocal c) .conflict
    return db
  else do
    failIf (existingLocal.any (!sameLocalApplication c ·)) .conflict
    failIf (db.outbox.length + db.otherOutboxRows + 1 > L.maximumOutboxTargets) .capacityExceeded
    failIf (existingLocal = none ∧ db.localApplications.length ≥ L.maximumLocalApplications)
      .capacityExceeded
    failIf (db.stateRevision ≠ c.expectedDeviceStateVersion) .conflict
    let db ← applyDemoted L db c.demotedExistingSessionTransition
    let db ← applySessionTransition L db c.sessionTransition
    failIf (skippedKeyTotal db > L.maximumSkippedKeysPerAccount) .capacityExceeded
    return { db with
      localApplications := if existingLocal = none then
        db.localApplications ++ [⟨c.operationId, c.eventId, c.openedLocalPayload⟩]
        else db.localApplications
      outbox := db.outbox ++ [⟨c.operationId, c.eventId, c.exactCiphertext⟩] }

/-- What an opened envelope writes.
mirrors pairwise_model.dart:275-330 -/
structure ReceiveCommit (σ δ : Type) where
  envelopeId : String
  senderUserId : String
  replayMarker : Block 32
  openedOpaquePayload : Bytes
  sessionTransition : SessionTransition σ
  demotedExistingSessionTransition : Option (SessionTransition σ)
  replacedSessionId : Option SessionId
  deviceStateTransition : Option (DeviceStateTransition δ)

/-- mirrors :1748-1813 -/
def validReceive (c : ReceiveCommit σ δ) : Bool :=
  c.senderUserId ≠ "" ∧ c.openedOpaquePayload ≠ [] ∧ c.openedOpaquePayload.length ≤ 262144 ∧
    c.sessionTransition.remoteUserId = c.senderUserId ∧ validTransition L c.sessionTransition ∧
    c.demotedExistingSessionTransition.all (validDemotedTransition L · c.sessionTransition) ∧
    (c.replacedSessionId.isSome → c.demotedExistingSessionTransition = none ∧
      c.sessionTransition.expectedStateVersion = none ∧
      c.sessionTransition.disposition = .primaryBidirectional ∧
      c.sessionTransition.repairState = .ready) ∧
    c.deviceStateTransition.all validDeviceTransition

def applyReplaced (db : SessionStore σ δ) (t : SessionTransition σ) :
    Option SessionId → StoreResult (SessionStore σ δ)
  | none => .ok db
  | some replacedSessionId => eraseAuthenticatedRepairSession db t replacedSessionId

def applyDevice (db : SessionStore σ δ) :
    Option (DeviceStateTransition δ) → StoreResult (SessionStore σ δ)
  | none => .ok db
  | some t => applyDeviceStateTransition db t

/-- mirrors :575-727 -/
def commitPreparedReceive (c : ReceiveCommit σ δ) (db : SessionStore σ δ) :
    StoreResult (SessionStore σ δ) := do
  failIf (¬ validReceive L c) .invalidInput
  failIf (c.envelopeId ∉ db.inspecting) .conflict
  failIf (c.replayMarker ∈ db.replayMarkers) .replay
  failIf (db.replayMarkers.length ≥ L.maximumReplayMarkers) .capacityExceeded
  let db ← applyDemoted L db c.demotedExistingSessionTransition
  let db ← applyReplaced db c.sessionTransition c.replacedSessionId
  let db ← applySessionTransition L db c.sessionTransition
  failIf (skippedKeyTotal db > L.maximumSkippedKeysPerAccount) .capacityExceeded
  let db ← applyDevice db c.deviceStateTransition
  return { db with
    replayMarkers := db.replayMarkers ++ [c.replayMarker]
    inspecting := db.inspecting.erase c.envelopeId }

/-- mirrors pairwise_model.dart:208-219, for one target -/
structure VolatileSealCommit (σ : Type) where
  expectedDeviceStateVersion : Nat
  transition : SessionTransition σ

/-- mirrors :1815-1840 -/
def validVolatileSeal (c : VolatileSealCommit σ) : Bool :=
  0 < c.expectedDeviceStateVersion ∧ validTransition L c.transition ∧
    c.transition.expectedStateVersion.isSome ∧
    c.transition.disposition = .primaryBidirectional ∧ c.transition.repairState = .ready

/-- mirrors :729-769 -/
def commitVolatileSeal (c : VolatileSealCommit σ) (db : SessionStore σ δ) :
    StoreResult (SessionStore σ δ) := do
  failIf (¬ validVolatileSeal L c) .invalidInput
  failIf (db.stateRevision ≠ c.expectedDeviceStateVersion) .conflict
  let db ← applySessionTransition L db c.transition
  failIf (skippedKeyTotal db > L.maximumSkippedKeysPerAccount) .capacityExceeded
  return db

/-- mirrors pairwise_model.dart:221-256 -/
structure VolatileOpenCommit (σ δ : Type) where
  sessionTransition : SessionTransition σ
  demotedExistingSessionTransition : Option (SessionTransition σ)
  deviceStateTransition : Option (DeviceStateTransition δ)
  replayMarker : Option (Block 32)

/-- mirrors :1842-1882 -/
def validVolatileOpen (c : VolatileOpenCommit σ δ) : Bool :=
  validTransition L c.sessionTransition ∧
    if c.sessionTransition.expectedStateVersion.isSome then
      c.sessionTransition.disposition = .primaryBidirectional ∧
        c.demotedExistingSessionTransition = none ∧ c.deviceStateTransition = none ∧
        c.replayMarker = none
    else
      c.replayMarker.isSome ∧ c.deviceStateTransition.any validDeviceTransition ∧
        c.sessionTransition.repairState = .ready ∧
        c.demotedExistingSessionTransition.all (validDemotedTransition L · c.sessionTransition)

/-- mirrors :771-852 -/
def commitVolatileOpen (c : VolatileOpenCommit σ δ) (db : SessionStore σ δ) :
    StoreResult (SessionStore σ δ) := do
  failIf (¬ validVolatileOpen L c) .invalidInput
  failIf (c.replayMarker.any (· ∈ db.replayMarkers)) .replay
  failIf (c.replayMarker.isSome ∧ db.replayMarkers.length ≥ L.maximumReplayMarkers)
    .capacityExceeded
  let db ← applyDemoted L db c.demotedExistingSessionTransition
  let db ← applySessionTransition L db c.sessionTransition
  failIf (skippedKeyTotal db > L.maximumSkippedKeysPerAccount) .capacityExceeded
  let db ← applyDevice db c.deviceStateTransition
  return { db with replayMarkers := db.replayMarkers ++ c.replayMarker.toList }

end CommPlatform.L4
