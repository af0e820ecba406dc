import CommPlatform.L2Crypto.PrekeyMaintenance
import CommPlatform.L4Store.MaintenanceStore
import CommPlatform.L4Store.NativeSessions

/-!
# The store of one account's device

All remote devices together: their session rows, the one device state with
its maintenance plan, and the replay markers. `view` is the store as the
operations about one remote device see it, and `commitAccount` runs their
commits there; what the account knows beside it (which signed pair an
initial envelope named, when it was committed) goes into the marker row.
-/
namespace CommPlatform.L4

open CommPlatform.Core L1 L2
open L3 hiding AcceptedInitial

structure RemoteRows (σ : Type) where
  remoteDevice : Block 16
  primary : Option (SessionRow σ)
  alternate : Option (SessionRow σ)
  outbox : List OutboxRow

structure AccountStore (σ δ : Type) where
  prekeys : PrekeyTables δ
  remotes : List (RemoteRows σ)
  localApplications : List LocalApplication
  inspecting : List String

variable {σ δ : Type}

def RemoteRows.rows (r : RemoteRows σ) : List (SessionRow σ) := r.primary.toList ++ r.alternate.toList

namespace AccountStore

def rowsOf (a : AccountStore σ δ) (peer : Block 16) : RemoteRows σ :=
  (a.remotes.find? (·.remoteDevice = peer)).getD ⟨peer, none, none, []⟩

def others (a : AccountStore σ δ) (peer : Block 16) : List (RemoteRows σ) :=
  a.remotes.filter (·.remoteDevice ≠ peer)

def view (a : AccountStore σ δ) (peer : Block 16) : SessionStore σ δ where
  primary := (a.rowsOf peer).primary
  alternate := (a.rowsOf peer).alternate
  deviceState := a.prekeys.deviceState
  stateRevision := a.prekeys.stateRevision
  maintenancePending := a.prekeys.plan.isSome
  outbox := (a.rowsOf peer).outbox
  localApplications := a.localApplications
  inspecting := a.inspecting
  replayMarkers := a.prekeys.replayMarkers.map (·.replayMarker)
  otherSessionIds := (a.others peer).flatMap fun r => r.rows.filterMap (·.sessionId)
  otherSkippedKeys := ((a.others peer).flatMap fun r => r.rows.map (·.skippedKeyCount)).sum
  otherOutboxRows := ((a.others peer).map (·.outbox.length)).sum

/-- The account after a transaction about `peer` left `db` and added `markers`. -/
def install (a : AccountStore σ δ) (peer : Block 16) (db : SessionStore σ δ)
    (markers : List ReplayMarkerRow) : AccountStore σ δ where
  prekeys := { a.prekeys with
    deviceState := db.deviceState
    stateRevision := db.stateRevision
    replayMarkers := a.prekeys.replayMarkers ++ markers }
  remotes := ⟨peer, db.primary, db.alternate, db.outbox⟩ :: a.others peer
  localApplications := db.localApplications
  inspecting := db.inspecting

/-- Sessions with these devices of one user are deleted. The outbox rows stay, as stale ones.
mirrors drift_pairwise_transport_store.dart:1184-1217 -/
def invalidateRemoteDevices (a : AccountStore σ δ) (remoteUserId : String)
    (remoteDevices : List (Block 16)) : AccountStore σ δ :=
  { a with remotes := a.remotes.map fun r =>
      if r.remoteDevice ∈ remoteDevices then
        { r with
          primary := r.primary.filter (·.remoteUserId ≠ remoteUserId)
          alternate := r.alternate.filter (·.remoteUserId ≠ remoteUserId) }
      else r }

/-- Markers that name no signed pair go when they are older than the retention, markers of an
initial when its signed pair is erased. The tombstones and payloads it also prunes are not modelled.
mirrors drift_pairwise_transport_store.dart:1115-1182 -/
def pruneRetainedMetadata (a : AccountStore σ δ) (replayRetention now : Nat)
    (erased : List (UInt32 × UInt32)) : AccountStore σ δ :=
  { a with prekeys := { a.prekeys with
      replayMarkers := withoutPairs erased (a.prekeys.replayMarkers.filter fun row =>
        ¬ (row.signedPair = none ∧ row.committedAt + replayRetention < now)) } }

end AccountStore

def StoreCommit.marker : StoreCommit σ δ → Option (Block 32)
  | .receive c => some c.replayMarker
  | .volatileOpen c => c.replayMarker
  | _ => none

/-- A commit about `peer`; the marker it inserts names the signed pair of the envelope. -/
def commitAccount (L : StoreLimits) (a : AccountStore σ δ) (peer : Block 16) (c : StoreCommit σ δ)
    (signedPair : Option (UInt32 × UInt32)) (now : Nat) : StoreResult (AccountStore σ δ) := do
  let db ← commitStore L (a.view peer) c
  return a.install peer db (c.marker.toList.map (⟨·, signedPair, now⟩))

def signedPairOf (envelope : Bytes) : Option (UInt32 × UInt32) :=
  match Envelope.parse envelope with
  | .ok e =>
    match e.header with
    | .initial header => some (header.signedPrekeyId, header.pqSignedPrekeyId)
    | .regular _ => none
  | .error _ => none

/-- What the core reports of pruning a device state.
mirrors pairwise.rs:1922-1948 -/
def DeviceState.erasedBy (d : DeviceState) (coarseDay : UInt32) : List (UInt32 × UInt32) :=
  (d.retired.filter fun pair => coarseDay > pair.retainThroughDay).map fun pair =>
    (pair.classical.id, pair.pq.id)

/-- mirrors native_prekey_maintenance_crypto.dart:114-190 -/
def pruneRetainedSignedPrekeys {base : DeviceState} (d : OwnDevice base) (unixDay : UInt32) :
    PrekeyPruneResult (OwnDevice base) where
  nextDeviceState := ⟨d.1.pruneRetired unixDay, show _ from d.2⟩
  stateChanged := d.1.pruneRetired unixDay ≠ d.1
  bundleVersion := d.1.bundleVersion.toNat
  currentSignedPrekeyCreatedUnixDay := d.1.currentClassical.createdDay.toNat
  erasedSignedPrekeys := DeviceState.erasedBy d.1 unixDay

/-! ## Runs -/

/-- A commit waiting for its transaction; `initial` is the envelope if it is an initial one. -/
structure AccountPlan (σ δ : Type) where
  peer : Block 16
  initial : Option Bytes
  commit : StoreCommit σ δ

/-- The store, what was computed from it and not stored yet, the pairs whose erasure is stored, and
the initial envelopes committed so far. -/
structure AccountRun (base : DeviceState) where
  store : AccountStore NativeSession (OwnDevice base)
  plans : List (AccountPlan NativeSession (OwnDevice base))
  summaries : List (Nat × PrekeyPruneResult (OwnDevice base))
  prepared : List (PrekeyMaintenancePlan (OwnDevice base))
  erased : List (UInt32 × UInt32)
  committed : List Bytes

/-- The envelope of an operation that accepts an initial. -/
def Operation.initialEnvelope (op : Operation NativeInput) : Option Bytes :=
  if op.isInitial then some op.input.envelope else none

namespace AccountRun

variable {base : DeviceState}

abbrev device (r : AccountRun base) : OwnDevice base := r.store.prekeys.deviceState

abbrev revision (r : AccountRun base) : Nat := r.store.prekeys.stateRevision

abbrev withTables (r : AccountRun base) (t : PrekeyTables (OwnDevice base)) : AccountRun base :=
  { r with store := { r.store with prekeys := t } }

end AccountRun

section Steps

variable (P : PrekeyProvider) (base : DeviceState) (L : StoreLimits) (replayRetention : Nat)
  (me : Block 16)

/-- One step of a device: an operation reads the store and plans, a plan is committed in one
transaction, sessions are invalidated, markers are pruned, or prekey maintenance reads the device
state, stores a summary or a plan, or advances or completes its plan. Plans that are never committed
are operations that failed or were stopped. -/
inductive AccountStep : AccountRun base → AccountRun base → Prop
  | prepare {r : AccountRun base} {peer : Block 16} {user : String} {op : Operation NativeInput}
      {c : StoreCommit NativeSession (OwnDevice base)}
      (h : op.prepare (nativeCrypto P.toCryptoProvider base me peer) L user (r.store.view peer) =
        some c) :
      AccountStep r { r with plans := ⟨peer, op.initialEnvelope, c⟩ :: r.plans }
  | commit {r : AccountRun base} {p : AccountPlan NativeSession (OwnDevice base)} {now : Nat}
      {a : AccountStore NativeSession (OwnDevice base)} (hp : p ∈ r.plans)
      (h : commitAccount L r.store p.peer p.commit (p.initial.bind signedPairOf) now = .ok a) :
      AccountStep r { r with store := a, committed := p.initial.toList ++ r.committed }
  | inspect {r : AccountRun base} (inspecting : List String) :
      AccountStep r { r with store := { r.store with inspecting := inspecting } }
  | invalidate {r : AccountRun base} (user : String) (devices : List (Block 16)) :
      AccountStep r { r with store := r.store.invalidateRemoteDevices user devices }
  | pruneMetadata {r : AccountRun base} (now : Nat) {erased : List (UInt32 × UInt32)}
      (h : erased ⊆ r.erased) :
      AccountStep r { r with store := r.store.pruneRetainedMetadata replayRetention now erased }
  | pruneSigned {r : AccountRun base} (day : UInt32) :
      AccountStep r { r with
        summaries := (r.revision, pruneRetainedSignedPrekeys r.device day) :: r.summaries }
  | persistSummary {r : AccountRun base} {s : Nat × PrekeyPruneResult (OwnDevice base)}
      {t : PrekeyTables (OwnDevice base)} (hs : s ∈ r.summaries)
      (h : persistNativeSummary s.1 s.2 r.store.prekeys = .ok t) :
      AccountStep r { r.withTables t with erased := s.2.erasedSignedPrekeys ++ r.erased }
  | replenish {r : AccountRun base} {sc sp tc tp : UInt16} {entropy projection : Bytes}
      {plan : PrekeyMaintenancePlan (OwnDevice base)}
      (h : prepareReplenishment P r.device.1 sc sp tc tp entropy =
        .ok (plan.pendingDeviceState.1, plan.batchId, projection))
      (hr : plan.expectedStateRevision = r.revision) :
      AccountStep r { r with prepared := plan :: r.prepared }
  | rotate {r : AccountRun base} {package entropy projection : Bytes} {deviceId : Block 16}
      {day : UInt32} {plan : PrekeyMaintenancePlan (OwnDevice base)}
      (h : prepareRotation P r.device.1 package deviceId day entropy =
        .ok (plan.pendingDeviceState.1, plan.batchId, projection))
      (hr : plan.expectedStateRevision = r.revision) :
      AccountStep r { r with prepared := plan :: r.prepared }
  | persistPrepared {r : AccountRun base} {plan : PrekeyMaintenancePlan (OwnDevice base)}
      {t : PrekeyTables (OwnDevice base)} (hp : plan ∈ r.prepared)
      (h : persistPrepared plan r.store.prekeys = .ok t) : AccountStep r (r.withTables t)
  | markUploadAccepted {r : AccountRun base} {plan : PrekeyMaintenancePlan (OwnDevice base)}
      {t : PrekeyTables (OwnDevice base)} (h : markUploadAccepted plan r.store.prekeys = .ok t) :
      AccountStep r (r.withTables t)
  | persistLog {r : AccountRun base} {plan : PrekeyMaintenancePlan (OwnDevice base)}
      {t : PrekeyTables (OwnDevice base)}
      (h : persistRotationLogPrepared plan r.store.prekeys = .ok t) : AccountStep r (r.withTables t)
  | complete {r : AccountRun base} {plan : PrekeyMaintenancePlan (OwnDevice base)}
      {committed : PrekeyCommitResult (OwnDevice base)} {t : PrekeyTables (OwnDevice base)}
      (hc : commitPendingUpload plan.pendingDeviceState.1 plan.batchId =
        .ok committed.nextDeviceState.1)
      (h : complete plan committed r.store.prekeys = .ok t) : AccountStep r (r.withTables t)

/-- A device starts with a readable device state, such as its enrolment package decodes to
(`decodeV1_closed`), and an empty store. -/
def accountSystem : System (AccountRun base) where
  init r := r.device.1.Readable ∧ r.store.prekeys.plan = none ∧
    r.store.prekeys.replayMarkers = [] ∧ r.store.remotes = [] ∧ r.plans = [] ∧ r.summaries = [] ∧
    r.prepared = [] ∧ r.erased = [] ∧ r.committed = []
  step := AccountStep P base L replayRetention me

end Steps

end CommPlatform.L4
