import CommPlatform.L4Store.SessionStore

/-!
# The tables of prekey maintenance

`drift_prekey_maintenance_store.dart`: the device state with its revision,
the one pending maintenance plan, what the device row says of the published
bundle, and the replay markers that go with the signed prekeys. Each
function is one transaction; a failed one changes nothing.

While a plan is stored the device state is the one the plan installed, and
no other writer may change it. The rows of the single prekeys, which no
function here reads, are left out.

Bare line numbers are those of `prekey_maintenance_model.dart`.
-/
namespace CommPlatform.L4

open CommPlatform.Core

/-! ## Plans -/

/-- mirrors :38-61 -/
structure PrekeyUploadEntry where
  keyId : UInt32
  publicKey : Bytes
deriving DecidableEq

/-- mirrors :63-91 -/
structure SignedPrekeyUpload where
  keyId : UInt32
  publicKey : Bytes
  signature : Block 64
deriving DecidableEq

/-- mirrors :95-117 -/
structure SignedPrekeyRotationUpload where
  classical : SignedPrekeyUpload
  postQuantum : SignedPrekeyUpload
  crossSignature : Block 64
  bundleVersion : Nat
deriving DecidableEq

/-- mirrors :120-147 -/
structure PrekeyUploadProjection where
  classicalOneTimePrekeys : List PrekeyUploadEntry
  pqOneTimePrekeys : List PrekeyUploadEntry
  rotation : Option SignedPrekeyRotationUpload
deriving DecidableEq

/-- mirrors :149-153 -/
inductive PrekeyMaintenanceStage
  | prepared | uploadAcceptedAwaitingDeviceLogPreparation | deviceLogPrepared
deriving DecidableEq

/-- mirrors :155-173 -/
structure PreparedRotationDeviceLog where
  expectedSequence : Nat
  previousHeadHash : Block 32
  exactRecord : Block 256
deriving DecidableEq

/-- mirrors :176-257; the native
projection is kept as what it decodes to. -/
structure PrekeyMaintenancePlan (δ : Type) where
  expectedStateRevision : Nat
  preparedUnixDay : Nat
  bundleVersion : Nat
  currentSignedPrekeyCreatedUnixDay : Nat
  batchId : Block 16
  pendingDeviceState : δ
  upload : PrekeyUploadProjection
  stage : PrekeyMaintenanceStage
  rotationDeviceLog : Option PreparedRotationDeviceLog
deriving DecidableEq

variable {δ : Type}

namespace PrekeyMaintenancePlan

def rotatesSignedPrekeys (plan : PrekeyMaintenancePlan δ) : Bool := plan.upload.rotation.isSome

/-- What the constructor of a plan demands.
mirrors :191-206 -/
def valid (plan : PrekeyMaintenancePlan δ) : Bool :=
  0 < plan.expectedStateRevision ∧ 0 < plan.bundleVersion ∧ plan.bundleVersion ≤ 0xffffffff ∧
    plan.currentSignedPrekeyCreatedUnixDay ≤ plan.preparedUnixDay ∧
    plan.upload.rotation.all (·.bundleVersion = plan.bundleVersion) ∧
    (plan.stage ≠ .prepared → plan.upload.rotation.isSome) ∧
    (plan.stage = .deviceLogPrepared ↔ plan.rotationDeviceLog.isSome)

/-- mirrors drift_prekey_maintenance_store.dart:739-752 -/
def sameImmutable (left right : PrekeyMaintenancePlan δ) [DecidableEq δ] : Bool :=
  { left with stage := right.stage, rotationDeviceLog := right.rotationDeviceLog } = right

end PrekeyMaintenancePlan

/-! ## Tables -/

/-- A marker of an initial envelope names the signed pair the envelope used. -/
structure ReplayMarkerRow where
  replayMarker : Block 32
  signedPair : Option (UInt32 × UInt32)
  committedAt : Nat

structure PrekeyTables (δ : Type) where
  deviceState : δ
  stateRevision : Nat
  plan : Option (PrekeyMaintenancePlan δ)
  bundleVersion : Nat
  lastSignedPrekeyRotationUnixDay : Nat
  revoked : Bool
  replayMarkers : List ReplayMarkerRow

inductive MaintenanceFailure
  | invalidInput | conflict | integrityCheckFailed | policyBlocked
deriving DecidableEq

abbrev MaintenanceResult := Except MaintenanceFailure

/-- The stored plan; its device state is the stored one.
mirrors drift_prekey_maintenance_store.dart:575-625 -/
def PrekeyTables.decodePlan (t : PrekeyTables δ) : Option (PrekeyMaintenancePlan δ) :=
  t.plan.map fun row => { row with pendingDeviceState := t.deviceState }

/-- mirrors drift_prekey_maintenance_store.dart:156-174 -/
def PrekeyTables.followsBundle (t : PrekeyTables δ) (plan : PrekeyMaintenancePlan δ) : Bool :=
  match plan.upload.rotation with
  | none => plan.bundleVersion = t.bundleVersion ∧
      plan.currentSignedPrekeyCreatedUnixDay = t.lastSignedPrekeyRotationUnixDay
  | some _ => plan.bundleVersion = t.bundleVersion + 1 ∧
      plan.currentSignedPrekeyCreatedUnixDay = plan.preparedUnixDay

/-- mirrors drift_prekey_maintenance_store.dart:128-224 -/
def persistPrepared [DecidableEq δ] (plan : PrekeyMaintenancePlan δ) (t : PrekeyTables δ) :
    MaintenanceResult (PrekeyTables δ) := do
  failIf (¬ plan.valid ∨ plan.stage ≠ .prepared) .invalidInput
  match t.decodePlan with
  | some stored => do
    failIf (t.stateRevision ≠ plan.expectedStateRevision + 1 ∨ stored ≠ plan) .conflict
    return t
  | none => do
    failIf (t.revoked ∨ ¬ t.followsBundle plan) .conflict
    failIf (t.stateRevision ≠ plan.expectedStateRevision) .conflict
    return { t with
      deviceState := plan.pendingDeviceState
      stateRevision := plan.expectedStateRevision + 1
      plan := some plan }

/-- mirrors drift_prekey_maintenance_store.dart:253-331;
`expected` is the stage the stored plan must have, unless it is already the one to store. -/
def advancePlan [DecidableEq δ] (expected : PrekeyMaintenanceStage) (plan : PrekeyMaintenancePlan δ)
    (t : PrekeyTables δ) : MaintenanceResult (PrekeyTables δ) := do
  failIf (¬ plan.valid ∨ ¬ plan.rotatesSignedPrekeys) .invalidInput
  let stored ← okOr t.decodePlan .conflict
  failIf (t.stateRevision ≠ plan.expectedStateRevision + 1 ∨
    t.deviceState ≠ plan.pendingDeviceState) .conflict
  if stored.stage = plan.stage then do
    failIf (stored ≠ plan) .conflict
    return t
  else do
    failIf (stored.stage ≠ expected ∨ ¬ stored.sameImmutable plan) .conflict
    return { t with plan := some plan }

/-- mirrors drift_prekey_maintenance_store.dart:235-241 -/
def markUploadAccepted [DecidableEq δ] (plan : PrekeyMaintenancePlan δ) (t : PrekeyTables δ) :
    MaintenanceResult (PrekeyTables δ) := do
  failIf (plan.stage ≠ .uploadAcceptedAwaitingDeviceLogPreparation) .invalidInput
  advancePlan .prepared plan t

/-- mirrors drift_prekey_maintenance_store.dart:244-250 -/
def persistRotationLogPrepared [DecidableEq δ] (plan : PrekeyMaintenancePlan δ)
    (t : PrekeyTables δ) : MaintenanceResult (PrekeyTables δ) := do
  failIf (plan.stage ≠ .deviceLogPrepared) .invalidInput
  advancePlan .uploadAcceptedAwaitingDeviceLogPreparation plan t

/-- The result of pruning the retired signed prekeys of a device state.
mirrors :342-364 -/
structure PrekeyPruneResult (δ : Type) where
  nextDeviceState : δ
  stateChanged : Bool
  bundleVersion : Nat
  currentSignedPrekeyCreatedUnixDay : Nat
  erasedSignedPrekeys : List (UInt32 × UInt32)

def withoutPairs (erased : List (UInt32 × UInt32)) (markers : List ReplayMarkerRow) :
    List ReplayMarkerRow :=
  markers.filter fun row => ¬ row.signedPair.any (· ∈ erased)

/-- mirrors drift_prekey_maintenance_store.dart:334-440 -/
def persistNativeSummary [DecidableEq δ] (expectedStateRevision : Nat) (prune : PrekeyPruneResult δ)
    (t : PrekeyTables δ) : MaintenanceResult (PrekeyTables δ) := do
  failIf (expectedStateRevision = 0 ∨ prune.bundleVersion = 0 ∨
    (prune.stateChanged = false ∧ prune.erasedSignedPrekeys ≠ [])) .invalidInput
  failIf t.plan.isSome .conflict
  failIf (t.stateRevision ≠ expectedStateRevision ∨ t.bundleVersion ≠ prune.bundleVersion ∨
    (prune.stateChanged = false ∧ t.deviceState ≠ prune.nextDeviceState)) .conflict
  return { t with
    deviceState := if prune.stateChanged then prune.nextDeviceState else t.deviceState
    stateRevision := if prune.stateChanged then expectedStateRevision + 1 else t.stateRevision
    lastSignedPrekeyRotationUnixDay := prune.currentSignedPrekeyCreatedUnixDay
    replayMarkers := withoutPairs prune.erasedSignedPrekeys t.replayMarkers }

/-- mirrors :324-340 -/
structure PrekeyCommitResult (δ : Type) where
  nextDeviceState : δ
  bundleVersion : Nat
  currentSignedPrekeyCreatedUnixDay : Nat

def PrekeyMaintenancePlan.lastStage (plan : PrekeyMaintenancePlan δ) : PrekeyMaintenanceStage :=
  if plan.rotatesSignedPrekeys then .deviceLogPrepared else .prepared

/-- mirrors drift_prekey_maintenance_store.dart:443-542 -/
def complete [DecidableEq δ] (plan : PrekeyMaintenancePlan δ) (committed : PrekeyCommitResult δ)
    (t : PrekeyTables δ) : MaintenanceResult (PrekeyTables δ) := do
  failIf (committed.bundleVersion ≠ plan.bundleVersion ∨
    committed.currentSignedPrekeyCreatedUnixDay ≠ plan.currentSignedPrekeyCreatedUnixDay ∨
    plan.stage ≠ plan.lastStage) .invalidInput
  let stored ← okOr t.decodePlan .conflict
  failIf (t.stateRevision ≠ plan.expectedStateRevision + 1 ∨ stored ≠ plan) .conflict
  return { t with
    deviceState := committed.nextDeviceState
    stateRevision := plan.expectedStateRevision + 2
    bundleVersion := committed.bundleVersion
    lastSignedPrekeyRotationUnixDay := committed.currentSignedPrekeyCreatedUnixDay
    plan := none }

end CommPlatform.L4
