import CommPlatform.Core.Process
import CommPlatform.L4Server.DeviceLog
import CommPlatform.L4Store.MaintenanceStore

/-!
# Reading and extending the own device log

The account's own devices read the whole log before they write to it, check
every link, make a record for the next sequence and append it in a request of
its own. `OwnDeviceLogCoordinator`
(frontend/lib/features/devices/application/own_device_log_coordinator.dart)
and `VerifiedRotationDeviceLog`
(frontend/lib/features/devices/infrastructure/verified_rotation_device_log.dart)
share the reading but for what they do when a record does not link; the
second one is modelled here. Both are processes over the requests of a
`Repository`, so that they can run among other calls.

Bare line numbers are those of `verified_rotation_device_log.dart`.
-/
namespace CommPlatform.Devices

open CommPlatform.Core Server L4

/-! ## Data -/

inductive Failure
  | store (failure : MaintenanceFailure)
  | api (error : ApiError)
  /-- the answer of a request did not arrive -/
  | lost
  | malformed
  | crypto (code : String)
  | storage
  | conflict
  | invalidInput
  | policyBlocked
  | unauthenticatedInput
  | integrityCheckFailed
  | resourceExhausted
  /-- a constructor of the domain model threw -/
  | thrown

/-- mirrors device_enrollment_model.dart:179-195 -/
structure PublicDevice where
  deviceId : Uuid
  ikPub : Bytes
  registrationId : Nat
  crossSignature : Option Bytes
  bundleVersion : Option Nat

def PublicDevice.isUnsigned (d : PublicDevice) : Bool :=
  d.crossSignature = none ∨ d.bundleVersion = none

structure PublicDeviceList where
  devices : List PublicDevice
  logHeadSequence : Option Nat

structure DeviceLogInspection where
  sequence : Nat
  previousHash : Bytes
  recordHash : Bytes

/-- The core's two operations on own log records, bound to the identity and the user. -/
structure LogPort where
  createDeviceLogRecord : (sequence : Nat) → (previousHash canonicalLiveSet : Bytes) →
    (identityVersion coarseUnixDay : Nat) → Except Failure Bytes
  inspectDeviceLogRecord : Bytes → Except Failure DeviceLogInspection

/-- The requests, as calls of a process. `expected` is the sequence the record was made for; it is
not sent. -/
structure Repository (C : Type) (A : C → Type) where
  fetchIdentity : Proc C A Failure (Except Failure UserIdentity)
  fetchDeviceLog : (after : Option Nat) → Proc C A Failure (Except Failure LogPage)
  fetchPublicDevices : Proc C A Failure (Except Failure PublicDeviceList)
  appendDeviceLog : (record : Bytes) → (expected : Nat) →
    Proc C A Failure (Except Failure (Nat × Nat))

/-! ## The canonical live set -/

/-- mirrors own_device_log_coordinator.dart:529-532, :306-310 -/
def frame (value : Bytes) : Bytes := be 4 value.length ++ value

def entryBytes (d : PublicDevice) : Bytes :=
  d.deviceId.bytes ++ frame d.ikPub ++ be 4 d.registrationId ++ frame (d.crossSignature.getD []) ++
    be 4 (d.bundleVersion.getD 0)

/-- The bytes a record covers the live set by; none for a set with a device twice or a key of another
length. mirrors own_device_log_coordinator.dart:500-524, :271-298 -/
def canonicalLiveSet (devices : List PublicDevice) : Option Bytes :=
  let sorted := devices.insertionSort fun a b => a.deviceId.bytes ≤ b.deviceId.bytes
  if (sorted.map (·.deviceId)).Nodup ∧
      ∀ d ∈ sorted, d.ikPub.length = 64 ∧ ∀ s ∈ d.crossSignature, s.length = 64 then
    some (ascii "chat:v1:device-set" ++ be 4 sorted.length ++ sorted.flatMap entryBytes)
  else none

/-! ## Reading the whole log -/

/-- What has been read: each record with its hash, at its sequence, and the hash of the last one. -/
structure VerifiedLog where
  records : List (Bytes × Bytes)
  hash : Bytes

/-- `null` while nothing was read. -/
def VerifiedLog.headSequence (v : VerifiedLog) : Option Nat :=
  if v.records = [] then none else some (v.records.length - 1)

section Reading

variable {C : Type} {A : C → Type} (R : Repository C A) (port : LogPort)
  (onInvalid onUnlinked : Proc C A Failure Unit) (unlinked : Failure)

/-- One record. The running `expected` is the number of records read.
mirrors own_device_log_coordinator.dart:335-374, :221-246 -/
def inspectRecord (v : VerifiedLog) (record : Nat × Bytes) : Proc C A Failure VerifiedLog :=
  if record.1 ≠ v.records.length ∨ v.records.length ≥ 10000 then .fail .unauthenticatedInput
  else
    match port.inspectDeviceLogRecord record.2 with
    | .error e => do
      onInvalid
      .fail e
    | .ok value =>
      if value.sequence ≠ record.1 ∨ value.previousHash ≠ v.hash then do
        onUnlinked
        .fail unlinked
      else .ret ⟨v.records ++ [(record.2, value.recordHash)], value.recordHash⟩

def inspectRecords : VerifiedLog → List (Nat × Bytes) → Proc C A Failure VerifiedLog
  | v, [] => .ret v
  | v, record :: records => do
    let v ← inspectRecord port onInvalid onUnlinked unlinked v record
    inspectRecords v records

/-- The loop over the pages; all of them name one head.
mirrors own_device_log_coordinator.dart:310-394, :197-269 -/
def readPages : (pages : Nat) → (fixedHead : Option Nat) → VerifiedLog →
    Proc C A Failure VerifiedLog
  | 0, _, _ => .fail .resourceExhausted
  | pages + 1, fixedHead, v => do
    let page ← Proc.ofExcept (← R.fetchDeviceLog v.headSequence)
    let fixedHead := fixedHead.or page.headSeq
    if fixedHead ≠ page.headSeq ∨ (page.hasMore ∧ page.records = []) then .fail .conflict
    else do
      let v ← inspectRecords port onInvalid onUnlinked unlinked v page.records
      if page.hasMore then readPages pages fixedHead v
      else if page.headSeq ≠ v.headSequence then .fail .conflict
      else .ret v

/-- What the first record names for the record before it. -/
def zeroHash : Bytes := List.replicate 32 0

def verifiedLog : Proc C A Failure VerifiedLog :=
  readPages R port onInvalid onUnlinked unlinked 50 none ⟨[], zeroHash⟩

end Reading

/-! ## The adapter of a rotation -/

/-- The constructor throws on other lengths.
mirrors prekey_maintenance_model.dart:155-165 -/
def preparedRotationDeviceLog (expectedSequence : Nat) (previousHeadHash exactRecord : Bytes) :
    Except Failure PreparedRotationDeviceLog :=
  if h : previousHeadHash.length = 32 ∧ exactRecord.length = 256 then
    .ok ⟨expectedSequence, ⟨previousHeadHash, h.1⟩, ⟨exactRecord, h.2⟩⟩
  else .error .thrown

/-- What the adapter reads of the plan: its device, and the bundle its rotation uploaded. -/
structure RotatedBundle where
  deviceId : Uuid
  bundleVersion : Nat
  crossSignature : Bytes

section Rotation

variable {C : Type} {A : C → Type} (R : Repository C A) (port : LogPort)

/-- mirrors :300-304 -/
def identityMatches (own server : UserIdentity) : Bool :=
  own.masterPub = server.masterPub ∧ own.selfSigningPub = server.selfSigningPub ∧
    own.userSigningPub = server.userSigningPub ∧ own.masterSig = server.masterSig

/-- The device that rotated, as the server lists it. mirrors :83-95 -/
def listsRotation (bundle : RotatedBundle) (devices : List PublicDevice) : Bool :=
  match devices.filter (·.deviceId = bundle.deviceId) with
  | [own] => own.isUnsigned = false ∧ own.bundleVersion = some bundle.bundleVersion ∧
      own.crossSignature = some bundle.crossSignature ∧ own.ikPub.length = 64
  | _ => false

/-- A reading that does not link changes nothing here. -/
def verifiedRotationLog : Proc C A Failure VerifiedLog :=
  verifiedLog R port (.ret ()) (.ret ()) .unauthenticatedInput

/-- The hash of an empty log is empty, unlike the coordinator's.
mirrors :254-260 -/
def VerifiedLog.headHash (v : VerifiedLog) : Bytes := if v.records = [] then [] else v.hash

/-- `identity` is the completed identity of the journal, and `today` the clock's day.
mirrors :36-123 -/
def prepareOwnRotation (identity : UserIdentity) (today : Nat) (bundle : RotatedBundle) :
    Proc C A Failure PreparedRotationDeviceLog := do
  let published ← Proc.ofExcept (← R.fetchIdentity)
  Proc.check (0 < published.version ∧ identityMatches identity published) .unauthenticatedInput
  let verified ← verifiedRotationLog R port
  let devices ← Proc.ofExcept (← R.fetchPublicDevices)
  Proc.check (devices.logHeadSequence = verified.headSequence) .conflict
  Proc.check (listsRotation bundle devices.devices) .unauthenticatedInput
  match canonicalLiveSet devices.devices with
  | none => .fail .integrityCheckFailed
  | some canonical => do
    let record ← Proc.ofExcept (port.createDeviceLogRecord verified.records.length verified.headHash
      canonical published.version today)
    Proc.ofExcept (preparedRotationDeviceLog verified.records.length verified.headHash record)

/-- After an append that did not name the expected sequence: the record may be there all the same.
mirrors :173-194 -/
def reconcile (prepared : PreparedRotationDeviceLog) (failure : Failure) : Proc C A Failure Unit := do
  match ← (verifiedRotationLog R port).attempt with
  | .ok after => Proc.check ((after.records[prepared.expectedSequence]?.map (·.1)) =
      some prepared.exactRecord.bytes) failure
  | .error _ => .fail failure

/-- mirrors :126-195 -/
def appendOrReconcile (prepared : PreparedRotationDeviceLog) : Proc C A Failure Unit := do
  let before ← verifiedRotationLog R port
  match before.records[prepared.expectedSequence]? with
  | some existing => Proc.check (existing.1 = prepared.exactRecord.bytes) .conflict
  | none => do
    -- at sequence 0 the stored hash would have to be empty, and it never is
    Proc.check (before.records.length = prepared.expectedSequence ∧
      prepared.expectedSequence ≠ 0 ∧ prepared.previousHeadHash.bytes = before.headHash) .conflict
    match ← R.appendDeviceLog prepared.exactRecord.bytes prepared.expectedSequence with
    | .ok range =>
      if range = (prepared.expectedSequence, prepared.expectedSequence) then .ret ()
      else reconcile R port prepared .conflict
    | .error e => reconcile R port prepared e

end Rotation

end CommPlatform.Devices
