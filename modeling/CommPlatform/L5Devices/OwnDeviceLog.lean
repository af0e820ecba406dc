import CommPlatform.L5Devices.VerifiedLog

/-!
# Changing the own device set

Model of `OwnDeviceLogCoordinator` and of `LinkedDeviceManager`
(frontend/lib/features/devices/application/own_device_log_coordinator.dart,
linked_device_manager.dart) over the rows `DriftLinkedDeviceRepository` keeps:
the security posture, the pending mutations, the verified log records and the
listing of the own devices.

Every operation is a process that waits at each call of the store or of the
server. A write of the posture is unconditional, and its result is not looked
at. The crypto ports are parameters, because they touch neither.

Bare line numbers are those of `own_device_log_coordinator.dart`.
-/
namespace CommPlatform.Devices

open CommPlatform.Core Server L4

/-! ## Data -/

/-- mirrors linked_device_model.dart:3-27 -/
inductive LinkedDeviceLabelState
  | available | notSet | unreadable
deriving DecidableEq

structure LinkedDevice where
  deviceId : Uuid
  label : Option String
  labelState : LinkedDeviceLabelState
  createdDate : String
  thisDevice : Bool
  encryptedLabel : Option Bytes

inductive OwnDeviceRefresh
  | notModified
  | updated (devices : List LinkedDevice) (etag : String) (logHeadSequence : Option Nat)

inductive DeviceLogMutationKind
  | add | remove | rotate | identity
deriving DecidableEq

inductive DeviceLogMutationState
  | prepared | logAppending | logConfirmed | serverMutationConfirmed
deriving DecidableEq

/-- The parts of the text `_operationId` joins. mirrors :526-527 -/
structure OperationId where
  record : Bytes
  sequence : Nat
  target : Option Uuid
deriving DecidableEq

/-- mirrors linked_device_model.dart:54-87 -/
structure PendingDeviceLogMutation where
  operationId : OperationId
  kind : DeviceLogMutationKind
  targetDeviceId : Option Uuid
  expectedSequence : Nat
  previousHeadHash : Bytes
  exactRecord : Bytes
  state : DeviceLogMutationState

inductive GlobalSecurityState
  | normal | deviceLogFork | pendingDeviceChange
deriving DecidableEq

inductive DeviceLogEvidenceKind
  | rollback | nonExtendingHead | gossipMismatch | invalidRecord | sequenceEquivocation
  | liveSetMismatch
deriving DecidableEq

structure AuthenticatedDeviceLogRecord where
  sequence : Nat
  record : Bytes
  hash : Bytes

/-- mirrors own_live_set_judge.dart:10-22 -/
inductive OwnLiveSetVerdict
  | authenticated | pending | mismatch
deriving DecidableEq

/-! ## Rows -/

/-- The rows of one device. `prepared` is the record of its pending prekey rotation. -/
structure OwnRows where
  posture : GlobalSecurityState
  mutations : List PendingDeviceLogMutation
  logRecords : List AuthenticatedDeviceLogRecord
  devices : List LinkedDevice
  etag : Option String
  prepared : Option PreparedRotationDeviceLog

/-- `insertOnConflictUpdate` by the operation id. -/
def upsertMutation (rows : List PendingDeviceLogMutation) (m : PendingDeviceLogMutation) :
    List PendingDeviceLogMutation :=
  if rows.any (·.operationId = m.operationId) then
    rows.map fun row => if row.operationId = m.operationId then m else row
  else rows ++ [m]

def insertRecord (rows : List AuthenticatedDeviceLogRecord) (record : AuthenticatedDeviceLogRecord) :
    List AuthenticatedDeviceLogRecord :=
  if rows.any (·.sequence = record.sequence) then rows else rows ++ [record]

/-! ## Calls -/

inductive Call
  | readPendingMutation
  | writePendingMutation (mutation : PendingDeviceLogMutation)
  | clearPendingMutation (operationId : OperationId)
  | readLocalIdentity
  | readGlobalSecurityState
  | setGlobalSecurityState (state : GlobalSecurityState) (evidence : Option DeviceLogEvidenceKind)
  | readAuthenticatedLogHead
  | appendAuthenticatedLogRecords (records : List AuthenticatedDeviceLogRecord)
  | readOwnDevices
  | readOwnDevicesEtag
  | replaceOwnDevices (etag : String) (devices : List LinkedDevice)
  | updateEncryptedLabel (deviceId : Uuid) (label : String) (encryptedLabel : Bytes)
  | markMissingHistorySources (liveDeviceIds : List Uuid)
  | cleanupAfterSelfRevocation
  | readPrepared
  | persistPrepared (prepared : PreparedRotationDeviceLog)
  | fetchDeviceLog (after : Option Nat)
  | fetchPublicDevices
  | fetchIdentity
  | appendDeviceLog (record : Bytes) (expected : Nat)
  | fetchOwnDevices (etag : Option String)
  | relabelDevice (deviceId : Uuid) (encryptedLabel : Bytes)
  | revokeDevice (deviceId : Uuid)

/-- The local user and device with whether the identity package is this user's. -/
structure LocalIdentity where
  userId : Uuid
  deviceId : Uuid
  packageUserId : Uuid

def Call.Carried : Call → Type
  | .readPendingMutation => Option PendingDeviceLogMutation
  | .readLocalIdentity => LocalIdentity
  | .readGlobalSecurityState => GlobalSecurityState
  | .readAuthenticatedLogHead => Option AuthenticatedDeviceLogRecord
  | .readOwnDevices => List LinkedDevice
  | .readOwnDevicesEtag => Option String
  | .readPrepared => Option PreparedRotationDeviceLog
  | .fetchDeviceLog _ => LogPage
  | .fetchPublicDevices => PublicDeviceList
  | .fetchIdentity => UserIdentity
  | .appendDeviceLog _ _ => Nat × Nat
  | .fetchOwnDevices _ => OwnDeviceRefresh
  | _ => Unit

abbrev Call.Answer (c : Call) : Type := Except Failure c.Carried

def Call.remote : Call → Bool
  | .fetchDeviceLog _ | .fetchPublicDevices | .fetchIdentity | .appendDeviceLog _ _
  | .fetchOwnDevices _ | .relabelDevice _ _ | .revokeDevice _ => true
  | _ => false

/-- What a local call that succeeds answers and leaves; nothing is left after the cleanup. Several
mutations may be pending, and the one read is the last by a clock.
mirrors drift_linked_device_repository.dart:31-440 -/
def kept (own : LocalIdentity) : (c : Call) → OwnRows → c.Carried → Option OwnRows → Prop
  | .readPendingMutation, s, a, t => t = some s ∧
      ((a = none ∧ s.mutations = []) ∨ ∃ m ∈ s.mutations, a = some m)
  | .writePendingMutation m, s, _, t => t = some { s with mutations := upsertMutation s.mutations m }
  | .clearPendingMutation op, s, _, t =>
    t = some { s with mutations := s.mutations.filter (·.operationId ≠ op) }
  | .readLocalIdentity, s, a, t => a = own ∧ t = some s
  | .readGlobalSecurityState, s, a, t => a = s.posture ∧ t = some s
  | .setGlobalSecurityState state _, s, _, t => t = some { s with posture := state }
  | .readAuthenticatedLogHead, s, a, t => t = some s ∧
      ((a = none ∧ s.logRecords = []) ∨
        ∃ r ∈ s.logRecords, a = some r ∧ ∀ r' ∈ s.logRecords, r'.sequence ≤ r.sequence)
  | .appendAuthenticatedLogRecords records, s, _, t =>
    (∀ record ∈ records, ∀ row ∈ s.logRecords, row.sequence = record.sequence → row = record) ∧
      t = some { s with logRecords := records.foldl insertRecord s.logRecords }
  | .readOwnDevices, s, a, t =>
    a = s.devices.insertionSort (fun d e => d.deviceId.bytes ≤ e.deviceId.bytes) ∧ t = some s
  | .readOwnDevicesEtag, s, a, t => a = s.etag ∧ t = some s
  | .replaceOwnDevices etag devices, s, _, t =>
    t = some { s with devices := devices, etag := some etag }
  | .updateEncryptedLabel id label encryptedLabel, s, _, t => t = some { s with
      devices := s.devices.map fun d => if d.deviceId = id then
        { d with label := some label, encryptedLabel := some encryptedLabel } else d }
  | .cleanupAfterSelfRevocation, _, _, t => t = none
  | .readPrepared, s, a, t => a = s.prepared ∧ t = some s
  | .persistPrepared prepared, s, _, t => t = some { s with prepared := some prepared }
  | _, s, _, t => t = some s

/-- A local call that fails leaves the rows; without rows each of them fails. -/
def storeCalls (own : LocalIdentity) (c : Call) (s : Option OwnRows) (a : c.Answer)
    (t : Option OwnRows) : Prop :=
  match a with
  | .error _ => t = s
  | .ok v => if c.remote then t = s else ∃ rows, s = some rows ∧ kept own c rows v t

def storeAnswer (own : LocalIdentity) : (c : Call) → Option OwnRows → c.Answer × Option OwnRows
  | .readPendingMutation, some r => (.ok r.mutations.head?, some r)
  | .writePendingMutation m, some r =>
    (.ok (), some { r with mutations := upsertMutation r.mutations m })
  | .clearPendingMutation op, some r =>
    (.ok (), some { r with mutations := r.mutations.filter (·.operationId ≠ op) })
  | .readLocalIdentity, some r => (.ok own, some r)
  | .readGlobalSecurityState, some r => (.ok r.posture, some r)
  | .setGlobalSecurityState state _, some r => (.ok (), some { r with posture := state })
  | .readAuthenticatedLogHead, some r =>
    (if r.logRecords = [] then .ok none else .error .storage, some r)
  | .appendAuthenticatedLogRecords records, some r =>
    if r.logRecords = [] then
      (.ok (), some { r with logRecords := records.foldl insertRecord r.logRecords })
    else (.error .storage, some r)
  | _, s => (.error .storage, s)

theorem storeAnswer_calls (own : LocalIdentity) (c : Call) (s : Option OwnRows) :
    storeCalls own c s (storeAnswer own c s).1 (storeAnswer own c s).2 := by
  cases s with
  | none => cases c <;> exact rfl
  | some r =>
    cases c with
    | readPendingMutation =>
      refine ⟨r, rfl, rfl, ?_⟩
      cases hm : r.mutations with
      | nil => exact Or.inl ⟨rfl, rfl⟩
      | cons m ms => exact Or.inr ⟨m, List.mem_cons_self, rfl⟩
    | writePendingMutation | clearPendingMutation | setGlobalSecurityState => exact ⟨r, rfl, rfl⟩
    | readLocalIdentity | readGlobalSecurityState => exact ⟨r, rfl, rfl, rfl⟩
    | readAuthenticatedLogHead =>
      simp only [storeAnswer]
      split
      · next hnil => exact ⟨r, rfl, rfl, Or.inl ⟨rfl, hnil⟩⟩
      · exact rfl
    | appendAuthenticatedLogRecords records =>
      simp only [storeAnswer]
      split
      · next hnil =>
        refine ⟨r, rfl, fun _ _ row hrow => ?_, rfl⟩
        rw [hnil] at hrow
        cases hrow
      · exact rfl
    | _ => exact rfl

abbrev P (α : Type) := Proc Call Call.Answer Failure α

/-- A call whose failure ends the operation. -/
abbrev require (c : Call) : P c.Carried := do
  Proc.ofExcept (← (Proc.call c : P c.Answer))

def repository : Repository Call Call.Answer where
  fetchIdentity := Proc.call Call.fetchIdentity
  fetchDeviceLog after := Proc.call (Call.fetchDeviceLog after)
  fetchPublicDevices := Proc.call Call.fetchPublicDevices
  appendDeviceLog record expected := Proc.call (Call.appendDeviceLog record expected)

def setPosture (state : GlobalSecurityState) (evidence : Option DeviceLogEvidenceKind := none) :
    P Unit := do
  let _ ← (Proc.call (.setGlobalSecurityState state evidence) : P _)

def alarm (evidence : DeviceLogEvidenceKind) : P Unit := setPosture .deviceLogFork (some evidence)

/-! ## The judge of the listed set -/

/-- The ports, the local identity, and the settings of one run. -/
structure Ctx where
  own : LocalIdentity
  userId : Uuid
  log : LogPort
  /-- whether the head record covers the set, as `inspectPeerDeviceLog` says -/
  covers : List PublicDevice → (headRecord : Bytes) → Bool
  openDeviceLabel : (deviceId : Uuid) → (ciphertext : Bytes) → Except Failure String
  sealDeviceLabel : (deviceId : Uuid) → (label : String) → Except Failure Bytes

/-- What a device was before a change no append covers yet.
mirrors own_live_set_judge.dart:107-116 -/
def undo (d : PublicDevice) : List (Option PublicDevice) :=
  none :: if d.crossSignature = none then []
    else [some { d with crossSignature := none, bundleVersion := none }]

/-- Every reading of the list with one device undone, then every reading with two.
mirrors own_live_set_judge.dart:86-103, 118-124 -/
def candidates (devices : List PublicDevice) : List (List PublicDevice) :=
  let places := devices.zipIdx
  let read (undone : List (Nat × Option PublicDevice)) : List PublicDevice :=
    (undone.foldl (fun l u => l.set u.1 u.2) (devices.map some)).reduceOption
  (places.flatMap fun (d, i) => (undo d).map fun u => read [(i, u)]) ++
    places.flatMap fun (d, i) => (places.filter (i < ·.2)).flatMap fun (e, j) =>
      (undo d).flatMap fun u => (undo e).map fun w => read [(i, u), (j, w)]

/-- mirrors own_live_set_judge.dart:49-82 -/
def judge (X : Ctx) (listed : List PublicDevice) (headRecord : Bytes) : OwnLiveSetVerdict :=
  if X.covers listed headRecord then .authenticated
  else if (candidates listed).any (X.covers · headRecord) then .pending
  else .mismatch

/-! ## The coordinator -/

section Coordinator

variable (X : Ctx)

/-- mirrors :310-394 -/
def ownVerifiedLog : P VerifiedLog :=
  verifiedLog repository X.log (alarm .invalidRecord) (alarm .nonExtendingHead) .policyBlocked

/-- The verified chain against the head stored before.
mirrors :403-425 -/
def checkStoredHead (chain : VerifiedLog) : Option AuthenticatedDeviceLogRecord → P Unit
  | none => .ret ()
  | some stored =>
    if chain.records.length ≤ stored.sequence then do
      alarm .rollback
      .fail .policyBlocked
    else if (chain.records[stored.sequence]?.map (·.2)) ≠ some stored.hash then do
      alarm .sequenceEquivocation
      .fail .policyBlocked
    else .ret ()

def VerifiedLog.authenticated (chain : VerifiedLog) : List AuthenticatedDeviceLogRecord :=
  chain.records.zipIdx.map fun ((record, hash), sequence) => ⟨sequence, record, hash⟩

/-- mirrors :396-437 -/
def commitVerifiedChain (chain : VerifiedLog) : P Unit := do
  let stored ← require .readAuthenticatedLogHead
  checkStoredHead chain stored
  match ← (Proc.call (Call.appendAuthenticatedLogRecords chain.authenticated) : P _) with
  | .error e => do
    alarm .sequenceEquivocation
    .fail e
  | .ok _ => .ret ()

/-- mirrors :439-486 -/
def authenticateCurrentLiveSet (chain : VerifiedLog) (current : PublicDeviceList) : P Unit :=
  match chain.records.getLast? with
  | none => do
    alarm .liveSetMismatch
    .fail .policyBlocked
  | some head =>
    if current.logHeadSequence ≠ chain.headSequence then .fail .conflict
    else
      match judge X current.devices head.1 with
      | .authenticated => pure ()
      | .pending => .fail .policyBlocked
      | .mismatch => do
        alarm .liveSetMismatch
        .fail .policyBlocked

/-- mirrors :488-498 -/
def containsExact (sequence : Nat) (exact : Bytes) : P Bool := do
  match ← repository.fetchDeviceLog (if sequence = 0 then none else some (sequence - 1)) with
  | .error _ => pure false
  | .ok page => pure (page.records.any fun record => record.1 = sequence ∧ record.2 = exact)

/-- mirrors :306-307, linked_device_manager.dart:241-244, 292-293 -/
def clearMutation (mutation : PendingDeviceLogMutation) : P Unit := do
  let _ ← (Proc.call (Call.clearPendingMutation mutation.operationId) : P _)
  setPosture .normal

/-- mirrors :297-308 -/
def finishConfirmedMutation (mutation : PendingDeviceLogMutation) : P Unit :=
  if mutation.kind = .remove then do
    let _ ← (Proc.call (Call.writePendingMutation { mutation with state := .logConfirmed }) : P _)
  else clearMutation mutation

/-- The record is looked for where it was meant to be. -/
def checkContainsExact (pending : PendingDeviceLogMutation) (e : Failure) : P Unit := do
  let there ← containsExact pending.expectedSequence pending.exactRecord
  Proc.check there e

/-- mirrors :100-107, 285-294 -/
def confirmMutation (pending : PendingDeviceLogMutation) : P Unit := do
  checkContainsExact pending .conflict
  finishConfirmedMutation pending

/-- The append of a prepared record, and whether it is there after all.
mirrors :89-107 -/
def appendPrepared (pending : PendingDeviceLogMutation) : P Unit := do
  match ← repository.appendDeviceLog pending.exactRecord pending.expectedSequence with
  | .error e => do
    checkContainsExact pending e
    confirmMutation pending
  | .ok _ => confirmMutation pending

/-- mirrors :59-107 -/
def resumeVerified (pending : PendingDeviceLogMutation) (verified : VerifiedLog) : P Unit :=
  match verified.records[pending.expectedSequence]? with
  | some committed =>
    if committed.1 ≠ pending.exactRecord then .fail .conflict
    else finishConfirmedMutation pending
  | none =>
    if verified.records.length ≠ pending.expectedSequence ∨
        verified.hash ≠ pending.previousHeadHash then .fail .conflict
    else appendPrepared pending

/-- mirrors :33-107 -/
def resumePendingMutation : P Unit := do
  let pending ← require .readPendingMutation
  match pending with
  | none => pure ()
  | some (pending : PendingDeviceLogMutation) =>
    if pending.state = .logConfirmed then pure ()
    else do
      let _ ← require .readLocalIdentity
      let verified ← ownVerifiedLog X
      resumeVerified pending verified

/-- mirrors :111-136 -/
def verifyCurrentChain : P (Option (Nat × Bytes)) := do
  let own ← require .readLocalIdentity
  Proc.check (own.packageUserId = X.userId) .policyBlocked
  let verified ← ownVerifiedLog X
  commitVerifiedChain verified
  return verified.records.getLast?.map fun record => (verified.records.length - 1, record.1)

/-- After an append that failed: the record is there, or another device was first and the mutation is
made anew, or the failure stands. mirrors :249-277 -/
def retryMutation (retry : Option (List PublicDevice → P Unit)) (prepared : PendingDeviceLogMutation)
    (e : Failure) : P Unit :=
  match retry, prepared.targetDeviceId with
  | some retry, some _ => do
    match ← repository.fetchPublicDevices with
    | .ok latest =>
      if latest.logHeadSequence.any (prepared.expectedSequence ≤ ·) then do
        clearMutation prepared
        retry latest.devices
      else .fail e
    | .error _ => .fail e
  | _, _ => .fail e

/-- What is left to do once the record is made. mirrors :243-295 -/
def appendCreated (retry : Option (List PublicDevice → P Unit))
    (prepared : PendingDeviceLogMutation) : P Unit := do
  let _ ← require (.writePendingMutation prepared)
  setPosture .pendingDeviceChange
  match ← repository.appendDeviceLog prepared.exactRecord prepared.expectedSequence with
  | .error e => do
    let reconciled ← containsExact prepared.expectedSequence prepared.exactRecord
    if reconciled then finishConfirmedMutation prepared else retryMutation retry prepared e
  | .ok range =>
    if range ≠ (prepared.expectedSequence, prepared.expectedSequence) then do
      checkContainsExact prepared .conflict
      confirmMutation prepared
    else confirmMutation prepared

/-- The set after the mutation. A removal takes the set that was just read, without its target.
mirrors :198-209 -/
def desiredSet (kind : DeviceLogMutationKind) (target : Option Uuid)
    (liveDevices current : List PublicDevice) : Option (List PublicDevice) :=
  if kind = .remove then
    let desired := current.filter fun d => some d.deviceId ≠ target
    if target = none ∨ desired.length + 1 ≠ current.length then none else some desired
  else some liveDevices

/-- The record of the mutation. mirrors :210-242 -/
def createMutation (kind : DeviceLogMutationKind) (target : Option Uuid)
    (identityVersion today : Nat) (chain : VerifiedLog) (desired : List PublicDevice) :
    Except Failure PendingDeviceLogMutation :=
  match canonicalLiveSet desired with
  | none => .error .unauthenticatedInput
  | some canonical => do
    let exact ← X.log.createDeviceLogRecord chain.records.length chain.hash canonical identityVersion
      today
    return ⟨⟨exact, chain.records.length, target⟩, kind, target, chain.records.length, chain.hash,
      exact, .prepared⟩

/-- From the checked posture on. mirrors :162-295 -/
def mutateLiveSet (retry : Option (List PublicDevice → P Unit)) (kind : DeviceLogMutationKind)
    (target : Option Uuid) (identityVersion today : Nat) (liveDevices : List PublicDevice) :
    P Unit := do
  let own ← require .readLocalIdentity
  Proc.check (own.packageUserId = X.userId) .policyBlocked
  let chain ← ownVerifiedLog X
  commitVerifiedChain chain
  let current ← require .fetchPublicDevices
  authenticateCurrentLiveSet X chain current
  match desiredSet kind target liveDevices current.devices with
  | none => .fail .conflict
  | some desired => do
    let prepared ← Proc.ofExcept (createMutation X kind target identityVersion today chain desired)
    appendCreated retry prepared

/-- A posture that could not be read does not stop the operation.
mirrors :154-161, linked_device_manager.dart:148-155, 196-203 -/
def checkPosture : P Unit := do
  match ← (Proc.call Call.readGlobalSecurityState : P _) with
  | .ok (state : GlobalSecurityState) => Proc.check (state = .normal) .policyBlocked
  | .error _ => .ret ()

/-- mirrors :145-153 -/
def checkNonePending : P Unit := do
  match ← require .readPendingMutation with
  | none => .ret ()
  | some (_ : PendingDeviceLogMutation) => .fail .conflict

/-- `retries` is what is left of the two. mirrors :138-295 -/
def appendLiveSetMutation (kind : DeviceLogMutationKind) (target : Option Uuid)
    (identityVersion today : Nat) : (retries : Nat) → (liveDevices : List PublicDevice) → P Unit
  | 0, liveDevices => do
    checkNonePending
    checkPosture
    mutateLiveSet X none kind target identityVersion today liveDevices
  | retries + 1, liveDevices => do
    checkNonePending
    checkPosture
    mutateLiveSet X (some (appendLiveSetMutation kind target identityVersion today retries)) kind
      target identityVersion today liveDevices

end Coordinator

/-! ## The manager -/

section Manager

variable (X : Ctx)

/-- mirrors linked_device_manager.dart:327-377 -/
def verifyPublicList (list : PublicDeviceList) : P Unit := do
  let chainHead ← verifyCurrentChain X
  Proc.check (list.logHeadSequence = chainHead.map (·.1)) .conflict
  match chainHead with
  | none => .fail .policyBlocked
  | some (_, record) =>
    match judge X list.devices record with
    | .authenticated => .ret ()
    | .pending => .fail .policyBlocked
    | .mismatch => do
      alarm .liveSetMismatch
      .fail .policyBlocked

/-- mirrors linked_device_manager.dart:306-312 -/
def sameIds (list : List PublicDevice) (rows : List LinkedDevice) : Bool :=
  let expected := (list.map (·.deviceId)).dedup
  let actual := (rows.map (·.deviceId)).dedup
  expected.length = actual.length ∧ ∀ id ∈ actual, id ∈ expected

/-- The rows list the devices the public list does. mirrors linked_device_manager.dart:300-325 -/
def authenticateOwnSet (rows : List LinkedDevice) : P Unit := do
  let list ← require .fetchPublicDevices
  Proc.check (sameIds list.devices rows) .conflict
  let own ← require .readLocalIdentity
  Proc.check (own.userId = X.userId) .policyBlocked
  verifyPublicList X list

/-- mirrors linked_device_manager.dart:379-400 -/
def cleanupIfRemotelyRevoked : P Bool := do
  let own ← require .readLocalIdentity
  let list ← require .fetchPublicDevices
  if own.deviceId ∈ list.devices.map (·.deviceId) then return false
  else do
    verifyPublicList X list
    let _ ← (Proc.call Call.cleanupAfterSelfRevocation : P _)
    return true

/-- What `_finishPendingRemovalIfNeeded` does when the revocation fails: the target is no longer
listed all the same, or the removal stays pending. mirrors linked_device_manager.dart:274-291 -/
def confirmRevoked (target : Uuid) : P Unit := do
  match ← (Proc.call (Call.fetchOwnDevices none) : P _) with
  | .ok (.updated devices _ _) =>
    if target ∈ devices.map (·.deviceId) then .fail .conflict
    else authenticateOwnSet X devices
  | _ => .fail .conflict

/-- A device that removed itself ends. mirrors linked_device_manager.dart:245-251, 294-296 -/
def cleanupIfOwn (removed : Uuid) (current : Option Uuid) : P Unit :=
  if current = some removed then do
    let _ ← (Proc.call Call.cleanupAfterSelfRevocation : P _)
  else .ret ()

def ownDeviceId : P (Option Uuid) := do
  match ← (Proc.call Call.readLocalIdentity : P _) with
  | .ok (own : LocalIdentity) => return some own.deviceId
  | .error _ => return none

/-- mirrors linked_device_manager.dart:255-298 -/
def finishPendingRemovalIfNeeded : P Unit := do
  match ← require .readPendingMutation with
  | none => .ret ()
  | some (pending : PendingDeviceLogMutation) =>
    match pending.targetDeviceId with
    | none => .ret ()
    | some target =>
      if pending.kind ≠ .remove ∨ pending.state ≠ .logConfirmed then .ret ()
      else do
        let current ← ownDeviceId
        match ← (Proc.call (Call.revokeDevice target) : P _) with
        | .ok _ => do
          clearMutation pending
          cleanupIfOwn target current
        | .error _ => do
          confirmRevoked X target
          clearMutation pending
          cleanupIfOwn target current

/-- A label that does not open leaves the row as it was listed.
mirrors linked_device_manager.dart:98-126 -/
def openLabel (d : LinkedDevice) : LinkedDevice :=
  match d.encryptedLabel with
  | none => d
  | some encrypted =>
    match X.openDeviceLabel d.deviceId encrypted with
    | .ok text => { d with label := some text, labelState := .available }
    | .error _ => d

/-- From the listing on. mirrors linked_device_manager.dart:78-142 -/
def storeListing (devices : List LinkedDevice) (etag : String) : P (List LinkedDevice) := do
  authenticateOwnSet X devices
  match ← ownDeviceId with
  | none => .fail .policyBlocked
  | some deviceId =>
    if deviceId ∉ devices.map (·.deviceId) then do
      let _ ← (Proc.call Call.cleanupAfterSelfRevocation : P _)
      .fail .policyBlocked
    else do
      let opened := devices.map (openLabel X)
      let _ ← require (.replaceOwnDevices etag opened)
      let _ ← require (.markMissingHistorySources (opened.map (·.deviceId)))
      return opened

/-- mirrors linked_device_manager.dart:43-142 -/
def refresh : P (List LinkedDevice) := do
  resumePendingMutation X
  finishPendingRemovalIfNeeded X
  let etag ← require .readOwnDevicesEtag
  match ← (Proc.call (Call.fetchOwnDevices etag) : P _) with
  | .error e => do
    match ← (cleanupIfRemotelyRevoked X).attempt with
    | .ok true => .fail .policyBlocked
    | _ => .fail e
  | .ok .notModified => require .readOwnDevices
  | .ok (.updated devices etag _) => storeListing X devices etag

/-- mirrors linked_device_manager.dart:144-193 -/
def relabel (deviceId : Uuid) (label : String) : P Unit := do
  checkPosture
  let _ ← require .readLocalIdentity
  let ciphertext ← Proc.ofExcept (X.sealDeviceLabel deviceId label)
  let _ ← require (.relabelDevice deviceId ciphertext)
  let _ ← require (.updateEncryptedLabel deviceId label ciphertext)

/-- mirrors linked_device_manager.dart:236-253 -/
def settleRevocation (deviceId : Uuid) : P Unit := do
  match ← (Proc.call Call.readPendingMutation : P _) with
  | .ok (some (mutation : PendingDeviceLogMutation)) => do
    clearMutation mutation
    cleanupIfOwn deviceId (← ownDeviceId)
  | _ => do cleanupIfOwn deviceId (← ownDeviceId)

/-- mirrors linked_device_manager.dart:195-253 -/
def revoke (today : Nat) (deviceId : Uuid) : P Unit := do
  checkPosture
  let list ← require .fetchPublicDevices
  match list.devices.filter (·.deviceId = deviceId) with
  | [target] =>
    if target.isUnsigned then .fail .policyBlocked
    else do
      appendLiveSetMutation X .remove (some deviceId) 1 today 2
        (list.devices.filter (·.deviceId ≠ deviceId))
      let _ ← require (.revokeDevice deviceId)
      settleRevocation deviceId
  | _ => .fail .policyBlocked

end Manager

end CommPlatform.Devices
