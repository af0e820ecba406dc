import CommPlatform.L5Groups.GroupModel

/-!
# Inbound group payloads

`group_inbound_coordinator.dart` with the part of
`drift_group_repository.dart` that it reads and that commits what it
prepared. A payload is prepared against one snapshot of the store; framing
it and opening the pairwise envelope come before (`GroupSyncPayloadCodec`
and the pairwise session). The native core that opens a control event and
the authenticated device lists are `Ports`.

Of the chat list the store keeps which ids a conversation of another kind
has, since a group is not committed under such an id. Left out: the rest of
the entry, the outbound queue and the table of open state requests; nothing
here reads them.

Bare line numbers are those of `group_inbound_coordinator.dart`.
-/
namespace CommPlatform.Groups

open CommPlatform.Core

/-- The failures `prepare` returns; `port` stands for one of a port. -/
inductive Failure
  | unauthenticatedInput
  | integrityCheckFailed
  | port (code : Nat)

/-! ## Stored and framed events -/

/-- mirrors group_model.dart:650-688 -/
structure StoredGroupControl where
  eventId : EventId
  revision : Nat
  previousControlStateHash : Option StateHash
  controlStateHash : StateHash
  signerUserId : UserId
  signerDeviceId : DeviceId
  canonicalBytes : Bytes
  signature : Block 64
deriving DecidableEq

def SignedGroupControlEvent.stored (signed : SignedGroupControlEvent) : StoredGroupControl where
  eventId := signed.event.eventId
  revision := signed.event.revision
  previousControlStateHash := signed.event.previousControlStateHash
  controlStateHash := signed.controlStateHash
  signerUserId := signed.event.signerUserId
  signerDeviceId := signed.event.signerDeviceId
  canonicalBytes := signed.canonicalBytes
  signature := signed.signature

/-- mirrors group_sync_payload.dart:42-82 -/
structure GroupSignedControlBytes where
  signerUserId : UserId
  signerDeviceId : DeviceId
  canonicalBytes : Bytes
  signature : Block 64

def GroupSignedControlBytes.fromStored (stored : StoredGroupControl) : GroupSignedControlBytes :=
  ⟨stored.signerUserId, stored.signerDeviceId, stored.canonicalBytes, stored.signature⟩

/-- The state a request or a transcript refers to; revision zero has no hash. -/
structure StateReference where
  groupId : GroupId
  revision : Nat
  hash : Option StateHash
  revision_le : revision ≤ 0xffffffff
  zero_iff : revision = 0 ↔ hash = none

/-- What a device that holds no state of the group asks from. -/
def StateReference.start (groupId : GroupId) : StateReference :=
  ⟨groupId, 0, none, by decide, by decide⟩

/-- mirrors group_sync_payload.dart:115-133 -/
structure GroupTranscriptPayload where
  base : StateReference
  entries : List GroupSignedControlBytes

def GroupTranscriptPayload.encodedLength (t : GroupTranscriptPayload) : Nat :=
  79 + (t.entries.map fun e => 100 + e.canonicalBytes.length).sum

/-- The constructor and `encode` refuse a transcript that is too long. -/
def GroupTranscriptPayload.fits (t : GroupTranscriptPayload) : Bool :=
  t.entries.length ≤ 0xffff && t.encodedLength ≤ 200000

/-- mirrors group_sync_payload.dart:84-133 -/
inductive GroupSyncPayload
  | control (control : GroupSignedControlBytes)
  | stateRequest (have_ : StateReference)
  | transcript (transcript : GroupTranscriptPayload)

/-! ## The store -/

/-- `group_states` and `group_control_events`, the rows in the order of their insertion, and the ids
that `conversations` has for another kind than a group. -/
structure GroupStore where
  states : GroupId → Option GroupState
  controls : List (GroupId × StoredGroupControl)
  foreign : GroupId → Bool

namespace GroupStore

def empty : GroupStore := ⟨fun _ => none, [], fun _ => false⟩

/-- A conversation of another kind begins, unless the id is that of a group. -/
def converse (store : GroupStore) (id : GroupId) : GroupStore :=
  if (store.states id).isSome then store
  else { store with foreign := Function.update store.foreign id true }

def recorded (store : GroupStore) (groupId : GroupId) : List StoredGroupControl :=
  (store.controls.filter (·.1 = groupId)).map (·.2)

def rows (store : GroupStore) (groupId : GroupId) : List StoredGroupControl :=
  (store.recorded groupId).insertionSort fun a b => a.revision ≤ b.revision

/-- Whether the rows continue the chain, each the one before it. -/
def chained (afterRevision : Nat) : Option StoredGroupControl → List StoredGroupControl → Bool
  | _, [] => true
  | previous, entry :: rest =>
    entry.revision == (previous.map (·.revision)).getD afterRevision + 1 &&
      (match previous with
        | none => true
        | some p => entry.previousControlStateHash == some p.controlStateHash) &&
      chained afterRevision (some entry) rest

/-- mirrors drift_group_repository.dart:149-203 -/
def readTranscript (store : GroupStore) (groupId : GroupId) (afterRevision : Nat) :
    Except Failure (List StoredGroupControl) :=
  let rows := (store.rows groupId).filter (·.revision > afterRevision)
  if chained afterRevision none rows then .ok rows else .error .integrityCheckFailed

end GroupStore

/-! ## Ports -/

structure LiveDevice where
  userId : UserId
  deviceId : DeviceId
  signingPublic : Block 32

structure Ports where
  resolveAuthenticatedLiveDevices : UserId → Except Failure (List LiveDevice)
  openControl : GroupSignedControlBytes → Block 32 → Except Failure SignedGroupControlEvent

structure Sender where
  userId : UserId
  deviceId : DeviceId
deriving DecidableEq

/-- mirrors :471-507; the
device lists are looked up once for each signer there -/
def Ports.openEntry (ports : Ports) (control : GroupSignedControlBytes) :
    Except Failure SignedGroupControlEvent := do
  let devices ← ports.resolveAuthenticatedLiveDevices control.signerUserId
  match devices.filter fun d =>
      d.userId = control.signerUserId && d.deviceId = control.signerDeviceId with
  | [device] => ports.openControl control device.signingPublic
  | _ => .error .unauthenticatedInput

/-! ## What is prepared -/

/-- mirrors group_model.dart:1212-1224; the time of receipt is
left out -/
structure GroupQuarantineRecord where
  groupId : GroupId
  reason : GroupQuarantineReason
  opaqueDigest : StateHash

/-- mirrors group_model.dart:1093-1184 -/
inductive PreparedGroupInboxCommit
  | transition (expectedPrevious : Option GroupState) (next : GroupState)
      (controls : List SignedGroupControlEvent) (completesStateRequest : Bool)
  | quarantine (record : GroupQuarantineRecord) (retainLifecycle completesStateRequest : Bool)
  | stateRequest (groupId : GroupId) (peerUserId : UserId)
  | outbound (payload : GroupTranscriptPayload) (recipient : Sender)
  | stateCurrent (groupId : GroupId) (controlRevision : Nat) (controlStateHash : StateHash)

/-- mirrors :10-33 -/
inductive GroupInboundPreparation
  | change (commit : PreparedGroupInboxCommit)
  | noChange

def isQuarantined (state : GroupState) : Bool := state.lifecycle.isQuarantined

/-! ## The coordinator -/

section Coordinator

variable (ports : Ports) (localUserId : UserId) (store : GroupStore)

/-- mirrors :167-201 -/
def prepareStale (signed : SignedGroupControlEvent) : Except Failure GroupInboundPreparation := do
  let held ← store.readTranscript signed.event.groupId (signed.event.revision - 1)
  if held.head?.any fun first =>
      first.revision = signed.event.revision && first.controlStateHash = signed.controlStateHash then
    return .noChange
  return .change (.quarantine ⟨signed.event.groupId, .siblingControl, signed.controlStateHash⟩
    false false)

/-- mirrors :85-165 -/
def prepareControl (sender : Sender) (control : GroupSignedControlBytes) :
    Except Failure GroupInboundPreparation := do
  failIf (control.signerUserId ≠ sender.userId ∨ control.signerDeviceId ≠ sender.deviceId)
    .unauthenticatedInput
  let signed ← ports.openEntry control
  let stored := store.states signed.event.groupId
  if stored.any isQuarantined then return .noChange
  match (stateMachine localUserId).apply stored signed with
  | .accepted state =>
    if stored.isNone && !(state.member localUserId).any (·.isActive) then return .noChange
    return .change (.transition stored state [signed] false)
  | .duplicate _ => return .noChange
  | .stale _ => prepareStale store signed
  | .ahead _ => return .change (.stateRequest signed.event.groupId sender.userId)
  | .quarantined state reason =>
    return .change (.quarantine ⟨signed.event.groupId, reason, signed.controlStateHash⟩
      (state.isNone || reason != .siblingControl) false)

/-- What an answer is based on: the state of the request if this device passed through it. -/
def baseReference (request : StateReference) (transcript : List StoredGroupControl) :
    StateReference :=
  if request.revision = 0 ∨
      (transcript[request.revision - 1]?).map (·.controlStateHash) = request.hash then request
  else .start request.groupId

/-- mirrors :203-277 -/
def prepareStateRequest (sender : Sender) (request : StateReference) :
    Except Failure GroupInboundPreparation := do
  match store.states request.groupId with
  | none => return .noChange
  | some stored =>
    if isQuarantined stored || !(stored.member sender.userId).any (·.isActive) ||
        !(stored.member localUserId).any (·.isActive) ||
        request.revision > stored.controlRevision then return .noChange
    let transcript ← store.readTranscript request.groupId 0
    failIf (transcript.length ≠ stored.controlRevision ∨
      transcript.getLast?.map (·.controlStateHash) ≠ some stored.controlStateHash)
      .integrityCheckFailed
    let base := baseReference request transcript
    let payload : GroupTranscriptPayload :=
      ⟨base, (transcript.drop base.revision).map GroupSignedControlBytes.fromStored⟩
    if payload.fits then return .change (.outbound payload sender) else return .noChange

/-- Whether the entries are a chain from the base.
mirrors :294-306 -/
def followsBase (groupId : GroupId) : Nat → Option StateHash → List SignedGroupControlEvent → Bool
  | _, _, [] => true
  | revision, hash, control :: rest =>
    control.event.groupId == groupId && control.event.revision == revision + 1 &&
      control.event.previousControlStateHash == hash &&
      followsBase groupId control.event.revision (some control.controlStateHash) rest

/-- The fold over a suffix, or the first event that is not accepted with its verdict.
mirrors :381-403 -/
def applyAll : Option GroupState → List SignedGroupControlEvent →
    Except (SignedGroupControlEvent × Applied GroupState GroupQuarantineReason) (Option GroupState)
  | state, [] => .ok state
  | state, control :: rest =>
    match (stateMachine localUserId).apply state control with
    | .accepted next => applyAll (some next) rest
    | applied => .error (control, applied)

/-- mirrors :420-469 -/
def bootstrap (transcript : GroupTranscriptPayload) (controls : List SignedGroupControlEvent) :
    GroupInboundPreparation :=
  if transcript.base.revision ≠ 0 || controls.isEmpty then .noChange
  else
    match applyAll localUserId none controls with
    | .error (control, .quarantined _ reason) =>
      .change (.quarantine ⟨transcript.base.groupId, reason, control.controlStateHash⟩ true false)
    | .error _ | .ok none => .noChange
    | .ok (some next) =>
      if !(next.member localUserId).any (·.isActive) then .noChange
      else .change (.transition none next controls true)

def heldHash (held : List StoredGroupControl) (revision : Nat) : Option StateHash :=
  (held.find? (·.revision = revision)).map (·.controlStateHash)

/-- mirrors :335-342 -/
def forked (stored : GroupState) (held : List StoredGroupControl)
    (transcript : GroupTranscriptPayload) (controls : List SignedGroupControlEvent) : Bool :=
  (transcript.base.revision > 0 && heldHash held transcript.base.revision != transcript.base.hash) ||
    controls.any fun control => control.event.revision ≤ stored.controlRevision &&
      heldHash held control.event.revision != some control.controlStateHash

/-- What is done with a transcript of a group this device holds.
mirrors :315-418 -/
def prepareHeld (stored : GroupState) (transcript : GroupTranscriptPayload)
    (controls : List SignedGroupControlEvent) : Except Failure GroupInboundPreparation := do
  if isQuarantined stored || transcript.base.revision > stored.controlRevision then
    return .noChange
  let held ← store.readTranscript transcript.base.groupId (transcript.base.revision - 1)
  if forked stored held transcript controls then
    return .change (.quarantine ⟨transcript.base.groupId, .siblingControl,
      (controls.head?.map (·.controlStateHash)).getD stored.controlStateHash⟩ false true)
  let suffix := controls.filter (·.event.revision > stored.controlRevision)
  if suffix.isEmpty then
    return .change (.stateCurrent transcript.base.groupId stored.controlRevision
      stored.controlStateHash)
  match applyAll localUserId (some stored) suffix with
  | .error (control, applied) =>
    let reason := match applied with
      | .quarantined _ reason => reason
      | _ => .brokenControlChain
    return .change (.quarantine ⟨transcript.base.groupId, reason, control.controlStateHash⟩
      true false)
  | .ok none => return .noChange
  | .ok (some next) => return .change (.transition (some stored) next suffix true)

/-- mirrors :279-314 -/
def prepareTranscript (transcript : GroupTranscriptPayload) :
    Except Failure GroupInboundPreparation := do
  let controls ← transcript.entries.mapM ports.openEntry
  failIf (!followsBase transcript.base.groupId transcript.base.revision transcript.base.hash controls)
    .integrityCheckFailed
  match store.states transcript.base.groupId with
  | none => return bootstrap localUserId transcript controls
  | some stored => prepareHeld localUserId store stored transcript controls

/-- mirrors :60-83 -/
def prepare (sender : Sender) : GroupSyncPayload → Except Failure GroupInboundPreparation
  | .control control => prepareControl ports localUserId store sender control
  | .stateRequest request => prepareStateRequest localUserId store sender request
  | .transcript transcript => prepareTranscript ports localUserId store transcript

end Coordinator

/-! ## Committing -/

inductive CommitFailure
  | integrity
  | conflict
  | constraint
deriving DecidableEq

namespace GroupStore

def setState (store : GroupStore) (groupId : GroupId) (state : GroupState) : GroupStore :=
  { store with states := Function.update store.states groupId (some state) }

/-- An event id is stored once, whatever its group, and so is a revision of a group.
mirrors local_database.dart:362-368 -/
def insertControls (groupId : GroupId) : List SignedGroupControlEvent →
    List (GroupId × StoredGroupControl) →
      Except CommitFailure (List (GroupId × StoredGroupControl))
  | [], rows => .ok rows
  | control :: rest, rows =>
    if rows.any fun row => row.2.eventId = control.event.eventId ||
        (row.1 = groupId && row.2.revision = control.event.revision) then .error .constraint
    else insertControls groupId rest (rows ++ [(groupId, control.stored)])

/-- Whether a run of events starts where the expected state ends. -/
def startsAfter (first : GroupControlEvent) (next : GroupState) : Option GroupState → Bool
  | none => first.revision == 1
  | some previous => previous.groupId == next.groupId &&
      first.revision == previous.controlRevision + 1 &&
      first.previousControlStateHash == some previous.controlStateHash

/-- mirrors drift_group_repository.dart:223-338, 373-409 -/
def commitTransition (store : GroupStore) (expectedPrevious : Option GroupState)
    (next : GroupState) (controls : List SignedGroupControlEvent) :
    Except CommitFailure GroupStore := do
  let first ← okOr controls.head? CommitFailure.integrity
  let last ← okOr controls.getLast? CommitFailure.integrity
  failIf (last.event.groupId ≠ next.groupId ∨ last.event.revision ≠ next.controlRevision ∨
    last.controlStateHash ≠ next.controlStateHash ∨
    startsAfter first.event next expectedPrevious = false) .integrity
  match expectedPrevious, store.states next.groupId with
  | none, some _ => throw .conflict
  | none, none => pure ()
  | some _, none => throw .conflict
  | some previous, some current =>
    failIf (current.controlRevision ≠ previous.controlRevision ∨
      current.controlStateHash ≠ previous.controlStateHash) .conflict
  -- the row of the chat list is written in the same transaction
  failIf (store.foreign next.groupId) CommitFailure.integrity
  let rows ← insertControls next.groupId controls store.controls
  return { store.setState next.groupId next with controls := rows }

/-- mirrors drift_group_repository.dart:413-452 -/
def commitQuarantine (store : GroupStore) (record : GroupQuarantineRecord)
    (retainLifecycle : Bool) : Except CommitFailure GroupStore :=
  if retainLifecycle then .ok store
  else do
    let state ← okOr (store.states record.groupId) CommitFailure.integrity
    let lifecycle :=
      if record.reason = .siblingControl then GroupLifecycle.forkQuarantined
      else .controlQuarantined
    let quarantined ← okOr (GroupState.make { state.toGroupFields with
      lifecycle, quarantineReason := some record.reason }) CommitFailure.integrity
    return store.setState record.groupId quarantined

/-- mirrors drift_sync_store.dart:789-832 -/
def commit (store : GroupStore) : PreparedGroupInboxCommit → Except CommitFailure GroupStore
  | .transition expectedPrevious next controls _ =>
    store.commitTransition expectedPrevious next controls
  | .quarantine record retainLifecycle _ => store.commitQuarantine record retainLifecycle
  | _ => .ok store

/-- What a payload leaves in the store: a failure to prepare or to commit changes nothing. -/
def receive (ports : Ports) (localUserId : UserId) (store : GroupStore) (sender : Sender)
    (payload : GroupSyncPayload) : GroupStore :=
  match prepare ports localUserId store sender payload with
  | .ok (.change commit) =>
    match store.commit commit with
    | .ok store' => store'
    | .error _ => store
  | _ => store

/-- What the device's own change leaves in the store; a change to a group is made only while the
group is active here.
mirrors group_use_cases.dart:142-160, 551-625 -/
def signApplyAndCommit (localUserId : UserId) (store : GroupStore)
    (signed : SignedGroupControlEvent) : GroupStore :=
  let current := store.states signed.event.groupId
  if current.any (·.lifecycle ≠ .active) then store
  else
    match (stateMachine localUserId).apply current signed with
    | .accepted next =>
      match store.commitTransition current next [signed] with
      | .ok store' => store'
      | .error _ => store
    | _ => store

end GroupStore

end CommPlatform.Groups
