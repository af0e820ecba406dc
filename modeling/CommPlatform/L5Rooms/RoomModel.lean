import CommPlatform.Core.Bytes
import CommPlatform.Core.ControlChain
import CommPlatform.Core.Keyed
import CommPlatform.Core.Text
import Mathlib.Data.List.Sort

/-!
# Rooms

`room_model.dart`: the roster of a room and the state machine that applies
signed control events to it. Every active member of a room has the same
authority. Ids and hashes are blocks, as in `GroupModel`; a `RoomState`
carries what its constructor checks.

Bare line numbers are those of `room_model.dart`.
-/
namespace CommPlatform.Rooms

open CommPlatform.Core

abbrev UserId := Block 16
abbrev DeviceId := Block 16
abbrev EventId := Block 16
abbrev RoomId := Block 32
abbrev StateHash := Block 32

inductive RoomMembershipState
  | active
  | removed
  | left
deriving DecidableEq

/-- mirrors :14-21 -/
inductive RoomLifecycle
  | active
  | removed
  | left
  | stateRecoveryRequired
  | forkQuarantined
  | controlQuarantined
deriving DecidableEq

inductive RoomQuarantineReason
  | siblingControl
  | brokenControlChain
  | unauthorizedControl
  | invalidMembership
deriving DecidableEq

/-! ## Members and states -/

/-- mirrors :32-41 -/
def RoomNames.isValid (name : String) : Bool :=
  (Text.trim name).length != 0 && (Text.trim name).length ≤ 100

def RoomNames.normalized (name : String) : String := Text.trim name

/-- mirrors :48-74 -/
structure RoomMember where
  userId : UserId
  membership : RoomMembershipState

def RoomMember.isActive (m : RoomMember) : Bool := m.membership == .active

/-- The order of the ids as text is the order of their bytes. -/
def sortedMembers (members : List RoomMember) : List RoomMember :=
  members.insertionSort fun a b => a.userId.bytes ≤ b.userId.bytes

def sortedUserIds (userIds : List UserId) : List UserId :=
  userIds.insertionSort fun a b => a.bytes ≤ b.bytes

/-- What a room's state says of the room, not of this device. -/
structure RoomRoster where
  roomId : RoomId
  name : String
  members : List RoomMember
  controlRevision : Nat
  controlStateHash : StateHash

structure RoomFields extends RoomRoster where
  lifecycle : RoomLifecycle
  quarantineReason : Option RoomQuarantineReason
  removedByUserId : Option UserId

def maximumMembers : Nat := 50
def minimumCreateMembers : Nat := 2
def maximumRecordedMembers : Nat := 2000
def maximumRevision : Nat := 0xffffffff

def RoomLifecycle.isQuarantined : RoomLifecycle → Bool
  | .forkQuarantined => true
  | .controlQuarantined => true
  | _ => false

def RoomRoster.check (r : RoomRoster) : Bool :=
  r.controlRevision ≥ 1 && r.controlRevision ≤ maximumRevision && RoomNames.isValid r.name &&
    r.members.length ≤ maximumRecordedMembers &&
    (r.members.filter (·.isActive)).length ≤ maximumMembers &&
    decide (r.members.map (·.userId)).Nodup

def RoomFields.check (f : RoomFields) : Bool :=
  f.toRoomRoster.check && f.lifecycle.isQuarantined == f.quarantineReason.isSome

/-- mirrors :109-190 -/
structure RoomState extends RoomFields where
  checked : toRoomFields.check = true

def RoomState.make (f : RoomFields) : Option RoomState :=
  let sorted : RoomFields := { f with members := sortedMembers f.members }
  if h : sorted.check = true then some ⟨sorted, h⟩ else none

namespace RoomRoster

def activeMembers (r : RoomRoster) : List RoomMember := r.members.filter (·.isActive)

def member (r : RoomRoster) (userId : UserId) : Option RoomMember :=
  lookup (·.userId) r.members userId

def isActiveMember (r : RoomRoster) (userId : UserId) : Bool := (r.member userId).any (·.isActive)

end RoomRoster

/-! ## Who may change a room -/

namespace RoomAuthorization

def mayAct (state : RoomFields) (localUserId : UserId) : Bool :=
  state.lifecycle == .active && state.isActiveMember localUserId

def actorMay (state : RoomFields) (actorUserId : UserId) (forControl : Bool) : Bool :=
  if forControl then state.isActiveMember actorUserId else mayAct state actorUserId

/-- mirrors :210-229 -/
def canAdd (state : RoomFields) (actorUserId : UserId) (targetUserIds : List UserId)
    (forControl : Bool) : Bool :=
  if targetUserIds.isEmpty || !decide targetUserIds.Nodup ||
      !actorMay state actorUserId forControl ||
      state.activeMembers.length + targetUserIds.length > maximumMembers then false
  else targetUserIds.all fun target => !state.isActiveMember target

def canRemove (state : RoomFields) (actorUserId targetUserId : UserId) (forControl : Bool) : Bool :=
  actorMay state actorUserId forControl && state.isActiveMember targetUserId

def canRename (state : RoomFields) (actorUserId : UserId) (name : String) (forControl : Bool) :
    Bool :=
  RoomNames.isValid name && actorMay state actorUserId forControl

end RoomAuthorization

/-! ## Control events -/

/-- mirrors :280-328; the constructors sort the ids -/
inductive RoomControlOperation
  | create (name : String) (memberUserIds : List UserId)
  | addMembers (userIds : List UserId)
  | removeMember (targetUserId : UserId)
  | rename (name : String)

def RoomControlOperation.isCreate : RoomControlOperation → Bool
  | .create .. => true
  | _ => false

/-- The ids of an operation, as its constructor leaves them. -/
def RoomControlOperation.sorted : RoomControlOperation → Bool
  | .create _ memberUserIds => memberUserIds == sortedUserIds memberUserIds
  | .addMembers userIds => userIds == sortedUserIds userIds
  | _ => true

/-- mirrors :338-381 -/
structure RoomControlEvent where
  eventId : EventId
  roomId : RoomId
  revision : Nat
  previousControlStateHash : Option StateHash
  signerUserId : UserId
  signerDeviceId : DeviceId
  createdMs : Nat
  operation : RoomControlOperation
  revision_pos : 1 ≤ revision
  revision_le : revision ≤ maximumRevision
  first_iff : revision = 1 ↔ previousControlStateHash = none
  create_iff : revision = 1 ↔ operation.isCreate = true
  sorted : operation.sorted = true

/-- mirrors :384-424 -/
structure SignedRoomControlEvent where
  event : RoomControlEvent
  controlStateHash : StateHash
  canonicalBytes : Bytes
  signature : Block 64
  canonicalBytes_pos : 0 < canonicalBytes.length
  canonicalBytes_le : canonicalBytes.length ≤ 16384

/-! ## The state machine -/

/-- Replaces the member with this id. The source throws where there is none; it is called only for
members that are there.
mirrors :999-1008 -/
def replaceMember (userId : UserId) (membership : RoomMembershipState) :
    List RoomMember → List RoomMember :=
  replaceKey (·.userId) userId fun m => { m with membership }

/-- `_MutableRoomState` -/
structure Mutable where
  name : String
  members : List RoomMember
  lifecycle : RoomLifecycle
  removedByUserId : Option UserId

/-- One turn of the loop over added members.
mirrors :648-663 -/
def addMember (previous : RoomFields) (localUserId : UserId) (mutable : Mutable)
    (userId : UserId) : Mutable :=
  let mutable :=
    if (previous.member userId).isNone then
      { mutable with members := mutable.members ++ [⟨userId, .active⟩] }
    else { mutable with members := replaceMember userId .active mutable.members }
  if userId = localUserId then { mutable with lifecycle := .active, removedByUserId := none }
  else mutable

open RoomAuthorization in
/-- mirrors :629-712 -/
def applyOperation (localUserId : UserId) (previous : RoomFields) (event : RoomControlEvent) :
    Option Mutable :=
  let mutable : Mutable :=
    ⟨previous.name, previous.members, previous.lifecycle, previous.removedByUserId⟩
  let actor := event.signerUserId
  match event.operation with
  | .create .. => none
  | .addMembers userIds =>
    if !canAdd previous actor userIds true then none
    else some (userIds.foldl (addMember previous localUserId) mutable)
  | .removeMember target =>
    if target = actor then
      if !canRemove previous actor actor true then none
      else some { mutable with
        members := replaceMember actor .left mutable.members
        lifecycle := if actor = localUserId then .left else mutable.lifecycle }
    else if !canRemove previous actor target true then none
    else
      let mutable := { mutable with members := replaceMember target .removed mutable.members }
      if target = localUserId then
        some { mutable with lifecycle := .removed, removedByUserId := some actor }
      else some mutable
  | .rename name =>
    if !canRename previous actor name true then none
    else some { mutable with name := RoomNames.normalized name }

/-- mirrors :578-627 -/
def createRoom (localUserId : UserId) (signed : SignedRoomControlEvent) :
    Except RoomQuarantineReason RoomState :=
  match signed.event.operation with
  | .create name memberUserIds =>
    if !RoomNames.isValid name || memberUserIds.length < minimumCreateMembers ||
        memberUserIds.length > maximumMembers || !decide memberUserIds.Nodup then
      .error .invalidMembership
    else if !memberUserIds.contains signed.event.signerUserId then .error .unauthorizedControl
    else okOr (RoomState.make {
      roomId := signed.event.roomId
      name := RoomNames.normalized name
      members := memberUserIds.map fun userId => ⟨userId, .active⟩
      controlRevision := 1
      controlStateHash := signed.controlStateHash
      lifecycle := if memberUserIds.contains localUserId then .active else .removed
      quarantineReason := none
      removedByUserId := none }) .invalidMembership
  | _ => .error .invalidMembership

/-- What `apply` does with an event that follows the head.
mirrors :551-575 -/
def extendRoom (localUserId : UserId) (previous : RoomState) (signed : SignedRoomControlEvent) :
    Except RoomQuarantineReason RoomState := do
  let next ← okOr (applyOperation localUserId previous.toRoomFields signed.event)
    RoomQuarantineReason.unauthorizedControl
  okOr (RoomState.make {
    roomId := previous.roomId
    name := next.name
    members := next.members
    controlRevision := signed.event.revision
    controlStateHash := signed.controlStateHash
    lifecycle := next.lifecycle
    quarantineReason := none
    removedByUserId := next.removedByUserId }) .invalidMembership

def RoomState.head (s : RoomState) : Head RoomId StateHash :=
  ⟨s.roomId, s.controlRevision, s.controlStateHash⟩

def SignedRoomControlEvent.link (signed : SignedRoomControlEvent) : Link RoomId StateHash :=
  ⟨signed.event.roomId, signed.event.revision, signed.event.previousControlStateHash,
    signed.controlStateHash⟩

abbrev RoomMachine :=
  ControlMachine RoomId StateHash RoomState SignedRoomControlEvent RoomQuarantineReason

/-- `RoomControlStateMachine`, as a device of `localUserId` runs it.
mirrors :510-573 -/
def stateMachine (localUserId : UserId) : RoomMachine where
  head := RoomState.head
  link := SignedRoomControlEvent.link
  create := createRoom localUserId
  extend := extendRoom localUserId
  brokenChain := .brokenControlChain
  siblingControl := .siblingControl

end CommPlatform.Rooms
