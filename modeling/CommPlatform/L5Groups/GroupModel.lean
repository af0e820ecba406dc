import CommPlatform.Core.Bytes
import CommPlatform.Core.ControlChain
import CommPlatform.Core.Keyed
import CommPlatform.Core.Text
import Mathlib.Data.List.Sort

/-!
# Groups

`group_model.dart`: the roster of a group, who may change it, and the state
machine that applies signed control events to it. An account id is a UUID in
lower case and an id or hash is hexadecimal of a fixed length, so they are
blocks here; a `GroupState` carries what its constructor checks.

Bare line numbers are those of `group_model.dart`.
-/
namespace CommPlatform.Groups

open CommPlatform.Core

abbrev UserId := Block 16
abbrev DeviceId := Block 16
abbrev EventId := Block 16
abbrev GroupId := Block 32
abbrev StateHash := Block 32

inductive GroupRole
  | owner
  | admin
  | member
deriving DecidableEq

inductive GroupMembershipState
  | active
  | removed
  | left
deriving DecidableEq

inductive GroupInvitationPolicy
  | ownerOnly
  | ownerAndAdmins
  | allMembers
deriving DecidableEq

inductive GroupHistorySharingPolicy
  | reshareAvailable
  | newMessagesOnly
deriving DecidableEq

/-- mirrors :14-26 -/
inductive GroupLifecycle
  | active
  | removed
  | left
  | stateRecoveryRequired
  | forkQuarantined
  | controlQuarantined
deriving DecidableEq

inductive GroupQuarantineReason
  | siblingControl
  | staleRevision
  | brokenControlChain
  | malformedControl
  | unauthenticatedControl
  | unauthorizedControl
  | invalidMembership
deriving DecidableEq

inductive GroupPermission
  | viewHistory
  | sendMessages
  | inviteMembers
  | removeMembers
  | editMetadata
  | changeRoles
  | transferOwnership
  | pinMessages
  | leave
deriving DecidableEq

/-! ## Members and states -/

/-- mirrors :50-77 -/
structure GroupMetadata where
  name : String
  description : String
deriving DecidableEq

def GroupMetadata.isValid (m : GroupMetadata) : Bool :=
  (Text.trim m.name).length != 0 && (Text.trim m.name).length ≤ 100 && m.description.length ≤ 1000

def GroupMetadata.normalized (m : GroupMetadata) : GroupMetadata :=
  ⟨Text.trim m.name, Text.trim m.description⟩

/-- mirrors :89-135 -/
structure GroupMember where
  userId : UserId
  displayName : String
  role : GroupRole
  membership : GroupMembershipState
  verified : Bool
deriving DecidableEq

def GroupMember.isActive (m : GroupMember) : Bool := m.membership == .active

def GroupMember.isActiveOwner (m : GroupMember) : Bool := m.isActive && m.role == .owner

/-- The order of the ids as text is the order of their bytes. -/
def sortedMembers (members : List GroupMember) : List GroupMember :=
  members.insertionSort fun a b => a.userId.bytes ≤ b.userId.bytes

theorem sortedMembers_perm (members : List GroupMember) :
    (sortedMembers members).Perm members := List.perm_insertionSort _ _

structure GroupFields where
  groupId : GroupId
  metadata : GroupMetadata
  invitationPolicy : GroupInvitationPolicy
  historySharingPolicy : GroupHistorySharingPolicy
  members : List GroupMember
  controlRevision : Nat
  controlStateHash : StateHash
  lifecycle : GroupLifecycle
  quarantineReason : Option GroupQuarantineReason
deriving DecidableEq

def maximumMembers : Nat := 50

def GroupLifecycle.isQuarantined : GroupLifecycle → Bool
  | .forkQuarantined => true
  | .controlQuarantined => true
  | _ => false

/-- What the constructor of a state asks for. -/
def GroupFields.check (f : GroupFields) : Bool :=
  f.controlRevision ≥ 1 && f.metadata.isValid && f.members.length ≤ maximumMembers &&
    decide (f.members.map (·.userId)).Nodup &&
    (f.members.countP (·.isActiveOwner) == 1 || f.lifecycle == .left) &&
    f.lifecycle.isQuarantined == f.quarantineReason.isSome

/-- mirrors :163-220 -/
structure GroupState extends GroupFields where
  checked : toGroupFields.check = true
deriving DecidableEq

/-- The constructor; it throws where this is `none`. -/
def GroupState.make (f : GroupFields) : Option GroupState :=
  if h : { f with members := sortedMembers f.members }.check = true then some ⟨_, h⟩ else none

namespace GroupFields

def activeMembers (f : GroupFields) : List GroupMember := f.members.filter (·.isActive)

def member (f : GroupFields) (userId : UserId) : Option GroupMember :=
  f.members.find? (·.userId = userId)

end GroupFields

/-! ## Authorization -/

namespace GroupAuthorization

def mayInvite (policy : GroupInvitationPolicy) (role : GroupRole) : Bool :=
  match policy with
  | .ownerOnly => role == .owner
  | .ownerAndAdmins => role != .member
  | .allMembers => true

/-- mirrors :258-282 -/
def activeMemberPermissions (state : GroupFields) (member : GroupMember) : List GroupPermission :=
  [.viewHistory, .sendMessages, .leave] ++
    (if mayInvite state.invitationPolicy member.role then [.inviteMembers] else []) ++
    (if member.role = .admin ∨ member.role = .owner then
      [.removeMembers, .editMetadata, .pinMessages] else []) ++
    (if member.role = .owner then [.changeRoles, .transferOwnership] else [])

/-- mirrors :246-256 -/
def permissionsFor (state : GroupFields) (actor : UserId) : List GroupPermission :=
  match state.member actor with
  | none => []
  | some member =>
    if !member.isActive || state.lifecycle ≠ .active then [.viewHistory]
    else activeMemberPermissions state member

def allows (state : GroupFields) (actor : UserId) (permission : GroupPermission) : Bool :=
  (permissionsFor state actor).contains permission

/-- mirrors :290-303 -/
def allowsControl (state : GroupFields) (actor : UserId) (permission : GroupPermission) : Bool :=
  match state.member actor with
  | none => false
  | some member => member.isActive && (activeMemberPermissions state member).contains permission

/-- `(forControl ? allowsControl : allows)` -/
def admits (forControl : Bool) (state : GroupFields) (actor : UserId)
    (permission : GroupPermission) : Bool :=
  if forControl then allowsControl state actor permission else allows state actor permission

/-- mirrors :305-326 -/
def canAdd (state : GroupFields) (actor : UserId) (targets : List UserId) (forControl : Bool) :
    Bool :=
  if targets.isEmpty || !decide targets.Nodup || !admits forControl state actor .inviteMembers ||
      state.activeMembers.length + targets.length > maximumMembers then false
  else targets.all fun target => !((state.member target).any (·.isActive))

/-- mirrors :328-351 -/
def canRemove (state : GroupFields) (actor target : UserId) (forControl : Bool) : Bool :=
  if actor = target || !admits forControl state actor .removeMembers then false
  else
    match state.member actor, state.member target with
    | some a, some t =>
      if !t.isActive || t.role == .owner then false else a.role == .owner || t.role == .member
    | _, _ => false

/-- mirrors :403-424 -/
def canChangeRole (state : GroupFields) (actor target : UserId) (role : GroupRole)
    (forControl : Bool) : Bool :=
  if role = .owner || actor = target || !admits forControl state actor .changeRoles then false
  else (state.member target).any fun t => t.isActive && t.role != .owner && t.role != role

/-- mirrors :426-442 -/
def canTransferOwnership (state : GroupFields) (actor target : UserId) (forControl : Bool) : Bool :=
  if actor = target || !admits forControl state actor .transferOwnership then false
  else (state.member target).any fun t => t.isActive && t.role != .owner

/-- mirrors :446-460 -/
def canLeave (state : GroupFields) (actor : UserId) (forControl : Bool) : Bool :=
  if !admits forControl state actor .leave then false
  else (state.member actor).any fun a => a.role != .owner || state.activeMembers.length == 1

end GroupAuthorization

/-! ## Control events -/

/-- The operations of a control event. Their constructors sort the members; the order plays no
part, so here they come in any order.
mirrors :490-558 -/
inductive GroupControlOperation
  | create (metadata : GroupMetadata) (invitationPolicy : GroupInvitationPolicy)
      (historySharingPolicy : GroupHistorySharingPolicy) (members : List GroupMember)
  | addMembers (members : List GroupMember)
  | removeMember (target : UserId)
  | changeRole (target : UserId) (role : GroupRole)
  | rename (metadata : GroupMetadata)

def GroupControlOperation.isCreate : GroupControlOperation → Bool
  | .create .. => true
  | _ => false

/-- mirrors :565-606 -/
structure GroupControlEvent where
  eventId : EventId
  groupId : GroupId
  revision : Nat
  previousControlStateHash : Option StateHash
  signerUserId : UserId
  signerDeviceId : DeviceId
  createdMs : Nat
  operation : GroupControlOperation
  revision_pos : 1 ≤ revision
  revision_le : revision ≤ 0xffffffff
  first_iff : revision = 1 ↔ previousControlStateHash = none
  create_iff : revision = 1 ↔ operation.isCreate = true

/-- mirrors :609-645 -/
structure SignedGroupControlEvent where
  event : GroupControlEvent
  controlStateHash : StateHash
  canonicalBytes : Bytes
  signature : Block 64
  canonicalBytes_pos : 0 < canonicalBytes.length
  canonicalBytes_le : canonicalBytes.length ≤ 16384

/-! ## The state machine -/

/-- Replaces the member with this id. The source throws where there is none; it is called only for
members that are there.
mirrors :1243-1251 -/
def replaceMember (userId : UserId) (replace : GroupMember → GroupMember) :
    List GroupMember → List GroupMember :=
  replaceKey (·.userId) userId replace

/-- `_MutableGroupState` -/
structure Mutable where
  metadata : GroupMetadata
  members : List GroupMember
  lifecycle : GroupLifecycle

/-- A member who was here before keeps the name and the verification this device stored. -/
def readded (member current : GroupMember) : GroupMember :=
  { member with
    displayName := if current.displayName.isEmpty then member.displayName else current.displayName
    verified := current.verified || member.verified }

def addToRoster (previous : GroupFields) (members : List GroupMember) (member : GroupMember) :
    List GroupMember :=
  if (previous.member member.userId).isSome then
    replaceMember member.userId (readded member) members
  else members ++ [member]

/-- One turn of the loop over added members.
mirrors :876-894 -/
def addMember (previous : GroupFields) (localUserId : UserId) (mutable : Mutable)
    (member : GroupMember) : Mutable :=
  { mutable with
    members := addToRoster previous mutable.members member
    lifecycle := if member.userId = localUserId then .active else mutable.lifecycle }

open GroupAuthorization in
/-- mirrors :854-968 -/
def applyOperation (localUserId : UserId) (previous : GroupFields) (event : GroupControlEvent) :
    Option Mutable :=
  let mutable : Mutable := ⟨previous.metadata, previous.members, previous.lifecycle⟩
  let actor := event.signerUserId
  match event.operation with
  | .create .. => none
  | .addMembers members =>
    if members.any (fun m => !m.isActive || m.role != .member) ||
        !canAdd previous actor (members.map (·.userId)) true then none
    else some (members.foldl (addMember previous localUserId) mutable)
  | .removeMember target =>
    if target = actor then
      if !canLeave previous actor true then none
      else some { mutable with
        members := replaceMember actor (fun m => { m with membership := .left }) mutable.members
        lifecycle := if actor = localUserId then .left else mutable.lifecycle }
    else
      if !canRemove previous actor target true then none
      else some { mutable with
        members := replaceMember target (fun m => { m with membership := .removed }) mutable.members
        lifecycle := if target = localUserId then .removed else mutable.lifecycle }
  | .changeRole target role =>
    if role = .owner then
      if !canTransferOwnership previous actor target true then none
      else some { mutable with
        members := replaceMember target (fun m => { m with role := .owner })
          (replaceMember actor (fun m => { m with role := .admin }) mutable.members) }
    else
      if !canChangeRole previous actor target role true then none
      else some { mutable with
        members := replaceMember target (fun m => { m with role }) mutable.members }
  | .rename metadata =>
    if !metadata.isValid || !allowsControl previous actor .editMetadata then none
    else some { mutable with metadata := metadata.normalized }

/-- mirrors :802-852 -/
def createGroup (localUserId : UserId) (signed : SignedGroupControlEvent) :
    Except GroupQuarantineReason GroupState :=
  match signed.event.operation with
  | .create metadata invitationPolicy historySharingPolicy members =>
    if !metadata.isValid || members.isEmpty || members.length > maximumMembers ||
        members.any (!·.isActive) then .error .invalidMembership
    else if (members.filter (·.role = .owner)).map (·.userId) ≠ [signed.event.signerUserId] then
      .error .unauthorizedControl
    else okOr (GroupState.make {
      groupId := signed.event.groupId
      metadata := metadata.normalized
      invitationPolicy, historySharingPolicy, members
      controlRevision := 1
      controlStateHash := signed.controlStateHash
      lifecycle := if members.any (·.userId = localUserId) then .active else .removed
      quarantineReason := none }) .invalidMembership
  | _ => .error .invalidMembership

/-- What `apply` does with an event that follows the head.
mirrors :774-799 -/
def extendGroup (localUserId : UserId) (previous : GroupState) (signed : SignedGroupControlEvent) :
    Except GroupQuarantineReason GroupState := do
  let next ← okOr (applyOperation localUserId previous.toGroupFields signed.event)
    GroupQuarantineReason.unauthorizedControl
  okOr (GroupState.make { previous.toGroupFields with
    metadata := next.metadata
    members := next.members
    controlRevision := signed.event.revision
    controlStateHash := signed.controlStateHash
    lifecycle := next.lifecycle
    quarantineReason := none }) .invalidMembership

def GroupState.head (s : GroupState) : Head GroupId StateHash :=
  ⟨s.groupId, s.controlRevision, s.controlStateHash⟩

def SignedGroupControlEvent.link (signed : SignedGroupControlEvent) : Link GroupId StateHash :=
  ⟨signed.event.groupId, signed.event.revision, signed.event.previousControlStateHash,
    signed.controlStateHash⟩

abbrev GroupMachine :=
  ControlMachine GroupId StateHash GroupState SignedGroupControlEvent GroupQuarantineReason

/-- `GroupControlStateMachine`, as a device of `localUserId` runs it.
mirrors :736-800 -/
def stateMachine (localUserId : UserId) : GroupMachine where
  head := GroupState.head
  link := SignedGroupControlEvent.link
  create := createGroup localUserId
  extend := extendGroup localUserId
  brokenChain := .brokenControlChain
  siblingControl := .siblingControl

end CommPlatform.Groups
