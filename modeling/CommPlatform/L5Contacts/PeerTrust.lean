import Mathlib.Data.List.Sort
import CommPlatform.Core.Bytes
import CommPlatform.Core.Process

/-!
# Authenticating a peer

Model of `ClientAuthenticationService`
(frontend/lib/features/contacts/application/client_authentication_service.dart)
for one peer, over the rows `DriftContactRepository` keeps for it: the trust
record, the device list and the verified records of the device log.

Every call of the service is a process: it reads the trust record first,
waits for several answers of the server, and writes the whole record last.
Its calls are the awaits that reach the server or the store; the crypto port
is a parameter, because its awaits touch neither.

The log is read page by page until the server says there is no more. `pages`
bounds the pages one process reads: a run of the loop is a run for some bound.

Bare line numbers are those of `client_authentication_service.dart`.
-/
namespace CommPlatform.Contacts

open CommPlatform.Core

/-! ## Data -/

/-- mirrors identity_protocol_model.dart:4-25 -/
structure PeerIdentityPublic where
  masterPublic : Bytes
  selfSigningPublic : Bytes
  userSigningPublic : Bytes
  masterSignature : Bytes
  version : Nat
deriving DecidableEq

/-- mirrors identity_protocol_model.dart:86-110 -/
structure PeerPublicDevice where
  deviceId : Uuid
  identityPublic : Bytes
  registrationId : Nat
  crossSignature : Option Bytes
  bundleVersion : Option Nat
deriving DecidableEq

def PeerPublicDevice.isUnsigned (d : PeerPublicDevice) : Bool := d.crossSignature.isNone

/-- mirrors identity_protocol_model.dart:27-84 -/
structure ClaimedPrekeyBundle where
  deviceId : Uuid
  registrationId : Nat
  identityPublic : Bytes
  signedPrekey : Nat × Bytes × Bytes
  crossSignature : Bytes
  bundleVersion : Nat
  pqSignedPrekey : Option (Nat × Bytes × Bytes)
  oneTimePrekey : Option (Nat × Bytes)
  pqOneTimePrekey : Option (Nat × Bytes)

/-- mirrors contact_model.dart:6-13 -/
inductive ContactTrustState
  | unverified
  | verified
  | masterKeyChanged
  | invalidDevice
  | deviceLogFork
  | identityUnavailable
deriving DecidableEq

/-- The record of the one peer, so without its user id.
mirrors contact_model.dart:84-151 -/
structure ContactTrustRecord where
  state : ContactTrustState
  identity : Option PeerIdentityPublic
  confirmedMasterPublic : Option Bytes
  attestation : Option Bytes
  etag : Option String
  peerStateEtag : Option String
  identityEtag : Option String
  logHeadSequence : Option Nat
  logHeadHash : Option Bytes

structure PeerDeviceLogRecord where
  sequence : Nat
  blob : Bytes

structure VerifiedDeviceLogRecord where
  sequence : Nat
  blob : Bytes
  hash : Bytes

structure PeerDeviceLogPage where
  records : List PeerDeviceLogRecord
  hasMore : Bool
  headSequence : Option Nat

inductive PeerIdentityRefresh
  | notModified
  | updated (identity : PeerIdentityPublic) (etag : String)

inductive PeerDeviceRefresh
  | notModified
  | updated (devices : List PeerPublicDevice) (etag : String) (logHeadSequence : Option Nat)

/-- mirrors contact_model.dart:252-299 -/
inductive PeerStateRead
  | unchanged (etag : String)
  | updated (identity : Option PeerIdentityPublic) (identityEtag : Option String)
      (devices : List PeerPublicDevice) (logHeadSequence : Option Nat) (etag : String)
  | absent

structure AuthenticatedPeer where
  trust : ContactTrustRecord
  devices : List PeerPublicDevice
  claimedBundles : List ClaimedPrekeyBundle

inductive Failure
  | policyBlocked
  | malformedServerResponse
  | unauthenticatedInput
  | notFound
  | remote (code : String)
  | crypto (code : String)
  | storage (code : String)
  /-- the process ends without an answer: an uncaught error, or its bound of pages -/
  | stopped
deriving DecidableEq

structure PeerDeviceLogInspection where
  sequence : Nat
  previousHash : Bytes
  identityVersion : Nat

/-- The crypto port, bound to the peer and to the local account.
mirrors identity_crypto_port.dart:8-47 -/
structure IdentityCrypto where
  verifyIdentity : PeerIdentityPublic → Except Failure Unit
  verifyClaimedBundle : (selfSigningPublic : Bytes) → ClaimedPrekeyBundle → Except Failure Unit
  inspectPeerDeviceLog : (selfSigningPublic : Bytes) → (liveDevices : List PeerPublicDevice) →
    (requireCurrentLiveSet : Bool) → (record : Bytes) → Except Failure PeerDeviceLogInspection
  recordHash : Bytes → Bytes
  attestPeerMaster : (peerMasterPublic : Bytes) → Except Failure Bytes
  verifyUserAttestation : (peerMasterPublic attestation : Bytes) → Except Failure Unit

/-- The crypto port, and the own identity when the peer is the own account. -/
structure Ctx where
  crypto : IdentityCrypto
  ownIdentity : Option PeerIdentityPublic

/-! ## The store -/

structure ContactStore where
  trust : Option ContactTrustRecord
  devices : List PeerPublicDevice
  records : List VerifiedDeviceLogRecord

/-- `insertOrIgnore` of one record: the first one of a sequence stays.
mirrors drift_contact_repository.dart:261-289 -/
def insertOrIgnore (rows : List VerifiedDeviceLogRecord) (record : VerifiedDeviceLogRecord) :
    List VerifiedDeviceLogRecord :=
  if rows.any (·.sequence = record.sequence) then rows else rows ++ [record]

def sortDevices (devices : List PeerPublicDevice) : List PeerPublicDevice :=
  devices.insertionSort fun a b => a.deviceId.bytes ≤ b.deviceId.bytes

/-- A call of a process. `advertised` is the head the process expects on a log page; it is not
sent. -/
inductive Call
  | hasAnyDeviceLogFork
  | readTrust
  | readDevices
  | fetchIdentity (etag : Option String)
  | fetchDevices (etag : Option String)
  | fetchPeerStates (etag : Option String)
  | fetchDeviceLog (after : Option Nat) (advertised : Nat)
  | claimPrekeyBundles (deviceIds : List Uuid)
  | replaceDevices (devices : List PeerPublicDevice)
  | appendVerifiedLogRecords (records : List VerifiedDeviceLogRecord)
  | writeTrust (trust : ContactTrustRecord)

/-- What an answer carries when it is not a failure. -/
def Carried : Call → Type
  | .hasAnyDeviceLogFork => Bool
  | .readTrust => Option ContactTrustRecord
  | .readDevices => List PeerPublicDevice
  | .fetchIdentity _ => PeerIdentityRefresh
  | .fetchDevices _ => PeerDeviceRefresh
  | .fetchPeerStates _ => PeerStateRead
  | .fetchDeviceLog _ _ => PeerDeviceLogPage
  | .claimPrekeyBundles _ => List ClaimedPrekeyBundle
  | .replaceDevices _ => Unit
  | .appendVerifiedLogRecords _ => Unit
  | .writeTrust _ => Unit

abbrev Answer (c : Call) : Type := Except Failure (Carried c)

/-- What the store answers and keeps when it does not fail; a call of the server leaves it as it is.
mirrors drift_contact_repository.dart:135-290 -/
def kept : (c : Call) → ContactStore → Carried c → ContactStore → Prop
  | .readTrust, s, a, t => a = s.trust ∧ t = s
  | .readDevices, s, a, t => a = sortDevices s.devices ∧ t = s
  | .replaceDevices devices, s, _, t => t = { s with devices := devices }
  | .appendVerifiedLogRecords records, s, _, t =>
    t = { s with records := records.foldl insertOrIgnore s.records }
  | .writeTrust trust, s, _, t => t = { s with trust := some trust }
  | _, s, _, t => t = s

/-- A call that fails leaves the store as it is. -/
def storeCalls (c : Call) (s : ContactStore) : Answer c → ContactStore → Prop
  | .error _, t => t = s
  | .ok a, t => kept c s a t

abbrev P (α : Type) := Proc Call Answer Failure α

namespace Local

abbrev hasAnyDeviceLogFork : P (Except Failure Bool) := Proc.call Call.hasAnyDeviceLogFork
abbrev readTrust : P (Except Failure (Option ContactTrustRecord)) := Proc.call Call.readTrust
abbrev readDevices : P (Except Failure (List PeerPublicDevice)) := Proc.call Call.readDevices
abbrev replaceDevices (devices : List PeerPublicDevice) : P (Except Failure Unit) :=
  Proc.call (Call.replaceDevices devices)
abbrev appendVerifiedLogRecords (records : List VerifiedDeviceLogRecord) :
    P (Except Failure Unit) :=
  Proc.call (Call.appendVerifiedLogRecords records)
abbrev writeTrust (trust : ContactTrustRecord) : P (Except Failure Unit) :=
  Proc.call (Call.writeTrust trust)

end Local

namespace Remote

abbrev fetchIdentity (etag : Option String) : P (Except Failure PeerIdentityRefresh) :=
  Proc.call (Call.fetchIdentity etag)
abbrev fetchDevices (etag : Option String) : P (Except Failure PeerDeviceRefresh) :=
  Proc.call (Call.fetchDevices etag)
abbrev fetchPeerStates (etag : Option String) : P (Except Failure PeerStateRead) :=
  Proc.call (Call.fetchPeerStates etag)
abbrev fetchDeviceLog (after : Option Nat) (advertised : Nat) :
    P (Except Failure PeerDeviceLogPage) :=
  Proc.call (Call.fetchDeviceLog after advertised)
abbrev claimPrekeyBundles (deviceIds : List Uuid) :
    P (Except Failure (List ClaimedPrekeyBundle)) :=
  Proc.call (Call.claimPrekeyBundles deviceIds)

end Remote

/-! ## Blocking a peer -/

/-- Whether the record names an answer this client read and refused.
mirrors :627-634 -/
def isBlocked : Option ContactTrustState → Bool
  | some .invalidDevice | some .masterKeyChanged | some .deviceLogFork
  | some .identityUnavailable => true
  | _ => false

def blockedRecord (previous : Option ContactTrustRecord) (state : ContactTrustState)
    (identity : Option PeerIdentityPublic) : ContactTrustRecord where
  state := state
  identity := identity.or (previous.bind (·.identity))
  confirmedMasterPublic := previous.bind (·.confirmedMasterPublic)
  attestation := previous.bind (·.attestation)
  etag := none
  peerStateEtag := none
  identityEtag := none
  logHeadSequence := previous.bind (·.logHeadSequence)
  logHeadHash := previous.bind (·.logHeadHash)

/-- `_persistBlocked` and the failure that follows it.
mirrors :651-668 -/
def persistBlocked {α : Type} (previous : Option ContactTrustRecord) (state : ContactTrustState)
    (identity : Option PeerIdentityPublic) (failure : Failure) : P α := do
  -- whether the write succeeds is not looked at
  let _ ← Local.writeTrust (blockedRecord previous state identity)
  .fail failure

/-- mirrors :594-608 -/
def fork {α : Type} (previous : Option ContactTrustRecord) (identity : PeerIdentityPublic) : P α :=
  persistBlocked previous .deviceLogFork (some identity) .policyBlocked

/-- mirrors :610-624 -/
def invalidDevice {α : Type} (previous : Option ContactTrustRecord) (identity : PeerIdentityPublic) :
    P α :=
  persistBlocked previous .invalidDevice (some identity) .unauthenticatedInput

/-- The global gate. mirrors :160-171 -/
def forkGate : P Unit := do
  let forked ← Proc.ofExcept (← Local.hasAnyDeviceLogFork)
  Proc.check (forked = false) .policyBlocked

/-! ## The identity -/

/-- A tag goes back only with a record this client accepted and the identity stored beside it.
mirrors :747-752, 809-814 -/
def sentTag (previous : Option ContactTrustRecord)
    (tag : ContactTrustRecord → Option String) : Option String :=
  previous.bind fun record =>
    if isBlocked (some record.state) ∨ record.identity = none then none else tag record

/-- What the two identity reads give: the identity, and the identity read's tag for it. -/
abbrev IdentityRead := PeerIdentityPublic × Option String

/-- A `304` stands for the identity stored beside the tag that was sent.
mirrors :716-741 -/
def identityOf (previous : Option ContactTrustRecord) :
    Except Failure PeerIdentityRefresh → Except Failure IdentityRead
  | .error e => .error e
  | .ok (.updated identity etag) => .ok (identity, some etag)
  | .ok .notModified =>
    match previous.bind (·.identity), sentTag previous (·.identityEtag) with
    | some identity, some sent => .ok (identity, some sent)
    | _, _ => .error .malformedServerResponse

/-- mirrors :762-780 -/
def batchedIdentity (previous : Option ContactTrustRecord) :
    PeerStateRead → Except Failure IdentityRead
  | .updated (some identity) identityEtag _ _ _ => .ok (identity, identityEtag)
  | .unchanged _ =>
    match previous.bind (·.identity) with
    | some identity => .ok (identity, previous.bind (·.identityEtag))
    | none => .error .malformedServerResponse
  | .updated none _ _ _ _ | .absent => .error .notFound

/-! ## The device list -/

structure DeviceRead where
  devices : List PeerPublicDevice
  advertisedHead : Option Nat
  listChanged : Bool
  tag : Option String

/-- mirrors :831-847 -/
def sameDevices (left right : List PeerPublicDevice) : Bool := sortDevices left = sortDevices right

/-- mirrors :671-707 -/
def deviceReadOf (previous : Option ContactTrustRecord) (stored : List PeerPublicDevice) :
    PeerDeviceRefresh → DeviceRead
  | .notModified => ⟨stored, previous.bind (·.logHeadSequence), false, previous.bind (·.etag)⟩
  | .updated devices etag head => ⟨devices, head, !sameDevices stored devices, some etag⟩

/-- mirrors :784-803 -/
def batchedDevices (previous : Option ContactTrustRecord) (stored : List PeerPublicDevice) :
    PeerStateRead → Except Failure DeviceRead
  | .unchanged etag => .ok ⟨stored, previous.bind (·.logHeadSequence), false, some etag⟩
  | .updated _ _ devices head etag => .ok ⟨devices, head, !sameDevices stored devices, some etag⟩
  | .absent => .error .notFound

/-- A device listed before keeps its keys, and a signature that replaces one moves the version on by
one. mirrors :849-891 -/
def isValidDeviceTransition (previous current : List PeerPublicDevice) : Bool :=
  current.all fun device =>
    match previous.find? (·.deviceId = device.deviceId) with
    | none => true
    | some old =>
      let signatureChanged : Bool := old.crossSignature ≠ device.crossSignature
      let versionChanged : Bool := old.bundleVersion ≠ device.bundleVersion
      old.registrationId = device.registrationId && old.identityPublic = device.identityPublic &&
        signatureChanged = versionChanged &&
        (!signatureChanged ||
          match device.bundleVersion, old.bundleVersion with
          | none, _ => false
          | some _, none => true
          | some version, some previousVersion => version = previousVersion + 1)

/-! ## The device log -/

structure LogCursor where
  after : Option Nat
  expectedSequence : Nat
  expectedPrevious : Bytes
  verified : List VerifiedDeviceLogRecord

/-- mirrors :327-330 -/
def LogCursor.start (previous : Option ContactTrustRecord) : LogCursor where
  after := previous.bind (·.logHeadSequence)
  expectedSequence := (previous.bind (·.logHeadSequence)).elim 0 (· + 1)
  expectedPrevious := (previous.bind (·.logHeadHash)).getD (List.replicate 32 0)
  verified := []

section Log

variable (X : Ctx) (previous : Option ContactTrustRecord) (identity : PeerIdentityPublic)
  (devices : List PeerPublicDevice) (advertised : Nat)

/-- One record of a page. mirrors :346-384 -/
def inspectRecord (cursor : LogCursor) (record : PeerDeviceLogRecord) : P LogCursor :=
  if record.sequence ≠ cursor.expectedSequence then fork previous identity
  else
    match X.crypto.inspectPeerDeviceLog identity.selfSigningPublic devices
        (record.sequence = advertised) record.blob with
    | .error e => persistBlocked previous .deviceLogFork (some identity) e
    | .ok inspected =>
      if inspected.sequence ≠ record.sequence ∨ inspected.previousHash ≠ cursor.expectedPrevious ∨
          (record.sequence = advertised ∧ inspected.identityVersion ≠ identity.version) then
        fork previous identity
      else
        .ret {
          after := some record.sequence
          expectedSequence := cursor.expectedSequence + 1
          expectedPrevious := X.crypto.recordHash record.blob
          verified := cursor.verified ++
            [⟨record.sequence, record.blob, X.crypto.recordHash record.blob⟩] }

/-- mirrors :346-384 -/
def inspectRecords : LogCursor → List PeerDeviceLogRecord → P LogCursor
  | cursor, [] => .ret cursor
  | cursor, record :: records => do
    let cursor ← inspectRecord X previous identity devices advertised cursor record
    inspectRecords cursor records

/-- The loop over the pages. mirrors :332-386 -/
def readPages : (pages : Nat) → LogCursor → P LogCursor
  | 0, _ => .fail .stopped
  | pages + 1, cursor => do
    let page ← Proc.ofExcept (← Remote.fetchDeviceLog cursor.after advertised)
    if page.headSequence ≠ some advertised ∨
        (page.records = [] ∧ cursor.expectedSequence ≤ advertised) then
      fork previous identity
    else do
      let cursor ← inspectRecords X previous identity devices advertised cursor page.records
      if page.hasMore then readPages pages cursor else .ret cursor

/-- mirrors :327-390 -/
def readLog (pages : Nat) : P LogCursor :=
  let cursor := LogCursor.start previous
  if cursor.after.all (· < advertised) then do
    let cursor ← readPages X previous identity devices advertised pages cursor
    if cursor.after ≠ some advertised then fork previous identity else .ret cursor
  else .ret cursor

end Log

/-! ## Claimed bundles -/

section Claim

variable (X : Ctx) (previous : Option ContactTrustRecord) (identity : PeerIdentityPublic)
  (devices : List PeerPublicDevice)

/-- mirrors :824-829 -/
def bundleMatches (device : PeerPublicDevice) (bundle : ClaimedPrekeyBundle) : Bool :=
  device.deviceId = bundle.deviceId ∧ device.registrationId = bundle.registrationId ∧
    device.bundleVersion = some bundle.bundleVersion ∧
    device.identityPublic = bundle.identityPublic ∧
    device.crossSignature = some bundle.crossSignature

/-- The check of one requested device; `singleWhere` throws when it is listed twice.
mirrors :414-435 -/
def checkClaimed (claimed : List ClaimedPrekeyBundle) (deviceId : Uuid) : P Unit :=
  match devices.filter (·.deviceId = deviceId), claimed.filter (·.deviceId = deviceId) with
  | [device], [bundle] =>
    if bundle.pqSignedPrekey.isNone ∨ bundleMatches device bundle = false then
      invalidDevice previous identity
    else
      match X.crypto.verifyClaimedBundle identity.selfSigningPublic bundle with
      | .error _ => invalidDevice previous identity
      | .ok _ => .ret ()
  | [_], _ => invalidDevice previous identity
  | _, _ => .fail .stopped

def checkAllClaimed (claimed : List ClaimedPrekeyBundle) : List Uuid → P Unit
  | [] => .ret ()
  | deviceId :: deviceIds => do
    checkClaimed X previous identity devices claimed deviceId
    checkAllClaimed claimed deviceIds

/-- mirrors :392-436 -/
def claimBundles (claimDeviceIds : Option (List Uuid)) : P (List ClaimedPrekeyBundle) :=
  let requested := claimDeviceIds.getD (devices.map (·.deviceId))
  if requested.any (!(devices.map (·.deviceId)).contains ·) then invalidDevice previous identity
  else do
    let claimed ← Proc.ofExcept (← Remote.claimPrekeyBundles requested)
    if claimed.length ≠ requested.length then invalidDevice previous identity
    else do
      checkAllClaimed X previous identity devices claimed requested
      return claimed

end Claim

/-! ## The refresh -/

/-- What the caller asks of `_refresh`. `batched` is what the batched read already said, with the
record whose tag the request carried. -/
structure RefreshArgs where
  requirePrekeys : Bool
  claimDeviceIds : Option (List Uuid)
  allowMasterReplacement : Bool
  batched : Option (Option ContactTrustRecord × PeerStateRead)

section Refresh

variable (X : Ctx) (args : RefreshArgs) (previous : Option ContactTrustRecord)

/-- Verified only while the confirmed master key is the one served and its attestation holds.
mirrors :438-452 -/
def nextState (identity : PeerIdentityPublic) : ContactTrustState :=
  match previous.bind (·.confirmedMasterPublic), previous.bind (·.attestation) with
  | some confirmed, some attestation =>
    if confirmed = identity.masterPublic ∧
        X.crypto.verifyUserAttestation identity.masterPublic attestation = .ok () then .verified
    else .unverified
  | _, _ => .unverified

/-- The record of an accepted answer. mirrors :462-482 -/
def acceptedRecord (identity : PeerIdentityPublic) (identityTag : Option String) (read : DeviceRead)
    (advertised : Nat) (verified : List VerifiedDeviceLogRecord) : ContactTrustRecord :=
  let stateHeld := !isBlocked (previous.map (·.state)) && !read.listChanged &&
    some advertised = previous.bind (·.logHeadSequence) &&
    previous.bind (·.identity) = some identity
  { state := nextState X previous identity
    identity := some identity
    confirmedMasterPublic := previous.bind (·.confirmedMasterPublic)
    attestation := previous.bind (·.attestation)
    etag := if args.batched.isNone then read.tag
      else if stateHeld then previous.bind (·.etag) else none
    peerStateEtag := if args.batched.isNone then
        (if stateHeld then previous.bind (·.peerStateEtag) else none)
      else read.tag
    identityEtag := identityTag
    logHeadSequence := some advertised
    logHeadHash := match verified.getLast? with
      | none => previous.bind (·.logHeadHash)
      | some record => some record.hash }

/-- The three writes of an accepted answer. mirrors :483-504 -/
def storeAccepted (trust : ContactTrustRecord) (devices : List PeerPublicDevice)
    (verified : List VerifiedDeviceLogRecord) (claimed : List ClaimedPrekeyBundle) :
    P AuthenticatedPeer := do
  Proc.ofExcept (← Local.replaceDevices devices)
  Proc.ofExcept (← Local.appendVerifiedLogRecords verified)
  Proc.ofExcept (← Local.writeTrust trust)
  return ⟨trust, devices, claimed⟩

/-- From the device-list answer on. mirrors :296-505 -/
def refreshDevices (pages : Nat) (identity : PeerIdentityPublic) (identityTag : Option String)
    (cached : List PeerPublicDevice) (read : DeviceRead) : P AuthenticatedPeer :=
  if read.devices = [] ∨ read.devices.any (·.isUnsigned) then
    persistBlocked previous .invalidDevice (some identity) .unauthenticatedInput
  else
    match read.advertisedHead with
    | none => fork previous identity
    | some advertised =>
      if (previous.bind (·.logHeadSequence)).any (advertised < ·) then fork previous identity
      else if isValidDeviceTransition cached read.devices = false then
        invalidDevice previous identity
      else if read.listChanged ∧ some advertised = previous.bind (·.logHeadSequence) then
        .fail .policyBlocked
      else do
        let cursor ← readLog X previous identity read.devices advertised pages
        let claimed ← if args.requirePrekeys then
            claimBundles X previous identity read.devices args.claimDeviceIds
          else pure []
        storeAccepted (acceptedRecord X args previous identity identityTag read advertised
          cursor.verified) read.devices cursor.verified claimed

/-- The record of a master key other than the confirmed one.
mirrors :265-277 -/
def changedRecord (record : ContactTrustRecord) (identity : PeerIdentityPublic)
    (identityTag : Option String) : ContactTrustRecord :=
  { record with
    state := .masterKeyChanged
    identity := some identity
    identityEtag := identityTag.or record.identityEtag }

/-- The own account's keys are the local ones. mirrors :240-256 -/
def ownIdentityDiffers (identity : PeerIdentityPublic) : Bool :=
  X.ownIdentity.any fun own => own.masterPublic ≠ identity.masterPublic ∨
    own.selfSigningPublic ≠ identity.selfSigningPublic ∨
    own.userSigningPublic ≠ identity.userSigningPublic ∨
    own.masterSignature ≠ identity.masterSignature

/-- From the identity answer on. mirrors :225-295 -/
def refreshIdentity (pages : Nat) (identity : PeerIdentityPublic) (identityTag : Option String) :
    P AuthenticatedPeer :=
  match X.crypto.verifyIdentity identity with
  | .error e => persistBlocked previous .identityUnavailable (some identity) e
  | .ok _ =>
    if ownIdentityDiffers X identity then .fail .unauthenticatedInput
    else
      match previous.filter fun record =>
          record.confirmedMasterPublic.any (· ≠ identity.masterPublic) ∧
            args.allowMasterReplacement = false with
      | some record => do
        let _ ← Local.writeTrust (changedRecord record identity identityTag)
        .fail .policyBlocked
      | none => do
        let cached ← Proc.ofExcept (← Local.readDevices)
        let read ← match args.batched with
          | some batched => Proc.ofExcept (batchedDevices previous cached batched.2)
          | none => do
            let answer ← Proc.ofExcept (← Remote.fetchDevices
              (if isBlocked (previous.map (·.state)) then none else previous.bind (·.etag)))
            pure (deviceReadOf previous cached answer)
        refreshDevices X args previous pages identity identityTag cached read

/-- An identity that could not be read blocks the peer.
mirrors :217-226 -/
def refreshRead (pages : Nat) : Except Failure IdentityRead → P AuthenticatedPeer
  | .error e => persistBlocked previous .identityUnavailable none e
  | .ok (identity, identityTag) => refreshIdentity X args previous pages identity identityTag

end Refresh

/-- mirrors :204-505 -/
def refreshUngated (X : Ctx) (args : RefreshArgs) (pages : Nat) : P AuthenticatedPeer :=
  match args.batched with
  | some (previous, read) => refreshRead X args previous pages (batchedIdentity previous read)
  | none => do
    let previous ← Proc.ofExcept (← Local.readTrust)
    let answer ← Remote.fetchIdentity (sentTag previous (·.identityEtag))
    refreshRead X args previous pages (identityOf previous answer)

/-- mirrors :179-505 -/
def refresh (X : Ctx) (args : RefreshArgs) (pages : Nat) : P AuthenticatedPeer :=
  if args.requirePrekeys then do
    forkGate
    refreshUngated X args pages
  else refreshUngated X args pages

/-! ## Entry points -/

/-- A call of the service about the peer. -/
inductive Entry
  | refreshPeer (requirePrekeys : Bool)
  | refreshPeerForDevices (deviceIds : List Uuid)
  | resolveLiveDevices
  | resolveLiveDevicesForUsers
  | confirmOutOfBand (exactMasterPublic : Bytes)

/-- The record of a confirmed peer. mirrors :542-553 -/
def confirmedRecord (peer : AuthenticatedPeer) (identity : PeerIdentityPublic) (attestation : Bytes) :
    ContactTrustRecord :=
  { peer.trust with
    state := .verified
    identity := some identity
    confirmedMasterPublic := some identity.masterPublic
    attestation := some attestation }

def writeConfirmed (trust : ContactTrustRecord) : P ContactTrustRecord := do
  Proc.ofExcept (← Local.writeTrust trust)
  return trust

/-- From the refreshed peer on. mirrors :521-566 -/
def confirmRefreshed (X : Ctx) (exactMasterPublic : Bytes) (peer : AuthenticatedPeer) :
    P ContactTrustRecord :=
  match peer.trust.identity with
  | none => .fail .unauthenticatedInput
  | some identity => do
    Proc.check (identity.masterPublic = exactMasterPublic) .unauthenticatedInput
    let attestation ← Proc.ofExcept (X.crypto.attestPeerMaster identity.masterPublic)
    writeConfirmed (confirmedRecord peer identity attestation)

/-- mirrors :508-566 -/
def confirmOutOfBand (X : Ctx) (pages : Nat) (exactMasterPublic : Bytes) :
    P ContactTrustRecord := do
  let peer ← refresh X ⟨false, none, true, none⟩ pages
  confirmRefreshed X exactMasterPublic peer

/-- The batched read of the peer, between the reads of the others.
mirrors :101-156 -/
def resolveLiveDevicesForUsers (X : Ctx) (pages : Nat) : P AuthenticatedPeer := do
  forkGate
  let previous ← Proc.ofExcept (← Local.readTrust)
  let read ← Proc.ofExcept (← Remote.fetchPeerStates (sentTag previous (·.peerStateEtag)))
  forkGate
  refresh X ⟨false, none, false, some (previous, read)⟩ pages

/-- The process of a call; it returns the trust record of its success.
mirrors :39-156, 508-566 -/
def Entry.process (X : Ctx) (pages : Nat) : Entry → P ContactTrustRecord
  | .refreshPeer requirePrekeys => do
    let peer ← refresh X ⟨requirePrekeys, none, false, none⟩ pages
    return peer.trust
  | .refreshPeerForDevices deviceIds => do
    Proc.check (deviceIds ≠ [] ∧ deviceIds.length ≤ 100 ∧ deviceIds.Nodup) .policyBlocked
    let peer ← refresh X ⟨true, some deviceIds, false, none⟩ pages
    return peer.trust
  | .resolveLiveDevices => do
    forkGate
    let peer ← refresh X ⟨false, none, false, none⟩ pages
    return peer.trust
  | .resolveLiveDevicesForUsers => do
    let peer ← Contacts.resolveLiveDevicesForUsers X pages
    return peer.trust
  | .confirmOutOfBand exactMasterPublic => Contacts.confirmOutOfBand X pages exactMasterPublic

end CommPlatform.Contacts
