import Mathlib.Data.List.MinMax
import Mathlib.Data.List.Sort
import CommPlatform.Core.Bytes
import CommPlatform.Core.Outcome

/-!
# The devices service of the backend

Model of backend/devices/services.py over the tables it works on
(backend/devices/models.py). Every function is one transaction and returns
the answer with the tables it commits, or the `ApiError` it raises, with
which nothing is committed. `claim` is split at its statements, because two
claims do run at the same time: it reads its targets, takes one unlocked row
for each of them, and deletes what it took.

Public keys and signatures are bytes, never parsed. Ids are the raw bytes of
a UUID.

Bare line numbers are those of `devices/services.py`.
-/
namespace CommPlatform.Server

open CommPlatform.Core

/-! ## Tables -/

structure SignedPrekey where
  spkId : Nat
  pub : Bytes
  sig : Bytes

/-- mirrors devices/models.py:33-76 -/
structure Device where
  id : Uuid
  user : Uuid
  ikPub : Bytes
  spk : SignedPrekey
  registrationId : Nat
  crossSig : Option Bytes
  bundleVersion : Nat
  pqSpk : Option SignedPrekey
  revoked : Bool

inductive Model
  | oneTimePrekey
  | pqOneTimePrekey
deriving DecidableEq

/-- A row of either table; `(device, key_id)` is unique in each.
mirrors devices/models.py:79-123 -/
structure OneTimePrekey where
  device : Uuid
  keyId : Nat
  pub : Bytes
deriving DecidableEq

/-- The columns of `uniq_onetimeprekey_device_key_id`. -/
def OneTimePrekey.key (row : OneTimePrekey) : Uuid × Nat := (row.device, row.keyId)

/-- The published cross-signing identity. mirrors devices/models.py:9-30 -/
structure UserIdentity where
  masterPub : Bytes
  selfSigningPub : Bytes
  userSigningPub : Bytes
  masterSig : Bytes
  version : Nat

/-- The tables. The log of a user is contiguous from 0, so its rows are a list. -/
structure Tables where
  active : Uuid → Bool
  identity : Uuid → Option UserIdentity
  devices : List Device
  oneTime : Model → List OneTimePrekey
  log : Uuid → List Bytes

/-- mirrors api/errors.py -/
structure ApiError where
  status : Nat
  code : String
  detail : String

/-- The deployment's limits. mirrors config/settings/base.py -/
structure Settings where
  maxDevicesPerUser : Nat
  maxDevicelogRecords : Nat

/-- `MAX_STORED_OTPKS` and `MAX_STORED_PQ_OTPKS`. mirrors devices/schemas.py:64-67 -/
def maxStored : Model → Nat
  | .oneTimePrekey => 200
  | .pqOneTimePrekey => 100

def Tables.deviceIds (db : Tables) : List Uuid := db.devices.map (·.id)

def Tables.live (db : Tables) (user : Uuid) : List Device :=
  db.devices.filter fun d => d.user = user ∧ ¬ d.revoked

/-! ## Payloads -/

/-- One uploaded one-time prekey. mirrors devices/schemas.py:157-159 -/
structure OtpkIn where
  keyId : Nat
  pub : Bytes

/-- A list of uploaded one-time prekeys, as the schema lets it through.
mirrors devices/schemas.py:150-154 -/
structure Batch where
  keys : List OtpkIn
  distinct : (keys.map (·.keyId)).Nodup

def Batch.rows (batch : Batch) (device : Uuid) : List OneTimePrekey :=
  batch.keys.map fun k => ⟨device, k.keyId, k.pub⟩

/-- mirrors devices/schemas.py:200-229 -/
structure RegisterDeviceIn where
  ikPub : Bytes
  spk : SignedPrekey
  registrationId : Nat
  pqSpk : Option SignedPrekey
  otpks : Model → Batch

/-- `bundle` is `cross_sig` with `bundle_version`, which are sent together.
mirrors devices/schemas.py:232-270 -/
structure PrekeyReplenishIn where
  spk : Option SignedPrekey
  bundle : Option (Option Bytes × Nat)
  pqSpk : Option SignedPrekey
  otpks : Model → Batch

/-! ## Registration, replenishment and revocation -/

/-- `bulk_create` with `ignore_conflicts`. -/
def insertIgnoringConflicts (table new : List OneTimePrekey) : List OneTimePrekey :=
  table ++ new.filter fun row => row.key ∉ table.map OneTimePrekey.key

/-- `id` is the primary key `uuid4` draws for the new row.
mirrors :259-324 -/
def registerDevice (S : Settings) (db : Tables) (user id : Uuid) (payload : RegisterDeviceIn) :
    Except ApiError Tables := do
  failIf ((db.live user).length ≥ S.maxDevicesPerUser)
    ⟨409, "device_limit", "This account has too many devices."⟩
  failIf ((db.live user).length ≠ 0 ∧ (db.identity user).isNone)
    ⟨400, "identity_required", "Publish a cross-signing identity before adding another device."⟩
  return { db with
    devices := db.devices ++ [⟨id, user, payload.ikPub, payload.spk, payload.registrationId, none, 0,
      payload.pqSpk, false⟩]
    oneTime := fun model => db.oneTime model ++ (payload.otpks model).rows id }

def Tables.stored (db : Tables) (model : Model) (device : Uuid) : Nat :=
  ((db.oneTime model).filter (·.device = device)).length

/-- The signed-bundle fields one `UPDATE` writes. mirrors :437-453 -/
def Device.withBundle (d : Device) (payload : PrekeyReplenishIn) : Device :=
  { d with
    spk := payload.spk.getD d.spk
    pqSpk := payload.pqSpk.or d.pqSpk
    crossSig := (payload.bundle.map (·.1)).getD d.crossSig
    bundleVersion := (payload.bundle.map (·.2)).getD d.bundleVersion }

/-- Both caps are checked before either write; the answer is the count of stored keys.
mirrors :410-475 -/
def replenish (db : Tables) (device : Uuid) (payload : PrekeyReplenishIn) :
    Except ApiError (Tables × Nat) := do
  failIf (db.stored .oneTimePrekey device + (payload.otpks .oneTimePrekey).keys.length >
      maxStored .oneTimePrekey)
    ⟨409, "prekey_limit", "Too many stored one-time prekeys for this device."⟩
  failIf ((payload.otpks .pqOneTimePrekey).keys ≠ [] ∧
      db.stored .pqOneTimePrekey device + (payload.otpks .pqOneTimePrekey).keys.length >
        maxStored .pqOneTimePrekey)
    ⟨409, "prekey_limit", "Too many stored PQ one-time prekeys for this device."⟩
  let db' : Tables := { db with
    devices := db.devices.map fun d => if d.id = device then d.withBundle payload else d
    oneTime := fun model =>
      insertIgnoringConflicts (db.oneTime model) ((payload.otpks model).rows device) }
  return (db', db'.stored .oneTimePrekey device)

/-- The row and its one-time keys. mirrors :391-407 -/
def revoke (db : Tables) (user device : Uuid) : Except ApiError Tables := do
  failIf ((db.live user).all (·.id ≠ device)) ⟨404, "not_found", "No such device."⟩
  return { db with
    devices := db.devices.map fun d => if d.id = device then { d with revoked := true } else d
    oneTime := fun model => (db.oneTime model).filter (·.device ≠ device) }

/-! ## What they leave of the tables -/

section Effects

variable {S : Settings} {db db' : Tables} {user device : Uuid}

theorem registerDevice_ok {id : Uuid} {payload : RegisterDeviceIn}
    (h : registerDevice S db user id payload = .ok db') : db'.deviceIds = db.deviceIds ++ [id] ∧
      ∀ model, db'.oneTime model = db.oneTime model ++ (payload.otpks model).rows id := by
  simp only [registerDevice, unit_bind_eq_ok, pure_eq_ok, Except.ok.injEq] at h
  obtain ⟨-, -, rfl⟩ := h
  exact ⟨by simp [Tables.deviceIds], fun _ => rfl⟩

theorem map_update_ids (devices : List Device) (f : Device → Device) (hf : ∀ d, (f d).id = d.id) :
    (devices.map fun d => if d.id = device then f d else d).map (·.id) = devices.map (·.id) := by
  rw [List.map_map]
  refine List.map_congr_left fun d _ => ?_
  change (if d.id = device then f d else d).id = d.id
  split
  · exact hf d
  · rfl

theorem replenish_ok {payload : PrekeyReplenishIn} {count : Nat}
    (h : replenish db device payload = .ok (db', count)) : db'.deviceIds = db.deviceIds ∧
      ∀ model, db'.oneTime model =
        insertIgnoringConflicts (db.oneTime model) ((payload.otpks model).rows device) := by
  simp only [replenish, unit_bind_eq_ok, pure_eq_ok, Except.ok.injEq, Prod.mk.injEq] at h
  obtain ⟨-, -, rfl, -⟩ := h
  exact ⟨map_update_ids _ _ fun _ => rfl, fun _ => rfl⟩

theorem revoke_ok (h : revoke db user device = .ok db') : db'.deviceIds = db.deviceIds ∧
    ∀ model, db'.oneTime model = (db.oneTime model).filter (·.device ≠ device) := by
  simp only [revoke, unit_bind_eq_ok, pure_eq_ok, Except.ok.injEq] at h
  obtain ⟨-, rfl⟩ := h
  exact ⟨map_update_ids _ _ fun _ => rfl, fun _ => rfl⟩

end Effects

/-! ## Claiming -/

/-- The live devices a claim is for, by id; no list asks for all of them, an empty one for none.
mirrors :564-591 -/
def claimTargets (db : Tables) (user : Uuid) (deviceIds : Option (List Uuid)) : List Device :=
  if db.active user then
    ((db.live user).filter fun d => deviceIds.all (·.contains d.id)).insertionSort
      fun a b => a.id.bytes ≤ b.id.bytes
  else []

theorem mem_of_mem_claimTargets {db : Tables} {user : Uuid} {deviceIds : Option (List Uuid)}
    {d : Device} (h : d ∈ claimTargets db user deviceIds) : d ∈ db.devices := by
  unfold claimTargets at h
  split at h
  · have hlive := (List.mem_filter.mp ((List.perm_insertionSort _ _).mem_iff.mp h)).1
    exact (List.mem_filter.mp hlive).1
  · cases h

theorem claimTargets_nodup {db : Tables} (h : db.deviceIds.Nodup) (user : Uuid)
    (deviceIds : Option (List Uuid)) : ((claimTargets db user deviceIds).map (·.id)).Nodup := by
  unfold claimTargets
  split
  · rw [((List.perm_insertionSort _ _).map _).nodup_iff]
    exact ((List.filter_sublist.trans List.filter_sublist).map _).nodup h
  · exact List.nodup_nil

/-- The row one statement of `_take_one_each` locks: the lowest key id among the rows of the device
nobody has locked. mirrors :546-552 -/
def firstUnlocked (table : List OneTimePrekey) (locked : OneTimePrekey → Prop)
    [DecidablePred locked] (device : Uuid) : Option OneTimePrekey :=
  (table.filter fun row => row.device = device ∧ ¬ locked row).argmin (·.keyId)

/-- A claim whose transaction is open: its targets, and for each table the devices a key is still
to be taken for and the rows it has locked. -/
structure ClaimTx where
  targets : List Device
  left : Model → List Uuid
  taken : Model → List OneTimePrekey

/-- A PQ one-time prekey is only taken for a device with a signed one.
mirrors :592-598 -/
def beginClaim (db : Tables) (user : Uuid) (deviceIds : Option (List Uuid)) : ClaimTx where
  targets := claimTargets db user deviceIds
  left
    | .oneTimePrekey => (claimTargets db user deviceIds).map (·.id)
    | .pqOneTimePrekey => ((claimTargets db user deviceIds).filter (·.pqSpk.isSome)).map (·.id)
  taken _ := []

/-- One statement of `_take_one_each`. mirrors :545-555 -/
def ClaimTx.take (tx : ClaimTx) (model : Model) (rest : List Uuid) (row : Option OneTimePrekey) :
    ClaimTx :=
  { tx with
    left := Function.update tx.left model rest
    taken := Function.update tx.taken model (tx.taken model ++ row.toList) }

theorem ClaimTx.taken_take_self (tx : ClaimTx) (model : Model) (rest : List Uuid)
    (row : Option OneTimePrekey) :
    (tx.take model rest row).taken model = tx.taken model ++ row.toList :=
  Function.update_self _ _ _

theorem ClaimTx.taken_take_of_ne (tx : ClaimTx) {model other : Model} (h : other ≠ model)
    (rest : List Uuid) (row : Option OneTimePrekey) :
    (tx.take model rest row).taken other = tx.taken other :=
  Function.update_of_ne h _ _

/-- `DELETE` of the rows the claim locked. mirrors :556-560 -/
def deleteTaken (db : Tables) (tx : ClaimTx) : Tables :=
  { db with oneTime := fun model => (db.oneTime model).filter (· ∉ tx.taken model) }

/-- One bundle of the answer. mirrors :602-626 -/
structure Bundle where
  device : Uuid
  registrationId : Nat
  ikPub : Bytes
  spk : SignedPrekey
  crossSig : Option Bytes
  bundleVersion : Nat
  pqSpk : Option SignedPrekey
  otpk : Model → Option OtpkIn

def takenFor (taken : List OneTimePrekey) (device : Uuid) : Option OtpkIn :=
  (taken.find? (·.device = device)).map fun row => ⟨row.keyId, row.pub⟩

def ClaimTx.bundle (tx : ClaimTx) (d : Device) : Bundle where
  device := d.id
  registrationId := d.registrationId
  ikPub := d.ikPub
  spk := d.spk
  crossSig := d.crossSig
  bundleVersion := d.bundleVersion
  pqSpk := d.pqSpk
  otpk
    | .oneTimePrekey => takenFor (tx.taken .oneTimePrekey) d.id
    | .pqOneTimePrekey => d.pqSpk.bind fun _ => takenFor (tx.taken .pqOneTimePrekey) d.id

def ClaimTx.bundles (tx : ClaimTx) : List Bundle := tx.targets.map tx.bundle

def handedOut (model : Model) (bundles : List Bundle) : List OneTimePrekey :=
  bundles.filterMap fun b => (b.otpk model).map fun k => ⟨b.device, k.keyId, k.pub⟩

end CommPlatform.Server
