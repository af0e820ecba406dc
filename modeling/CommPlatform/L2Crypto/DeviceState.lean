import CommPlatform.L2Crypto.Provider
import Mathlib.Data.List.Sort

/-!
# Device and prekey state

`prekey_state.rs`: the long-lived key material of one device, the lookups
the handshake makes in it, the consumption of one-time prekeys and the
canonical encoding that every operation stores. `DeviceState.Valid` is what
`decode_device_state` checks of a stored state before any operation sees
it; the generation, rotation and upload of prekeys are in `PrekeyMaintenance`.

Results: a consumed one-time key is gone and every other key stays
(`consumeClassicalOneTime_eq`, `consumePqOneTime_eq`), and a state without
some one-time keys encodes whenever the full one does
(`encodeDeviceState_withoutOneTime`).

Bare line numbers are those of `prekey_state.rs`.
-/
namespace CommPlatform.L2

open CommPlatform.Core L1

/-- mirrors :41 -/
def keyIdMax : UInt32 := 0x7fffffff

structure ClassicalSignedKey where
  id : UInt32
  createdDay : UInt32
  publicKey : Key
  signature : Block 64
  secretKey : Key
deriving DecidableEq

structure PqSignedKey where
  id : UInt32
  createdDay : UInt32
  publicKey : Block 1184
  signature : Block 64
  secretKey : Block 2400
deriving DecidableEq

structure RetiredSignedPair where
  retainThroughDay : UInt32
  classical : ClassicalSignedKey
  pq : PqSignedKey
deriving DecidableEq

structure ClassicalOneTimeKey where
  id : UInt32
  publicKey : Key
  secretKey : Key
deriving DecidableEq

structure PqOneTimeKey where
  id : UInt32
  publicKey : Block 1184
  secretKey : Block 2400
deriving DecidableEq

structure PendingUpload where
  batchId : Block 16
  kind : UInt8
  exactProjection : Bytes
deriving DecidableEq

/-- mirrors :115-132 -/
structure DeviceState where
  userId : Block 16
  registrationId : UInt32
  bundleVersion : UInt32
  nextClassicalOneTimeId : UInt32
  nextPqOneTimeId : UInt32
  deviceSigningPublic : Key
  identityPublic : Key
  deviceSigningSecret : Key
  identitySecret : Key
  currentClassical : ClassicalSignedKey
  currentPq : PqSignedKey
  crossSignature : Block 64
  retired : List RetiredSignedPair
  classicalOneTime : List ClassicalOneTimeKey
  pqOneTime : List PqOneTimeKey
  pending : Option PendingUpload
deriving DecidableEq

namespace DeviceState

/-- mirrors :142-144 -/
def ikPublic (d : DeviceState) : Block 64 := d.deviceSigningPublic.append d.identityPublic

/-- mirrors :146-154 -/
def signedClassical (d : DeviceState) (id : UInt32) : Option ClassicalSignedKey :=
  if d.currentClassical.id = id then some d.currentClassical
  else (d.retired.find? (·.classical.id = id)).map (·.classical)

/-- mirrors :156-164 -/
def signedPq (d : DeviceState) (id : UInt32) : Option PqSignedKey :=
  if d.currentPq.id = id then some d.currentPq
  else (d.retired.find? (·.pq.id = id)).map (·.pq)

/-- mirrors :166-168 -/
def findClassicalOneTime (d : DeviceState) (id : UInt32) : Option ClassicalOneTimeKey :=
  d.classicalOneTime.find? (·.id = id)

/-- mirrors :170-172 -/
def findPqOneTime (d : DeviceState) (id : UInt32) : Option PqOneTimeKey :=
  d.pqOneTime.find? (·.id = id)

/-- mirrors :174-182 -/
def consumeClassicalOneTime (d : DeviceState) (id : UInt32) : CryptoResult DeviceState := do
  let _ ← okOr (d.findClassicalOneTime id) .stateViolation
  return { d with classicalOneTime := d.classicalOneTime.eraseP (·.id = id) }

/-- mirrors :184-192 -/
def consumePqOneTime (d : DeviceState) (id : UInt32) : CryptoResult DeviceState := do
  let _ ← okOr (d.findPqOneTime id) .stateViolation
  return { d with pqOneTime := d.pqOneTime.eraseP (·.id = id) }

end DeviceState

/-! ## Encoding -/

def deviceV2Magic : Bytes := ascii "CPDVV002"

/-- mirrors :34 -/
def deviceStateAuthDomain : Bytes := ascii "chat:v1:device-prekey-state-auth"

/-- mirrors :939-945 -/
def encodeClassicalSigned (k : ClassicalSignedKey) : Bytes :=
  pushU32 k.id ++ pushU32 k.createdDay ++ k.publicKey.bytes ++ k.signature.bytes ++
    k.secretKey.bytes

/-- mirrors :957-963 -/
def encodePqSigned (k : PqSignedKey) : Bytes :=
  pushU32 k.id ++ pushU32 k.createdDay ++ k.publicKey.bytes ++ k.signature.bytes ++
    k.secretKey.bytes

def encodeRetired (p : RetiredSignedPair) : Bytes :=
  pushU32 p.retainThroughDay ++ encodeClassicalSigned p.classical ++ encodePqSigned p.pq

def encodeClassicalOneTime (k : ClassicalOneTimeKey) : Bytes :=
  pushU32 k.id ++ k.publicKey.bytes ++ k.secretKey.bytes

def encodePqOneTime (k : PqOneTimeKey) : Bytes :=
  pushU32 k.id ++ k.publicKey.bytes ++ k.secretKey.bytes

def encodePending : Option PendingUpload → CryptoResult Bytes
  | none => .ok [0]
  | some p => do
    let frame ← pushFrame p.exactProjection
    return 1 :: p.kind :: p.batchId.bytes ++ frame

/-- mirrors :923-929 -/
def deviceAuthKey (P : CryptoProvider) (identitySecret : Key) : CryptoResult Key :=
  hkdfSha256 P (List.replicate 32 0) identitySecret.bytes deviceStateAuthDomain 32

/-- The fixed-size fields in front of the lists. -/
def encodeDeviceHead (d : DeviceState) : Bytes :=
  deviceV2Magic ++ d.userId.bytes ++ pushU32 d.registrationId ++ pushU32 d.bundleVersion ++
    pushU32 d.nextClassicalOneTimeId ++ pushU32 d.nextPqOneTimeId ++
    d.deviceSigningPublic.bytes ++ d.identityPublic.bytes ++ d.deviceSigningSecret.bytes ++
    d.identitySecret.bytes ++ encodeClassicalSigned d.currentClassical ++
    encodePqSigned d.currentPq ++ d.crossSignature.bytes

/-- mirrors :234-291 -/
def encodeDeviceState (P : CryptoProvider) (d : DeviceState) : CryptoResult Bytes := do
  reserve 512
  failIf (d.retired.length ≥ 2 ^ 8) .resourceExhausted
  let classicalCount ← tryU16 d.classicalOneTime.length .resourceExhausted
  let pqCount ← tryU16 d.pqOneTime.length .resourceExhausted
  let pending ← encodePending d.pending
  let output := encodeDeviceHead d ++ UInt8.ofNat d.retired.length ::
    d.retired.flatMap encodeRetired ++ pushU16 classicalCount ++
    d.classicalOneTime.flatMap encodeClassicalOneTime ++ pushU16 pqCount ++
    d.pqOneTime.flatMap encodePqOneTime ++ pending
  let authKey ← deviceAuthKey P d.identitySecret
  let tag ← hmacSha256 P authKey.bytes output
  failIf ((output ++ tag.bytes).length > maxInputBytes) .inputTooLarge
  return output ++ tag.bytes

/-! ## What a decoded device state satisfies -/

/-- The checks of `decode_device_state` and `validate_device_material` on the fields modelled
here. Key pairs are stated as what they are used for: ML-KEM and Ed25519 secrets of a decoded
state belong to the public halves stored beside them.
mirrors :430-590 -/
structure DeviceState.Valid (P : CryptoProvider) (d : DeviceState) : Prop where
  bundleVersion_ne : d.bundleVersion ≠ 0
  identity : P.x25519Public d.identitySecret = .ok d.identityPublic
  signing : SigningPair P d.deviceSigningSecret d.deviceSigningPublic
  classical : ∀ id k, d.signedClassical id = some k →
    P.x25519Public k.secretKey = .ok k.publicKey
  pq : ∀ id k, d.signedPq id = some k → KemPair P k.secretKey k.publicKey
  classicalOneTime : ∀ k ∈ d.classicalOneTime, P.x25519Public k.secretKey = .ok k.publicKey
  pqOneTime : ∀ k ∈ d.pqOneTime, KemPair P k.secretKey k.publicKey
  classicalOneTime_sorted : d.classicalOneTime.Pairwise (·.id < ·.id)
  pqOneTime_sorted : d.pqOneTime.Pairwise (·.id < ·.id)
  encodes : ∃ b, encodeDeviceState P d = .ok b

/-! ## Consumption -/

section Sorted

variable {α : Type} {key : α → UInt32}

theorem eraseP_eq_filter_of_sorted {l : List α} (h : l.Pairwise (fun a b => key a < key b))
    (id : UInt32) : l.eraseP (fun k => key k = id) = l.filter (fun k => key k ≠ id) := by
  induction l with
  | nil => rfl
  | cons a l ih =>
    obtain ⟨ha, hl⟩ := List.pairwise_cons.mp h
    by_cases hid : key a = id
    · have hrest : l.filter (fun k => key k ≠ id) = l := by
        apply List.filter_eq_self.mpr
        intro b hb
        have := ha b hb
        simp only [decide_eq_true_eq, ne_eq]
        rintro rfl
        rw [hid] at this
        exact absurd this (UInt32.lt_irrefl _)
      simpa [hid] using hrest.symm
    · simp [hid, ih hl]

end Sorted

variable {d : DeviceState}

theorem consumeClassicalOneTime_eq
    (hd : d.classicalOneTime.Pairwise (·.id < ·.id)) {id : UInt32} {k : ClassicalOneTimeKey}
    (hk : d.findClassicalOneTime id = some k) :
    d.consumeClassicalOneTime id =
      .ok { d with classicalOneTime := d.classicalOneTime.filter (·.id ≠ id) } := by
  unfold DeviceState.consumeClassicalOneTime
  rw [hk, okOr_some, eraseP_eq_filter_of_sorted hd id]; rfl

theorem consumePqOneTime_eq (hd : d.pqOneTime.Pairwise (·.id < ·.id))
    {id : UInt32} {k : PqOneTimeKey} (hk : d.findPqOneTime id = some k) :
    d.consumePqOneTime id = .ok { d with pqOneTime := d.pqOneTime.filter (·.id ≠ id) } := by
  unfold DeviceState.consumePqOneTime
  rw [hk, okOr_some, eraseP_eq_filter_of_sorted hd id]; rfl

def DeviceState.withoutOneTime (d : DeviceState) (classical pq : Option UInt32) : DeviceState :=
  { d with
    classicalOneTime := d.classicalOneTime.filter fun k => some k.id ≠ classical
    pqOneTime := d.pqOneTime.filter fun k => some k.id ≠ pq }

/-! ## Fewer one-time keys still encode -/

@[simp] theorem length_flatMap_encodeClassicalOneTime (l : List ClassicalOneTimeKey) :
    (l.flatMap encodeClassicalOneTime).length = 68 * l.length := by
  induction l with
  | nil => rfl
  | cons k l ih =>
    simp [encodeClassicalOneTime]; omega

@[simp] theorem length_flatMap_encodePqOneTime (l : List PqOneTimeKey) :
    (l.flatMap encodePqOneTime).length = 3588 * l.length := by
  induction l with
  | nil => rfl
  | cons k l ih =>
    simp [encodePqOneTime]; omega

theorem length_encodeDeviceHead (d : DeviceState) : (encodeDeviceHead d).length = 4024 := by
  simp [encodeDeviceHead, encodeClassicalSigned, encodePqSigned, deviceV2Magic, ascii]

variable {P : CryptoProvider}

def encodedLength (d : DeviceState) (pending : Bytes) : Nat :=
  (encodeDeviceHead d).length + (d.retired.flatMap encodeRetired).length +
    68 * d.classicalOneTime.length + 3588 * d.pqOneTime.length + pending.length + 37

theorem encodeDeviceState_isOk : (∃ b, encodeDeviceState P d = .ok b) ↔
      d.retired.length < 2 ^ 8 ∧ d.classicalOneTime.length < 2 ^ 16 ∧ d.pqOneTime.length < 2 ^ 16 ∧
        ∃ p, encodePending d.pending = .ok p ∧ encodedLength d p ≤ maxInputBytes := by
  unfold encodeDeviceState encodedLength deviceAuthKey
  rw [hkdfSha256_eq P (by simp [maxInputBytes]) (by simp [maxInputBytes]) (by decide) (by decide)]
  simp only [ok_steps, tryU16_eq_ok]
  constructor
  · rintro ⟨_, _, -, _, hret, c, ⟨hc, -⟩, q, ⟨hq, -⟩, p, hp, _, -, t, -, _, hlen, -⟩
    simp only [List.length_append, List.length_cons, length_pushU16,
      length_flatMap_encodeClassicalOneTime, length_flatMap_encodePqOneTime,
      Block.length_bytes] at hlen
    exact ⟨by omega, hc, hq, p, hp, by omega⟩
  · rintro ⟨hret, hc, hq, p, hp, hlen⟩
    refine ⟨_, (), rfl, (), by omega, _, ⟨hc, rfl⟩, _, ⟨hq, rfl⟩, p, hp, _, rfl, _,
      hmacSha256_eq P (by simp [maxInputBytes]) ?_, (), ?_, rfl⟩
    all_goals
      simp only [List.length_append, List.length_cons, length_pushU16,
        length_flatMap_encodeClassicalOneTime, length_flatMap_encodePqOneTime, Block.length_bytes]
      omega

theorem encodeDeviceState_withoutOneTime (hd : d.Valid P) (classical pq : Option UInt32) :
    ∃ b, encodeDeviceState P (d.withoutOneTime classical pq) = .ok b := by
  obtain ⟨hret, hc, hq, p, hp, hlen⟩ := encodeDeviceState_isOk.mp hd.encodes
  have hcl : (d.withoutOneTime classical pq).classicalOneTime.length ≤ d.classicalOneTime.length :=
    List.length_filter_le _ _
  have hpq : (d.withoutOneTime classical pq).pqOneTime.length ≤ d.pqOneTime.length :=
    List.length_filter_le _ _
  have hhead : encodeDeviceHead (d.withoutOneTime classical pq) = encodeDeviceHead d := rfl
  have hretired : (d.withoutOneTime classical pq).retired = d.retired := rfl
  refine encodeDeviceState_isOk.mpr ⟨hret, by omega, by omega, p, hp, ?_⟩
  unfold encodedLength at hlen ⊢
  rw [hhead, hretired]
  omega

theorem DeviceState.Valid.withoutOneTime (hd : d.Valid P)
    (classical pq : Option UInt32) : (d.withoutOneTime classical pq).Valid P where
  bundleVersion_ne := hd.bundleVersion_ne
  identity := hd.identity
  signing := hd.signing
  classical := hd.classical
  pq := hd.pq
  classicalOneTime k hk := hd.classicalOneTime k (List.mem_of_mem_filter hk)
  pqOneTime k hk := hd.pqOneTime k (List.mem_of_mem_filter hk)
  classicalOneTime_sorted := hd.classicalOneTime_sorted.filter _
  pqOneTime_sorted := hd.pqOneTime_sorted.filter _
  encodes := encodeDeviceState_withoutOneTime hd classical pq

/-! ## A device of the sum provider -/

def sumDevice (seed : UInt8) : DeviceState where
  userId := Block.fill 16 seed
  registrationId := 1
  bundleVersion := 1
  nextClassicalOneTimeId := 8
  nextPqOneTimeId := 8
  deviceSigningPublic := Block.fill 32 seed
  identityPublic := Block.fill 32 seed
  deviceSigningSecret := Block.fill 32 seed
  identitySecret := Block.fill 32 seed
  currentClassical := ⟨1, 0, Block.fill 32 seed, Block.fill 64 0, Block.fill 32 seed⟩
  currentPq := ⟨1, 0, Block.fill 1184 seed, Block.fill 64 0, Block.fill 2400 seed⟩
  crossSignature := Block.fill 64 0
  retired := []
  classicalOneTime := [⟨7, Block.fill 32 seed, Block.fill 32 seed⟩]
  pqOneTime := [⟨7, Block.fill 1184 seed, Block.fill 2400 seed⟩]
  pending := none

theorem sumDevice_valid (seed : UInt8) : (sumDevice seed).Valid sumProvider where
  bundleVersion_ne := by simp [sumDevice]
  identity := rfl
  signing _ _ _ := rfl
  classical id k h := by
    obtain ⟨-, hk⟩ := Option.ite_none_right_eq_some.mp h
    cases hk; rfl
  pq id k h coins ct ss hk := by cases hk; rfl
  classicalOneTime k hk := by
    simp only [sumDevice, List.mem_singleton] at hk
    subst hk; rfl
  pqOneTime k hk coins ct ss h := by cases h; rfl
  classicalOneTime_sorted := List.pairwise_singleton _ _
  pqOneTime_sorted := List.pairwise_singleton _ _
  encodes := by
    have hlen : encodedLength (sumDevice seed) [0] = 4024 + 0 + 68 + 3588 + 1 + 37 := by
      rw [encodedLength, length_encodeDeviceHead]; rfl
    exact encodeDeviceState_isOk.mpr ⟨Nat.two_pow_pos 8, by simp [sumDevice], by simp [sumDevice],
      [0], rfl, hlen ▸ by decide⟩

end CommPlatform.L2
