import CommPlatform.L2Crypto.DeviceCodec

/-!
# Replenishment and rotation of prekeys

The mutating operations of `prekey_state.rs`: new one-time prekeys with ids
from two high-water marks, the weekly rotation of the signed pair, the
commit of an upload and the pruning of retired pairs. An operation that
fails leaves the stored state as it was, since its caller drops the copy it
worked on.

* `generate_spec`: the ids a batch takes, and that it takes none past the
  last one.
* `Readable` and `Closed` are kept by each operation
  (`prepareReplenishment_closed`, `prepareRotation_closed`,
  `commitPendingUpload_closed`, `pruneRetired_closed`).

Bare line numbers are those of `prekey_state.rs`.
-/
namespace CommPlatform.L2

open CommPlatform.Core L1
open L1.Reader hiding failIf
open List (forall_mem_append length_append)

def maxBackendClassicalOneTime : UInt16 := 200
def maxBackendPqOneTime : UInt16 := 100

def uploadMagic : Bytes := ascii "CPKUV001"

/-- The id and the next high-water mark.
mirrors :209-220 -/
def takeNextId (highWater : UInt32) : CryptoResult (UInt32 × UInt32) := do
  failIf (highWater > keyIdMax) .stateViolation
  if highWater = keyIdMax then return (highWater, 0xffffffff)
  failIf (highWater.toNat + 1 ≥ 2 ^ 32) .stateViolation
  return (highWater, highWater + 1)

/-! ## Replenishment -/

/-- A generation loop: `make` draws a key for each id taken from the high-water mark. Returns the
keys, the next mark and the rest of the entropy. -/
def generate {K : Type} (make : UInt32 → Bytes → CryptoResult (K × Bytes)) :
    Nat → UInt32 → Bytes → CryptoResult (List K × UInt32 × Bytes)
  | 0, next, entropy => .ok ([], next, entropy)
  | n + 1, next, entropy => do
    let (id, next) ← takeNextId next
    let (key, entropy) ← make id entropy
    let (rest, next, entropy) ← generate make n next entropy
    return (key :: rest, next, entropy)

/-- mirrors :679-687 -/
def makeClassical (P : CryptoProvider) (id : UInt32) (entropy : Bytes) :
    CryptoResult (ClassicalOneTimeKey × Bytes) := do
  let (secret, entropy) ← randomArray 32 entropy
  let publicKey ← P.x25519Public secret
  return (⟨id, publicKey, secret⟩, entropy)

/-- mirrors :692-698 -/
def makePq (P : PrekeyProvider) (id : UInt32) (entropy : Bytes) :
    CryptoResult (PqOneTimeKey × Bytes) := do
  let (coins, entropy) ← randomArray 64 entropy
  let (publicKey, secret) ← P.mlkem768Keypair coins
  return (⟨id, publicKey, secret⟩, entropy)

structure GeneratedBatch where
  batchId : Block 16
  classical : List ClassicalOneTimeKey
  nextClassical : UInt32
  pq : List PqOneTimeKey
  nextPq : UInt32

/-- mirrors :674-699 -/
def generateBatch (P : PrekeyProvider) (d : DeviceState) (addClassical addPq : Nat)
    (entropy : Bytes) : CryptoResult GeneratedBatch := do
  let (batchId, entropy) ← randomArray 16 entropy
  let (classical, nextClassical, entropy) ←
    generate (makeClassical P.toCryptoProvider) addClassical d.nextClassicalOneTimeId entropy
  let (pq, nextPq, _) ← generate (makePq P) addPq d.nextPqOneTimeId entropy
  return ⟨batchId, classical, nextClassical, pq, nextPq⟩

/-- The upload of a batch.
mirrors :702-722 -/
def replenishProjection (bundleVersion : UInt32) (g : GeneratedBatch) : CryptoResult Bytes := do
  let classicalCount ← tryU16 g.classical.length .resourceExhausted
  let pqCount ← tryU16 g.pq.length .resourceExhausted
  return uploadMagic ++ g.batchId.bytes ++ uploadReplenish :: pushU32 bundleVersion ++
    pushU16 classicalCount ++ g.classical.flatMap (fun k => pushU32 k.id ++ k.publicKey.bytes) ++
    pushU16 pqCount ++ g.pq.flatMap (fun k => pushU32 k.id ++ k.publicKey.bytes)

/-- The state with a batch added; the lists are sorted by id.
mirrors :700-727 -/
def DeviceState.withBatch (d : DeviceState) (g : GeneratedBatch) (projection : Bytes) :
    DeviceState :=
  { d with
    nextClassicalOneTimeId := g.nextClassical
    nextPqOneTimeId := g.nextPq
    classicalOneTime := (d.classicalOneTime ++ g.classical).insertionSort (·.id ≤ ·.id)
    pqOneTime := (d.pqOneTime ++ g.pq).insertionSort (·.id ≤ ·.id)
    pending := some ⟨g.batchId, uploadReplenish, projection⟩ }

/-- mirrors :649-729 -/
def prepareReplenishment (P : PrekeyProvider) (d : DeviceState)
    (serverClassicalCount serverPqCount targetClassical targetPq : UInt16) (entropy : Bytes) :
    CryptoResult (DeviceState × Block 16 × Bytes) :=
  match d.pending with
  | some pending => .ok (d, pending.batchId, pending.exactProjection)
  | none => do
    failIf (targetClassical > maxBackendClassicalOneTime ∨ targetPq > maxBackendPqOneTime ∨
      serverClassicalCount > maxBackendClassicalOneTime ∨ serverPqCount > maxBackendPqOneTime)
      .invalidArgument
    -- natural subtraction saturates as `saturating_sub` does
    let addClassical := targetClassical.toNat - serverClassicalCount.toNat
    let addPq := targetPq.toNat - serverPqCount.toNat
    failIf (d.classicalOneTime.length + addClassical > maxClassicalOneTime ∨
      d.pqOneTime.length + addPq > maxPqOneTime) .resourceExhausted
    let g ← generateBatch P d addClassical addPq entropy
    let projection ← replenishProjection d.bundleVersion g
    return (d.withBatch g projection, g.batchId, projection)

/-- mirrors :731-741 -/
def commitPendingUpload (d : DeviceState) (batchId : Block 16) : CryptoResult DeviceState := do
  let pending ← okOr d.pending .stateViolation
  failIf (pending.batchId ≠ batchId) .stateViolation
  return { d with pending := none }

/-! ## Rotation -/

/-- mirrors :194-197 -/
def DeviceState.pruneRetired (d : DeviceState) (coarseDay : UInt32) : DeviceState :=
  { d with retired := d.retired.filter fun pair => coarseDay ≤ pair.retainThroughDay }

def satAdd (a b : UInt32) : UInt32 := if a.toNat + b.toNat < 2 ^ 32 then a + b else 0xffffffff

/-- `checked_add(1)` below a bound. -/
def nextIdBelow (limit id : UInt32) : CryptoResult UInt32 := do
  failIf (id.toNat + 1 ≥ 2 ^ 32 ∨ id + 1 > limit) .stateViolation
  return id + 1

def identityMagic : Bytes := ascii "CPIDV001"

structure IdentityPackage where
  flags : UInt8
  masterPublic : Key
  selfSigningPublic : Key
  userSigningPublic : Key
  masterSignature : Block 64
  masterSecret : Key
  selfSigningSecret : Key
  userSigningSecret : Key
  recoverySecret : Bytes
  backup : Bytes
  finished : Bool

/-- mirrors :874-892 -/
def readIdentityPackage (expectedUserId : Block 16) : Reader IdentityPackage := do
  let magic ← take 8
  Reader.failIf (magic ≠ identityMagic) .unsupportedVersion
  let flags ← u8
  Reader.failIf (flags &&& ~~~0x03 ≠ 0) .authenticationFailed
  let userId ← take 16
  Reader.failIf (userId ≠ expectedUserId.bytes) .authenticationFailed
  let masterPublic ← array 32
  let selfSigningPublic ← array 32
  let userSigningPublic ← array 32
  let masterSignature ← array 64
  let recoveryLen ← u16
  let backupLen ← u32
  let masterSecret ← array 32
  let selfSigningSecret ← array 32
  let userSigningSecret ← array 32
  let recoverySecret ← take recoveryLen.toNat
  let backup ← take backupLen.toNat
  let finished ← isFinished
  return ⟨flags, masterPublic, selfSigningPublic, userSigningPublic, masterSignature, masterSecret,
    selfSigningSecret, userSigningSecret, recoverySecret, backup, finished⟩

/-- mirrors :869-921 -/
def parseSelfSigningSecret (P : PrekeyProvider) (package : Bytes) (expectedUserId : Block 16) :
    CryptoResult Key := do
  let p ← parse (readIdentityPackage expectedUserId) package
  failIf (¬ p.finished ∨ decide (p.flags &&& 1 ≠ 0) = p.recoverySecret.isEmpty ∨
    decide (p.flags &&& 2 ≠ 0) = p.backup.isEmpty ∨
    P.ed25519Public p.masterSecret ≠ p.masterPublic ∨
    P.ed25519Public p.selfSigningSecret ≠ p.selfSigningPublic ∨
    P.ed25519Public p.userSigningSecret ≠ p.userSigningPublic) .authenticationFailed
  let signed ← encoderFields masterSignatureDomain
    [expectedUserId.bytes, p.selfSigningPublic.bytes, p.userSigningPublic.bytes]
  P.ed25519Verify p.masterPublic signed p.masterSignature
  return p.selfSigningSecret

/-- What one rotation draws and signs. -/
structure RotatedPair where
  classical : ClassicalSignedKey
  pq : PqSignedKey
  crossSignature : Block 64
  bundleVersion : UInt32
  batchId : Block 16

/-- mirrors :765-848 -/
def generatePair (P : PrekeyProvider) (d : DeviceState) (identityPackage : Bytes)
    (deviceId : Block 16) (coarseDay : UInt32) (entropy : Bytes) : CryptoResult RotatedPair := do
  let selfSigningSecret ← parseSelfSigningSecret P identityPackage d.userId
  let spkId ← nextIdBelow keyIdMax d.currentClassical.id
  let pqId ← nextIdBelow keyIdMax d.currentPq.id
  let bundleVersion ← nextIdBelow 0xffffffff d.bundleVersion
  let (spkSecret, entropy) ← randomArray 32 entropy
  let spkPublic ← P.x25519Public spkSecret
  let signed ← encodeSignedPrekey d.userId spkId spkPublic
  let spkSignature ← P.ed25519Sign d.deviceSigningSecret signed
  let (coins, entropy) ← randomArray 64 entropy
  let (pqPublic, pqSecret) ← P.mlkem768Keypair coins
  let pqSigned ← encodePqSignedPrekey d.userId pqId pqPublic
  let pqSignature ← P.ed25519Sign d.deviceSigningSecret pqSigned
  let crossBytes ← encoderFields crossSignatureDomain
    [d.userId.bytes, deviceId.bytes, d.ikPublic.bytes, pushU32 spkId, spkPublic.bytes, pushU32 pqId,
      pqPublic.bytes, pushU32 d.registrationId, pushU32 bundleVersion]
  let crossSignature ← P.ed25519Sign selfSigningSecret crossBytes
  let (batchId, _) ← randomArray 16 entropy
  return {
    classical := ⟨spkId, coarseDay, spkPublic, spkSignature, spkSecret⟩
    pq := ⟨pqId, coarseDay, pqPublic, pqSignature, pqSecret⟩
    crossSignature := crossSignature
    bundleVersion := bundleVersion
    batchId := batchId }

/-- The upload of a rotation.
mirrors :849-860 -/
def rotationProjection (r : RotatedPair) : Bytes :=
  uploadMagic ++ r.batchId.bytes ++ uploadRotation :: pushU32 r.bundleVersion ++
    pushU32 r.classical.id ++ r.classical.publicKey.bytes ++ r.classical.signature.bytes ++
    pushU32 r.pq.id ++ r.pq.publicKey.bytes ++ r.pq.signature.bytes ++ r.crossSignature.bytes

/-- The state with a new current pair; the old one is retired for eight days.
mirrors :838-865 -/
def DeviceState.withPair (d : DeviceState) (r : RotatedPair) (coarseDay : UInt32) : DeviceState :=
  { d with
    currentClassical := r.classical
    currentPq := r.pq
    retired := d.retired ++ [⟨satAdd coarseDay 8, d.currentClassical, d.currentPq⟩]
    bundleVersion := r.bundleVersion
    crossSignature := r.crossSignature
    pending := some ⟨r.batchId, uploadRotation, rotationProjection r⟩ }

/-- mirrors :743-867 -/
def prepareRotation (P : PrekeyProvider) (d : DeviceState) (identityPackage : Bytes)
    (deviceId : Block 16) (coarseDay : UInt32) (entropy : Bytes) :
    CryptoResult (DeviceState × Block 16 × Bytes) :=
  match d.pending with
  | some pending =>
    if pending.kind = uploadRotation then .ok (d, pending.batchId, pending.exactProjection)
    else .error .stateViolation
  | none => do
    failIf (coarseDay < satAdd d.currentClassical.createdDay 7 ∨
      coarseDay < satAdd d.currentPq.createdDay 7) .stateViolation
    let pruned := d.pruneRetired coarseDay
    failIf (pruned.retired.length ≥ maxRetiredSignedPairs) .resourceExhausted
    let r ← generatePair P pruned identityPackage deviceId coarseDay entropy
    return (pruned.withPair r coarseDay, r.batchId, rotationProjection r)

/-- What persistence is told of a state: the counts, the bundle version and the creation day.
mirrors pairwise.rs:1776-1795 -/
def appendDeviceSummary (d : DeviceState) : CryptoResult Bytes := do
  let classicalCount ← tryU16 d.classicalOneTime.length .resourceExhausted
  let pqCount ← tryU16 d.pqOneTime.length .resourceExhausted
  failIf (d.currentClassical.createdDay ≠ d.currentPq.createdDay) .stateViolation
  return pushU16 classicalCount ++ pushU16 pqCount ++ pushU32 d.bundleVersion ++
    pushU32 d.currentClassical.createdDay

/-! ## Ids -/

theorem takeNextId_spec {next id next' : UInt32} (h : takeNextId next = .ok (id, next')) :
    id = next ∧ next ≤ keyIdMax ∧ next < next' ∧ validHighWater next' = true ∧
      (next' = 0xffffffff ∨ next'.toNat = next.toNat + 1) := by
  simp only [takeNextId, unit_bind_eq_ok, failIf_eq_ok, UInt32.not_lt] at h
  obtain ⟨hle, h⟩ := h
  have hk : keyIdMax.toNat = 2147483647 := by decide
  have hle' := UInt32.le_iff_toNat_le.mp hle
  split at h
  · next heq =>
    cases h
    subst heq
    exact ⟨rfl, hle, by decide, by decide, .inl rfl⟩
  · next hne =>
    obtain ⟨-, h⟩ := unit_bind_eq_ok.mp h
    cases h
    have hlt : next.toNat < keyIdMax.toNat := by
      have := mt UInt32.toNat_inj.mp hne
      omega
    have hone : (1 : UInt32).toNat = 1 := by decide
    have hsucc : (next + 1).toNat = next.toNat + 1 := by
      rw [UInt32.toNat_add]; omega
    refine ⟨rfl, hle, UInt32.lt_iff_toNat_lt.mpr (by omega), ?_, .inr hsucc⟩
    simp only [validHighWater, Bool.or_eq_true, decide_eq_true_eq, UInt32.le_iff_toNat_le]
    omega

variable {e e' : Bytes} {next next' : UInt32}

/-- What a generation loop draws: as many keys as asked for, on strictly increasing ids from the
high-water mark on, none past the last id, all below the next mark. -/
structure Generated {K : Type} (key : K → UInt32) (n : Nat) (next : UInt32) (keys : List K)
    (next' : UInt32) : Prop where
  length : keys.length = n
  sorted : keys.Pairwise (key · < key ·)
  fresh : ∀ k ∈ keys, next ≤ key k ∧ key k < next' ∧ key k ≤ keyIdMax
  mark : next ≤ next'
  valid : validHighWater next = true → validHighWater next' = true
  room : n = 0 ∨ next.toNat + n ≤ keyIdMax.toNat + 1

variable {K : Type} {n : Nat} {keys : List K}
  {key : K → UInt32} {make : UInt32 → Bytes → CryptoResult (K × Bytes)}

theorem generate_spec (hmake : ∀ id e k e', make id e = .ok (k, e') → key k = id)
    (h : generate make n next e = .ok (keys, next', e')) :
    Generated key n next keys next' := by
  induction n generalizing next e keys with
  | zero =>
    cases h
    exact ⟨rfl, .nil, nofun, UInt32.le_refl _, id, .inl rfl⟩
  | succ n ih =>
    obtain ⟨⟨id, mid⟩, hid, h⟩ := bind_eq_ok.mp h
    obtain ⟨⟨k, e1⟩, hk, h⟩ := bind_eq_ok.mp h
    obtain ⟨⟨rest, mark, e2⟩, hrest, h⟩ := bind_eq_ok.mp h
    cases h
    obtain ⟨rfl, hle, hlt, hvalid, hmid⟩ := takeNextId_spec hid
    have hg := ih hrest
    have hkey := hmake _ _ _ _ hk
    refine ⟨by simp [hg.length], ?_, ?_, ?_, fun _ => hg.valid hvalid, .inr ?_⟩
    · refine List.pairwise_cons.mpr ⟨fun k' hk' => ?_, hg.sorted⟩
      rw [hkey]
      exact UInt32.lt_of_lt_of_le hlt (hg.fresh k' hk').1
    · refine List.forall_mem_cons.mpr ⟨?_, fun k' hk' => ?_⟩
      · rw [hkey]
        exact ⟨UInt32.le_refl _, UInt32.lt_of_lt_of_le hlt hg.mark, hle⟩
      · obtain ⟨h1, h2⟩ := hg.fresh k' hk'
        exact ⟨UInt32.le_trans (UInt32.le_of_lt hlt) h1, h2⟩
    · exact UInt32.le_trans (UInt32.le_of_lt hlt) hg.mark
    · have hle' := UInt32.le_iff_toNat_le.mp hle
      rcases hg.room with h0 | hroom
      · omega
      · rcases hmid with hmid | hmid
        · have : mid.toNat = 4294967295 := by rw [hmid]; decide
          have : keyIdMax.toNat = 2147483647 := by decide
          omega
        · omega

theorem generate_forall {Q : K → Prop} (hmake : ∀ id e k e', make id e = .ok (k, e') → Q k)
    (h : generate make n next e = .ok (keys, next', e')) :
    ∀ k ∈ keys, Q k := by
  induction n generalizing next e keys with
  | zero => cases h; nofun
  | succ n ih =>
    obtain ⟨⟨id, mid⟩, hid, h⟩ := bind_eq_ok.mp h
    obtain ⟨⟨k, e1⟩, hk, h⟩ := bind_eq_ok.mp h
    obtain ⟨⟨rest, mark, e2⟩, hrest, h⟩ := bind_eq_ok.mp h
    cases h
    exact List.forall_mem_cons.mpr ⟨hmake _ _ _ _ hk, ih hrest⟩

variable {id : UInt32}

theorem makeClassical_eq_ok {P : CryptoProvider}
    {k : ClassicalOneTimeKey} (h : makeClassical P id e = .ok (k, e')) :
    k.id = id ∧ P.x25519Public k.secretKey = .ok k.publicKey := by
  obtain ⟨⟨secret, e1⟩, -, h⟩ := bind_eq_ok.mp h
  obtain ⟨publicKey, hp, h⟩ := bind_eq_ok.mp h
  cases h
  exact ⟨rfl, hp⟩

variable {P : PrekeyProvider}

theorem makePq_eq_ok {k : PqOneTimeKey} (h : makePq P id e = .ok (k, e')) :
    k.id = id ∧ ∃ coins, P.mlkem768Keypair coins = .ok (k.publicKey, k.secretKey) := by
  obtain ⟨⟨coins, e1⟩, -, h⟩ := bind_eq_ok.mp h
  obtain ⟨⟨publicKey, secret⟩, hp, h⟩ := bind_eq_ok.mp h
  cases h
  exact ⟨rfl, coins, hp⟩

structure GeneratedBatch.From (g : GeneratedBatch) (P : PrekeyProvider) (d : DeviceState)
    (addClassical addPq : Nat) : Prop where
  classical : Generated (·.id) addClassical d.nextClassicalOneTimeId g.classical g.nextClassical
  pq : Generated (·.id) addPq d.nextPqOneTimeId g.pq g.nextPq
  classicalKeys : ∀ k ∈ g.classical, P.x25519Public k.secretKey = .ok k.publicKey
  pqKeys : ∀ k ∈ g.pq, ∃ coins, P.mlkem768Keypair coins = .ok (k.publicKey, k.secretKey)

variable {d : DeviceState} {addClassical addPq : Nat} {entropy : Bytes} {g : GeneratedBatch}

theorem generateBatch_from
    (h : generateBatch P d addClassical addPq entropy = .ok g) : g.From P d addClassical addPq := by
  obtain ⟨⟨batchId, e1⟩, -, h⟩ := bind_eq_ok.mp h
  obtain ⟨⟨classical, nc, e2⟩, hc, h⟩ := bind_eq_ok.mp h
  obtain ⟨⟨pq, np, e3⟩, hp, h⟩ := bind_eq_ok.mp h
  cases h
  exact ⟨generate_spec (fun _ _ _ _ hk => (makeClassical_eq_ok hk).1) hc,
    generate_spec (fun _ _ _ _ hk => (makePq_eq_ok hk).1) hp,
    generate_forall (fun _ _ _ _ hk => (makeClassical_eq_ok hk).2) hc,
    generate_forall (fun _ _ _ _ hk => (makePq_eq_ok hk).2) hp⟩

/-! ## What an operation does -/

variable {sc sp tc tp : UInt16} {batch : Block 16} {projection : Bytes}

theorem prepareReplenishment_cases {d d' : DeviceState}
    (h : prepareReplenishment P d sc sp tc tp entropy = .ok (d', batch, projection)) :
    (∃ p, d.pending = some p ∧ d' = d) ∨
    (d.pending = none ∧ tc.toNat ≤ 200 ∧ tp.toNat ≤ 100 ∧
      d.classicalOneTime.length + (tc.toNat - sc.toNat) ≤ maxClassicalOneTime ∧
      d.pqOneTime.length + (tp.toNat - sp.toNat) ≤ maxPqOneTime ∧
      ∃ g, generateBatch P d (tc.toNat - sc.toNat) (tp.toNat - sp.toNat) entropy = .ok g ∧
        replenishProjection d.bundleVersion g = .ok projection ∧
        d' = d.withBatch g projection) := by
  unfold prepareReplenishment at h
  split at h
  · next p hp =>
    cases h
    exact .inl ⟨p, hp, rfl⟩
  · next hp =>
    simp only [unit_bind_eq_ok, failIf_eq_ok, not_or, UInt16.not_lt, Nat.not_lt] at h
    obtain ⟨⟨htc, htp, -, -⟩, ⟨hc, hq⟩, h⟩ := h
    obtain ⟨g, hg, h⟩ := bind_eq_ok.mp h
    obtain ⟨projection', hpr, h⟩ := bind_eq_ok.mp h
    cases h
    exact .inr ⟨hp, UInt16.le_iff_toNat_le.mp htc, UInt16.le_iff_toNat_le.mp htp, hc, hq, g, hg,
      hpr, rfl⟩

variable {day : UInt32} {deviceId : Block 16} {package : Bytes}

theorem prepareRotation_cases {d d' : DeviceState}
    (h : prepareRotation P d package deviceId day entropy = .ok (d', batch, projection)) :
    (∃ p, d.pending = some p ∧ d' = d) ∨
    (d.pending = none ∧ (d.pruneRetired day).retired.length < maxRetiredSignedPairs ∧
      ∃ r, generatePair P (d.pruneRetired day) package deviceId day entropy = .ok r ∧
        d' = (d.pruneRetired day).withPair r day) := by
  unfold prepareRotation at h
  split at h
  · next p hp =>
    split at h
    · cases h
      exact .inl ⟨p, hp, rfl⟩
    · cases h
  · next hp =>
    simp only [unit_bind_eq_ok, failIf_eq_ok, Nat.not_le] at h
    obtain ⟨-, hlen, h⟩ := h
    obtain ⟨r, hr, h⟩ := bind_eq_ok.mp h
    cases h
    exact .inr ⟨hp, hlen, r, hr, rfl⟩

theorem nextIdBelow_eq_ok {limit id next : UInt32} (h : nextIdBelow limit id = .ok next) :
    next ≤ limit ∧ next.toNat = id.toNat + 1 := by
  simp only [nextIdBelow, unit_bind_eq_ok, failIf_eq_ok, not_or, Nat.not_le, UInt32.not_lt,
    pure_eq_ok, Except.ok.injEq] at h
  obtain ⟨⟨hlt, hle⟩, rfl⟩ := h
  have hone : (1 : UInt32).toNat = 1 := by decide
  exact ⟨hle, by rw [UInt32.toNat_add]; omega⟩

structure RotatedPair.From (r : RotatedPair) (P : PrekeyProvider) (d : DeviceState)
    (coarseDay : UInt32) : Prop where
  classicalId : r.classical.id ≤ keyIdMax ∧ r.classical.id.toNat = d.currentClassical.id.toNat + 1
  pqId : r.pq.id ≤ keyIdMax ∧ r.pq.id.toNat = d.currentPq.id.toNat + 1
  bundleVersion : r.bundleVersion.toNat = d.bundleVersion.toNat + 1
  classicalDay : r.classical.createdDay = coarseDay
  pqDay : r.pq.createdDay = coarseDay
  classicalKey : P.x25519Public r.classical.secretKey = .ok r.classical.publicKey
  pqKey : ∃ coins, P.mlkem768Keypair coins = .ok (r.pq.publicKey, r.pq.secretKey)
  classicalSigned : ∃ m, encodeSignedPrekey d.userId r.classical.id r.classical.publicKey = .ok m ∧
    P.ed25519Sign d.deviceSigningSecret m = .ok r.classical.signature
  pqSigned : ∃ m, encodePqSignedPrekey d.userId r.pq.id r.pq.publicKey = .ok m ∧
    P.ed25519Sign d.deviceSigningSecret m = .ok r.pq.signature

theorem generatePair_from {r : RotatedPair}
    (h : generatePair P d package deviceId day entropy = .ok r) : r.From P d day := by
  simp only [generatePair, ok_steps] at h
  obtain ⟨_, -, spkId, hspk, pqId, hpq, version, hv, ⟨secret, _⟩, -, spkPublic, hpub, signed, hsigned,
    sig, hsig, ⟨coins, _⟩, -, ⟨pqPublic, pqSecret⟩, hkem, pqSigned, hpqSigned, pqSig, hpqSig,
    _, -, _, -, _, -, rfl⟩ := h
  exact ⟨nextIdBelow_eq_ok hspk, nextIdBelow_eq_ok hpq, (nextIdBelow_eq_ok hv).2, rfl, rfl, hpub,
    ⟨coins, hkem⟩, ⟨signed, hsigned, hsig⟩, ⟨pqSigned, hpqSigned, hpqSig⟩⟩

/-! ## Replenishment keeps a state closed -/

theorem Generated.sorted_append {held keys : List K} (hg : Generated key n next keys next')
    (hs : held.Pairwise (key · < key ·)) (hlt : ∀ k ∈ held, key k < next) :
    (held ++ keys).Pairwise (key · < key ·) :=
  List.pairwise_append.mpr ⟨hs, hg.sorted, fun a ha b hb =>
    UInt32.lt_of_lt_of_le (hlt a ha) (hg.fresh b hb).1⟩

theorem insertionSort_of_sorted {l : List K}
    (h : l.Pairwise (key · < key ·)) : l.insertionSort (fun a b => key a ≤ key b) = l :=
  (h.imp fun hlt => UInt32.le_of_lt hlt).insertionSort_eq

theorem length_replenishProjection {bundleVersion : UInt32} {b : Bytes}
    (h : replenishProjection bundleVersion g = .ok b) :
    b.length = 33 + 36 * g.classical.length + 1188 * g.pq.length := by
  obtain ⟨_, -, h⟩ := bind_eq_ok.mp h
  obtain ⟨_, -, h⟩ := bind_eq_ok.mp h
  cases h
  have hm : uploadMagic.length = 8 := by decide
  have hc : (g.classical.flatMap fun k => pushU32 k.id ++ k.publicKey.bytes).length =
      36 * g.classical.length := by
    simp [Nat.mul_comm]
  have hp : (g.pq.flatMap fun k => pushU32 k.id ++ k.publicKey.bytes).length =
      1188 * g.pq.length := by
    simp [Nat.mul_comm]
  simp only [length_append, List.length_cons, length_pushU16, length_pushU32, hm, hc, hp,
    Block.length_bytes]
  omega

section Batch

variable {P : PrekeyProvider} {d : DeviceState} {g : GeneratedBatch} {addClassical addPq : Nat}

theorem withBatch_classical (hd : d.Readable) (hg : g.From P d addClassical addPq) (b : Bytes) :
    (d.withBatch g b).classicalOneTime = d.classicalOneTime ++ g.classical :=
  insertionSort_of_sorted (hg.classical.sorted_append hd.classicalSorted
    (DeviceState.fieldsConsistent_iff.mp hd.fields).2.2.2.2.1)

theorem withBatch_pq (hd : d.Readable) (hg : g.From P d addClassical addPq) (b : Bytes) :
    (d.withBatch g b).pqOneTime = d.pqOneTime ++ g.pq :=
  insertionSort_of_sorted (hg.pq.sorted_append hd.pqSorted
    (DeviceState.fieldsConsistent_iff.mp hd.fields).2.2.2.2.2)

variable {b : Bytes} (hg : g.From P d addClassical addPq)
  (hc : d.classicalOneTime.length + addClassical ≤ maxClassicalOneTime)
  (hp : d.pqOneTime.length + addPq ≤ maxPqOneTime) (hb : b.length ≤ maxProjectionBytes)
include hg hc hp hb

theorem DeviceState.Readable.withBatch (hd : d.Readable) : (d.withBatch g b).Readable := by
  obtain ⟨hv, hu, hnc, hnp, hcl, hpl⟩ := DeviceState.fieldsConsistent_iff.mp hd.fields
  have hclassical := withBatch_classical hd hg b
  have hpq := withBatch_pq hd hg b
  refine { hd with
    fields := DeviceState.fieldsConsistent_iff.mpr ⟨hv, hu, hg.classical.valid hnc,
      hg.pq.valid hnp, ?_, ?_⟩
    classicalIds := ?_, pqIds := ?_, classicalSorted := ?_, pqSorted := ?_
    classicalCount := ?_, pqCount := ?_, pending := ?_ }
  · rw [hclassical]
    exact forall_mem_append.mpr
      ⟨fun k hk => UInt32.lt_of_lt_of_le (hcl k hk) hg.classical.mark,
        fun k hk => (hg.classical.fresh k hk).2.1⟩
  · rw [hpq]
    exact forall_mem_append.mpr
      ⟨fun k hk => UInt32.lt_of_lt_of_le (hpl k hk) hg.pq.mark,
        fun k hk => (hg.pq.fresh k hk).2.1⟩
  · rw [hclassical]
    exact forall_mem_append.mpr
      ⟨hd.classicalIds, fun k hk => (hg.classical.fresh k hk).2.2⟩
  · rw [hpq]
    exact forall_mem_append.mpr ⟨hd.pqIds, fun k hk => (hg.pq.fresh k hk).2.2⟩
  · rw [hclassical]
    exact hg.classical.sorted_append hd.classicalSorted hcl
  · rw [hpq]
    exact hg.pq.sorted_append hd.pqSorted hpl
  · rw [hclassical, length_append, hg.classical.length]
    exact hc
  · rw [hpq, length_append, hg.pq.length]
    exact hp
  · rintro _ ⟨⟩
    exact ⟨.inl rfl, hb⟩

theorem DeviceState.Closed.withBatch (hP : P.Lawful) (hd : d.Closed P) :
    (d.withBatch g b).Closed P := by
  obtain ⟨h1, h2, h3, h4, h5, h6⟩ := validateDeviceMaterial_eq_ok.mp hd.material
  refine { hd.toReadable.withBatch hg hc hp hb with
    signing := hd.signing
    identity := hd.identity
    material := validateDeviceMaterial_eq_ok.mpr ⟨h1, h2, h3, h4, ?_, ?_⟩ }
  · rw [withBatch_classical hd.toReadable hg b]
    exact forall_mem_append.mpr ⟨h5, hg.classicalKeys⟩
  · rw [withBatch_pq hd.toReadable hg b]
    refine forall_mem_append.mpr ⟨h6, fun k hk => ?_⟩
    obtain ⟨coins, hk⟩ := hg.pqKeys k hk
    exact hP.embeds coins _ _ hk

end Batch

theorem replenishProjection_le (hg : g.From P d addClassical addPq) (hc : addClassical ≤ 200)
    (hp : addPq ≤ 100) {b : Bytes} (hb : replenishProjection d.bundleVersion g = .ok b) :
    b.length ≤ maxProjectionBytes := by
  have := hg.classical.length
  have := hg.pq.length
  rw [length_replenishProjection hb]
  unfold maxProjectionBytes
  omega

section Operations

variable {P : PrekeyProvider} {d d' : DeviceState} {entropy projection : Bytes} {batch : Block 16}

theorem prepareReplenishment_readable (hd : d.Readable)
    (h : prepareReplenishment P d sc sp tc tp entropy = .ok (d', batch, projection)) :
    d'.Readable := by
  rcases prepareReplenishment_cases h with ⟨_, -, rfl⟩ | ⟨-, htc, htp, hc, hp, g, hg, hb, rfl⟩
  · exact hd
  · have hfrom := generateBatch_from hg
    exact hd.withBatch hfrom hc hp (replenishProjection_le hfrom (by omega) (by omega) hb)

theorem prepareReplenishment_closed (hP : P.Lawful) (hd : d.Closed P)
    (h : prepareReplenishment P d sc sp tc tp entropy = .ok (d', batch, projection)) :
    d'.Closed P := by
  rcases prepareReplenishment_cases h with ⟨_, -, rfl⟩ | ⟨-, htc, htp, hc, hp, g, hg, hb, rfl⟩
  · exact hd
  · have hfrom := generateBatch_from hg
    exact hd.withBatch hfrom hc hp (replenishProjection_le hfrom (by omega) (by omega) hb) hP

theorem commitPendingUpload_eq_ok (h : commitPendingUpload d batch = .ok d') :
    d' = { d with pending := none } := by
  obtain ⟨_, -, h⟩ := bind_eq_ok.mp h
  obtain ⟨-, h⟩ := unit_bind_eq_ok.mp h
  cases h
  rfl

theorem commitPendingUpload_readable (hd : d.Readable)
    (h : commitPendingUpload d batch = .ok d') : d'.Readable := by
  rw [commitPendingUpload_eq_ok h]
  exact { hd with pending := nofun }

theorem commitPendingUpload_closed (hd : d.Closed P)
    (h : commitPendingUpload d batch = .ok d') : d'.Closed P := by
  have hr := commitPendingUpload_readable hd.toReadable h
  rw [commitPendingUpload_eq_ok h] at hr ⊢
  exact { hr with signing := hd.signing, identity := hd.identity, material := hd.material }

/-! ## Rotation keeps a state closed -/

theorem pruneRetired_readable (hd : d.Readable) (day : UInt32) : (d.pruneRetired day).Readable :=
  { hd with
    retiredCount := (List.length_filter_le _ _).trans hd.retiredCount
    retiredIds := fun p hp => hd.retiredIds p (List.mem_of_mem_filter hp)
    retiredSorted := hd.retiredSorted.filter _ }

theorem pruneRetired_closed (hd : d.Closed P) (day : UInt32) : (d.pruneRetired day).Closed P := by
  obtain ⟨h1, h2, h3, h4, h5, h6⟩ := validateDeviceMaterial_eq_ok.mp hd.material
  exact { pruneRetired_readable hd.toReadable day with
    signing := hd.signing
    identity := hd.identity
    material := validateDeviceMaterial_eq_ok.mpr ⟨h1, h2, h3.filter _,
      fun p hp => h4 p (List.mem_of_mem_filter hp), h5, h6⟩ }

theorem rotationProjection_le (r : RotatedPair) :
    (rotationProjection r).length ≤ maxProjectionBytes := by
  have hm : uploadMagic.length = 8 := by decide
  simp [rotationProjection, hm, maxProjectionBytes]

variable {r : RotatedPair}

theorem DeviceState.Readable.withPair (hd : d.Readable)
    (hlen : d.retired.length < maxRetiredSignedPairs) (hr : r.From P d day) :
    (d.withPair r day).Readable := by
  obtain ⟨hv, hrest⟩ := DeviceState.fieldsConsistent_iff.mp hd.fields
  have hclt : d.currentClassical.id < r.classical.id :=
    UInt32.lt_iff_toNat_lt.mpr (by have := hr.classicalId.2; omega)
  have hplt : d.currentPq.id < r.pq.id := UInt32.lt_iff_toNat_lt.mpr (by have := hr.pqId.2; omega)
  refine { hd with
    fields := DeviceState.fieldsConsistent_iff.mpr ⟨?_, hrest⟩
    retiredCount := ?_
    currentIds := ⟨hr.classicalId.1, hr.pqId.1⟩
    retiredIds := ?_
    retiredSorted := ?_
    pending := ?_
    createdDay := hr.classicalDay.trans hr.pqDay.symm }
  · intro h0
    have hzero : r.bundleVersion.toNat = 0 := congrArg UInt32.toNat h0
    have := hr.bundleVersion
    omega
  · simp only [DeviceState.withPair, length_append, List.length_singleton]
    omega
  · refine forall_mem_append.mpr ⟨fun p hp => ?_, List.forall_mem_singleton.mpr ⟨hclt, hplt⟩⟩
    obtain ⟨h1, h2⟩ := hd.retiredIds p hp
    exact ⟨UInt32.lt_trans h1 hclt, UInt32.lt_trans h2 hplt⟩
  · refine List.pairwise_append.mpr ⟨hd.retiredSorted, List.pairwise_singleton _ _, ?_⟩
    intro p hp q hq
    rw [List.mem_singleton.mp hq]
    exact hd.retiredIds p hp
  · rintro _ ⟨⟩
    exact ⟨.inr rfl, rotationProjection_le r⟩

theorem DeviceState.Closed.withPair (hP : P.Lawful)
    (hd : d.Closed P) (hlen : d.retired.length < maxRetiredSignedPairs) (hr : r.From P d day) :
    (d.withPair r day).Closed P := by
  obtain ⟨h1, h2, -, h4, h5, h6⟩ := validateDeviceMaterial_eq_ok.mp hd.material
  have hreadable := hd.toReadable.withPair hlen hr
  obtain ⟨m, hm, hsign⟩ := hr.classicalSigned
  obtain ⟨mq, hmq, hsignq⟩ := hr.pqSigned
  obtain ⟨coins, hkem⟩ := hr.pqKey
  refine { hreadable with
    signing := hd.signing
    identity := hd.identity
    material := validateDeviceMaterial_eq_ok.mpr ⟨?_, ?_, hreadable.retiredSorted, ?_, h5, h6⟩ }
  · refine validateClassicalSigned_eq_ok.mpr ⟨hr.classicalKey, m, hm, ?_⟩
    have := hP.signs _ _ _ hsign
    rwa [hd.signing] at this
  · refine validatePqSigned_eq_ok.mpr ⟨hP.embeds coins _ _ hkem, mq, hmq, ?_⟩
    have := hP.signs _ _ _ hsignq
    rwa [hd.signing] at this
  · exact forall_mem_append.mpr ⟨h4, List.forall_mem_singleton.mpr ⟨h1, h2⟩⟩

theorem prepareRotation_readable (hd : d.Readable)
    (h : prepareRotation P d package deviceId day entropy = .ok (d', batch, projection)) :
    d'.Readable := by
  rcases prepareRotation_cases h with ⟨_, -, rfl⟩ | ⟨-, hlen, r, hr, rfl⟩
  · exact hd
  · exact (pruneRetired_readable hd day).withPair hlen (generatePair_from hr)

theorem prepareRotation_closed (hP : P.Lawful) (hd : d.Closed P)
    (h : prepareRotation P d package deviceId day entropy = .ok (d', batch, projection)) :
    d'.Closed P := by
  rcases prepareRotation_cases h with ⟨_, -, rfl⟩ | ⟨-, hlen, r, hr, rfl⟩
  · exact hd
  · exact (pruneRetired_closed hd day).withPair hP hlen (generatePair_from hr)

end Operations

end CommPlatform.L2
