import CommPlatform.L2Crypto.PrekeyMaintenance
import CommPlatform.L3Protocol.Operations

/-!
# Runs of a device's prekey state

From the package of an enrolled device, every run of replenishment, upload
commit, rotation, pruning and acceptance of initial envelopes, with the
state stored and read back between any two steps.
-/
namespace CommPlatform.L3

open CommPlatform.Core L1 L2

structure PrekeyRun where
  device : DeviceState
  classicalIssued : List UInt32
  pqIssued : List UInt32
  signedIssued : List (UInt32 × UInt32)

def DeviceState.currentIds (d : DeviceState) : UInt32 × UInt32 :=
  (d.currentClassical.id, d.currentPq.id)

/-- The ids that a replenishment assigns; a retry of a pending upload assigns none. -/
def issuedBy (P : PrekeyProvider) (d : DeviceState) (addClassical addPq : Nat) (entropy : Bytes) :
    List UInt32 × List UInt32 :=
  match d.pending, generateBatch P d addClassical addPq entropy with
  | none, .ok g => (g.classical.map (·.id), g.pq.map (·.id))
  | _, _ => ([], [])

def PrekeyRun.start (d : DeviceState) : PrekeyRun where
  device := d
  classicalIssued := d.classicalOneTime.map (·.id)
  pqIssued := d.pqOneTime.map (·.id)
  signedIssued := [DeviceState.currentIds d]

inductive PrekeyStep (P : PrekeyProvider) : PrekeyRun → PrekeyRun → Prop
  | replenish {s : PrekeyRun} {sc sp tc tp : UInt16} {entropy : Bytes} {d : DeviceState}
      {batch : Block 16} {projection : Bytes}
      (h : prepareReplenishment P s.device sc sp tc tp entropy = .ok (d, batch, projection)) :
      PrekeyStep P s { s with
        device := d
        classicalIssued := s.classicalIssued ++
          (issuedBy P s.device (tc.toNat - sc.toNat) (tp.toNat - sp.toNat) entropy).1
        pqIssued := s.pqIssued ++
          (issuedBy P s.device (tc.toNat - sc.toNat) (tp.toNat - sp.toNat) entropy).2 }
  | commit {s : PrekeyRun} {batch : Block 16} {d : DeviceState}
      (h : commitPendingUpload s.device batch = .ok d) : PrekeyStep P s { s with device := d }
  | rotate {s : PrekeyRun} {package entropy : Bytes} {deviceId : Block 16} {day : UInt32}
      {d : DeviceState} {batch : Block 16} {projection : Bytes}
      (h : prepareRotation P s.device package deviceId day entropy = .ok (d, batch, projection)) :
      PrekeyStep P s { s with
        device := d
        signedIssued := s.signedIssued ++
          if s.device.pending.isSome then [] else [DeviceState.currentIds d] }
  | prune {s : PrekeyRun} (day : UInt32) :
      PrekeyStep P s { s with device := s.device.pruneRetired day }
  | accept {s : PrekeyRun} {rid : Block 16} {envelope existing replaced : Bytes} {token : Key}
      {sender : AuthenticatedSenderProjection} {acc : AcceptedInitial} {header : InitialHeader}
      {c : DeviceState × UInt32 × UInt32}
      (h : acceptInitial P.toCryptoProvider s.device rid envelope token sender existing replaced =
        .ok acc)
      (hc : consumeNamed s.device header = .ok c)
      (hd : encodeDeviceState P.toCryptoProvider c.1 = .ok acc.nextDeviceState) :
      PrekeyStep P s { s with device := c.1 }
  | reload {s : PrekeyRun} {b : Bytes} {day : UInt32} {d : DeviceState}
      (he : encodeDeviceState P.toCryptoProvider s.device = .ok b)
      (hd : decodeDeviceState P b day = .ok d) : PrekeyStep P s { s with device := d }

def prekeySystem (P : PrekeyProvider) : System PrekeyRun where
  init s := ∃ package day d, decodeV1 P package day = .ok d ∧ s = .start d
  step := PrekeyStep P

/-! ## A device of the sum provider -/

def sumPrekeyProvider : PrekeyProvider where
  toCryptoProvider := sumProvider
  mlkem768Keypair _ := .ok (Block.fill 1184 0, Block.fill 2400 0)
  ed25519Public s := s

theorem sumPrekeyProvider_lawful : sumPrekeyProvider.Lawful where
  signs _ _ _ _ := rfl
  embeds _ _ _ h := by
    cases h
    exact Block.slice_fill 0 (by decide)

def sumV1 : V1Package where
  userId := Block.fill 16 1
  registrationId := 1
  deviceSigningPublic := Block.fill 32 0
  identityPublic := Block.fill 32 0
  fingerprint := Block.fill 32 0
  deviceSigningSecret := Block.fill 32 0
  identitySecret := Block.fill 32 0
  signedPrekey := ⟨1, 0, Block.fill 32 0, Block.fill 64 0, Block.fill 32 0⟩
  pqSignedPrekey := ⟨1, 0, Block.fill 1184 0, Block.fill 64 0, Block.fill 2400 0⟩
  classicalOneTime := [⟨7, Block.fill 32 0, Block.fill 32 0⟩]
  pqOneTime := [⟨7, Block.fill 1184 0, Block.fill 2400 0⟩]
  finished := true

theorem sumV1_sound : sumV1.Sound where
  userId := by decide
  classicalIds := by decide
  pqIds k hk := by
    cases List.mem_singleton.mp hk
    decide
  classicalCount := by decide
  pqCount := by decide
  currentIds := by decide
  createdDay := rfl

def sumMigrated : DeviceState where
  userId := Block.fill 16 1
  registrationId := 1
  bundleVersion := 1
  nextClassicalOneTimeId := 8
  nextPqOneTimeId := 8
  deviceSigningPublic := Block.fill 32 0
  identityPublic := Block.fill 32 0
  deviceSigningSecret := Block.fill 32 0
  identitySecret := Block.fill 32 0
  currentClassical := sumV1.signedPrekey
  currentPq := sumV1.pqSignedPrekey
  crossSignature := Block.fill 64 0
  retired := []
  classicalOneTime := sumV1.classicalOneTime
  pqOneTime := sumV1.pqOneTime
  pending := none

theorem sumMigrated_material : validateDeviceMaterial sumProvider sumMigrated = .ok () := by
  decide +kernel

theorem sumV1_migrates : decodeV1 sumPrekeyProvider (encodeV1 sumV1) 7 = .ok sumMigrated := by
  have hread : Reader.parse (readV1 sumV1.signedPrekey.createdDay) (encodeV1 sumV1) = .ok sumV1 :=
    Reader.parse_eq_ok.mpr
      ⟨[], readV1_encode sumV1_sound (List.cons_ne_nil _ _) (List.cons_ne_nil _ _) rfl⟩
  have hmat := validateDeviceMaterial_eq_ok.mp sumMigrated_material
  obtain ⟨-, m, hm, hv⟩ := validateClassicalSigned_eq_ok.mp hmat.1
  obtain ⟨-, mq, hmq, hvq⟩ := validatePqSigned_eq_ok.mp hmat.2.1
  refine bind_eq_ok.mpr ⟨sumV1, hread, ?_⟩
  refine unit_bind_eq_ok.mpr ⟨failIf_neg (by decide), ?_⟩
  refine unit_bind_eq_ok.mpr ⟨rfl, ?_⟩
  refine unit_bind_eq_ok.mpr ⟨rfl, ?_⟩
  refine bind_eq_ok.mpr ⟨_, rfl, ?_⟩
  refine unit_bind_eq_ok.mpr ⟨rfl, ?_⟩
  refine unit_bind_eq_ok.mpr ⟨failIf_neg (by decide), ?_⟩
  refine unit_bind_eq_ok.mpr ⟨failIf_neg (by simp [sumV1, idsSorted]), ?_⟩
  refine bind_eq_ok.mpr ⟨m, hm, ?_⟩
  refine unit_bind_eq_ok.mpr ⟨hv, ?_⟩
  refine bind_eq_ok.mpr ⟨mq, hmq, ?_⟩
  refine unit_bind_eq_ok.mpr ⟨hvq, ?_⟩
  refine bind_eq_ok.mpr ⟨8, rfl, ?_⟩
  refine bind_eq_ok.mpr ⟨8, rfl, ?_⟩
  exact unit_bind_eq_ok.mpr ⟨sumMigrated_material, rfl⟩

theorem sumMigrated_prepares : (prepareReplenishment sumPrekeyProvider sumMigrated 0 0 1 1
    (List.replicate 112 5)).toOption.any (fun r => r.1.classicalOneTime.length = 2 ∧
      r.1.pending.isSome = true) = true := by
  decide +kernel

theorem sumMigrated_replenished : ∃ s, (prekeySystem sumPrekeyProvider).Reachable s ∧
    s.device.classicalOneTime.length = 2 ∧ s.device.pending.isSome = true := by
  have hstart : (prekeySystem sumPrekeyProvider).Reachable (.start sumMigrated) :=
    .init ⟨_, _, _, sumV1_migrates, rfl⟩
  obtain ⟨⟨d, batch, projection⟩, h, hd⟩ := exists_ok_of_any sumMigrated_prepares
  exact ⟨_, hstart.step (.replenish h), decide_eq_true_eq.mp hd⟩

/-! ## Consumption -/

/-- The device with fewer one-time keys and nothing else changed. -/
structure FewerOneTime (d d' : DeviceState) : Prop where
  classical : d'.classicalOneTime.Sublist d.classicalOneTime
  pq : d'.pqOneTime.Sublist d.pqOneTime
  rest : d' = { d with classicalOneTime := d'.classicalOneTime, pqOneTime := d'.pqOneTime }

theorem FewerOneTime.refl (d : DeviceState) : FewerOneTime d d := ⟨.refl _, .refl _, rfl⟩

theorem FewerOneTime.trans {d e f : DeviceState} (h : FewerOneTime d e) (h' : FewerOneTime e f) :
    FewerOneTime d f := by
  refine ⟨h'.classical.trans h.classical, h'.pq.trans h.pq, ?_⟩
  rw [h'.rest, h.rest]

variable {d d' : DeviceState} {id : UInt32}

theorem consumeClassicalOneTime_fewer
    (h : d.consumeClassicalOneTime id = .ok d') : FewerOneTime d d' := by
  obtain ⟨_, -, h⟩ := bind_eq_ok.mp h
  cases h
  exact ⟨List.eraseP_sublist, .refl _, rfl⟩

variable {d : DeviceState}

theorem consumePqOneTime_fewer (h : d.consumePqOneTime id = .ok d') : FewerOneTime d d' := by
  obtain ⟨_, -, h⟩ := bind_eq_ok.mp h
  cases h
  exact ⟨.refl _, List.eraseP_sublist, rfl⟩

theorem consumeNamed_fewer {header : InitialHeader}
    {c : DeviceState × UInt32 × UInt32} (h : consumeNamed d header = .ok c) :
    FewerOneTime d c.1 := by
  unfold consumeNamed at h
  split at h
  all_goals
    simp only [bind_eq_ok] at h
    obtain ⟨d1, h1, h⟩ := h
    split at h
    all_goals
      simp only [ok_steps] at h
      obtain ⟨d2, h2, rfl⟩ := h
  · exact (consumeClassicalOneTime_fewer h1).trans (consumePqOneTime_fewer h2)
  · subst h2
    exact consumeClassicalOneTime_fewer h1
  · cases h1
    exact consumePqOneTime_fewer h2
  · cases h1
    subst h2
    exact .refl d

variable {P : PrekeyProvider}

theorem FewerOneTime.readable (h : FewerOneTime d d') (hd : d.Readable) : d'.Readable := by
  obtain ⟨hv, hu, hnc, hnp, hcl, hpl⟩ := DeviceState.fieldsConsistent_iff.mp hd.fields
  rw [h.rest]
  exact { hd with
    fields := DeviceState.fieldsConsistent_iff.mpr ⟨hv, hu, hnc, hnp,
      fun k hk => hcl k (h.classical.subset hk), fun k hk => hpl k (h.pq.subset hk)⟩
    classicalIds := fun k hk => hd.classicalIds k (h.classical.subset hk)
    pqIds := fun k hk => hd.pqIds k (h.pq.subset hk)
    classicalSorted := hd.classicalSorted.sublist h.classical
    pqSorted := hd.pqSorted.sublist h.pq
    classicalCount := h.classical.length_le.trans hd.classicalCount
    pqCount := h.pq.length_le.trans hd.pqCount }

theorem FewerOneTime.closed (h : FewerOneTime d d') (hd : d.Closed P) : d'.Closed P := by
  obtain ⟨h1, h2, h3, h4, h5, h6⟩ := validateDeviceMaterial_eq_ok.mp hd.material
  have hr := h.readable hd.toReadable
  rw [h.rest] at hr ⊢
  exact { hr with
    signing := hd.signing
    identity := hd.identity
    material := validateDeviceMaterial_eq_ok.mpr ⟨h1, h2, h3, h4,
      fun k hk => h5 k (h.classical.subset hk), fun k hk => h6 k (h.pq.subset hk)⟩ }

/-! ## Ids -/

/-- The ids of one kind of one-time key: each assigned once, all below the high-water mark, and the
keys held among them. -/
structure Issued (issued : List UInt32) (next : UInt32) (held : List UInt32) : Prop where
  nodup : issued.Nodup
  below : ∀ id ∈ issued, id < next ∧ id ≤ keyIdMax
  held : ∀ id ∈ held, id ∈ issued

theorem nodup_of_sorted {K : Type} {key : K → UInt32} {l : List K}
    (h : l.Pairwise (key · < key ·)) : (l.map key).Nodup :=
  List.pairwise_map.mpr (h.imp fun hlt => UInt32.ne_of_lt hlt)

theorem Issued.extend {K : Type} {key : K → UInt32} {issued held : List UInt32}
    {next next' : UInt32} {n : Nat} {keys : List K} (hi : Issued issued next held)
    (hg : Generated key n next keys next') :
    Issued (issued ++ keys.map key) next' (held ++ keys.map key) := by
  refine ⟨List.nodup_append.mpr ⟨hi.nodup, nodup_of_sorted hg.sorted,
    fun id hid id' hid' => ?_⟩, ?_, ?_⟩
  · obtain ⟨k, hk, rfl⟩ := List.mem_map.mp hid'
    rintro rfl
    exact UInt32.lt_irrefl _ (UInt32.lt_of_lt_of_le (hi.below _ hid).1 (hg.fresh k hk).1)
  · refine List.forall_mem_append.mpr ⟨fun id hid => ?_, List.forall_mem_map.mpr fun k hk => ?_⟩
    · exact ⟨UInt32.lt_of_lt_of_le (hi.below id hid).1 hg.mark, (hi.below id hid).2⟩
    · exact (hg.fresh k hk).2
  · exact List.forall_mem_append.mpr ⟨fun id hid => List.mem_append_left _ (hi.held id hid),
      fun id hid => List.mem_append_right _ hid⟩

theorem Issued.mono {issued held held' : List UInt32} {next : UInt32} (hi : Issued issued next held)
    (h : ∀ id ∈ held', id ∈ held) : Issued issued next held' :=
  ⟨hi.nodup, hi.below, fun id hid => hi.held id (h id hid)⟩

structure PrekeyInv (s : PrekeyRun) : Prop where
  readable : s.device.Readable
  classical : Issued s.classicalIssued s.device.nextClassicalOneTimeId
    (s.device.classicalOneTime.map (·.id))
  pq : Issued s.pqIssued s.device.nextPqOneTimeId (s.device.pqOneTime.map (·.id))
  signed : s.signedIssued.Pairwise fun p q => p.1 < q.1 ∧ p.2 < q.2
  current : s.signedIssued.getLast? = some (DeviceState.currentIds s.device)
  top : ∀ p ∈ s.signedIssued,
    p.1 ≤ s.device.currentClassical.id ∧ p.2 ≤ s.device.currentPq.id
  version : s.device.bundleVersion.toNat = s.signedIssued.length

variable {day : UInt32}

theorem PrekeyInv.start {package : Bytes}
    (h : decodeV1 P package day = .ok d) : PrekeyInv (.start d) := by
  have hr := (decodeV1_closed h).toReadable
  obtain ⟨-, -, -, -, hcl, hpl⟩ := DeviceState.fieldsConsistent_iff.mp hr.fields
  have hversion := decodeV1_bundleVersion h
  refine ⟨hr, ⟨nodup_of_sorted hr.classicalSorted, ?_, fun _ => id⟩,
    ⟨nodup_of_sorted hr.pqSorted, ?_, fun _ => id⟩, List.pairwise_singleton _ _, rfl, ?_, ?_⟩
  · exact List.forall_mem_map.mpr fun k hk => ⟨hcl k hk, hr.classicalIds k hk⟩
  · exact List.forall_mem_map.mpr fun k hk => ⟨hpl k hk, hr.pqIds k hk⟩
  · exact List.forall_mem_singleton.mpr ⟨UInt32.le_refl _, UInt32.le_refl _⟩
  · change d.bundleVersion.toNat = 1
    rw [hversion]
    decide

variable {s : PrekeyRun} {sc sp tc tp : UInt16} {batch : Block 16} {projection : Bytes}

theorem PrekeyInv.replenish (hi : PrekeyInv s) {entropy : Bytes}
    (h : prepareReplenishment P s.device sc sp tc tp entropy = .ok (d, batch, projection)) :
    PrekeyInv { s with
      device := d
      classicalIssued := s.classicalIssued ++
        (issuedBy P s.device (tc.toNat - sc.toNat) (tp.toNat - sp.toNat) entropy).1
      pqIssued := s.pqIssued ++
        (issuedBy P s.device (tc.toNat - sc.toNat) (tp.toNat - sp.toNat) entropy).2 } := by
  have hr := prepareReplenishment_readable hi.readable h
  rcases prepareReplenishment_cases h with ⟨p, hp, rfl⟩ | ⟨hp, -, -, -, -, g, hg, -, rfl⟩
  · -- a retry assigns nothing
    simp only [issuedBy, hp, List.append_nil]
    exact hi
  · have hfrom := generateBatch_from hg
    simp only [issuedBy, hp, hg]
    refine ⟨hr, ?_, ?_, hi.signed, hi.current, hi.top, hi.version⟩
    · have := hi.classical.extend hfrom.classical
      rwa [← List.map_append, ← withBatch_classical hi.readable hfrom projection] at this
    · have := hi.pq.extend hfrom.pq
      rwa [← List.map_append, ← withBatch_pq hi.readable hfrom projection] at this

variable {package entropy : Bytes} {deviceId : Block 16}

theorem PrekeyInv.rotate (hi : PrekeyInv s)
    (h : prepareRotation P s.device package deviceId day entropy = .ok (d, batch, projection)) :
    PrekeyInv { s with
      device := d
      signedIssued := s.signedIssued ++
        if s.device.pending.isSome then [] else [DeviceState.currentIds d] } := by
  have hr := prepareRotation_readable hi.readable h
  rcases prepareRotation_cases h with ⟨p, hp, rfl⟩ | ⟨hp, -, r, hgen, rfl⟩
  · simp only [hp, Option.isSome_some, if_true, List.append_nil]
    exact hi
  · have hfrom := generatePair_from hgen
    have hc : s.device.currentClassical.id < r.classical.id :=
      UInt32.lt_iff_toNat_lt.mpr (by rw [hfrom.classicalId.2]; exact Nat.lt_succ_self _)
    have hq : s.device.currentPq.id < r.pq.id :=
      UInt32.lt_iff_toNat_lt.mpr (by rw [hfrom.pqId.2]; exact Nat.lt_succ_self _)
    have hbelow : ∀ p ∈ s.signedIssued, p.1 < r.classical.id ∧ p.2 < r.pq.id := fun p hp =>
      ⟨UInt32.lt_of_le_of_lt (hi.top p hp).1 hc, UInt32.lt_of_le_of_lt (hi.top p hp).2 hq⟩
    simp only [hp, Option.isSome_none, Bool.false_eq_true, if_false]
    refine ⟨hr, hi.classical, hi.pq, ?_, by simp, ?_, ?_⟩
    · refine List.pairwise_append.mpr ⟨hi.signed, List.pairwise_singleton _ _, ?_⟩
      intro p hp q hq
      rw [List.mem_singleton.mp hq]
      exact hbelow p hp
    · refine List.forall_mem_append.mpr ⟨fun p hp => ?_, List.forall_mem_singleton.mpr
        ⟨UInt32.le_refl _, UInt32.le_refl _⟩⟩
      exact ⟨UInt32.le_of_lt (hbelow p hp).1, UInt32.le_of_lt (hbelow p hp).2⟩
    · change r.bundleVersion.toNat = (s.signedIssued ++ [_]).length
      rw [List.length_append, ← hi.version]
      exact hfrom.bundleVersion

theorem prekey_inductive (P : PrekeyProvider) : (prekeySystem P).Inductive PrekeyInv where
  init := by
    rintro _ ⟨package, day, d, h, rfl⟩
    exact .start h
  step := by
    rintro s _ hi h
    cases h with
    | replenish h => exact hi.replenish h
    | commit h =>
      have hr := commitPendingUpload_readable hi.readable h
      rw [commitPendingUpload_eq_ok h] at hr ⊢
      exact { hi with readable := hr }
    | rotate h => exact hi.rotate h
    | prune day => exact { hi with readable := pruneRetired_readable hi.readable day }
    | accept h hc hd =>
      have hf := consumeNamed_fewer hc
      have hr := hf.readable hi.readable
      rw [hf.rest] at hr ⊢
      exact { hi with
        readable := hr
        classical := hi.classical.mono fun id hid => by
          obtain ⟨k, hk, rfl⟩ := List.mem_map.mp hid
          exact List.mem_map_of_mem (hf.classical.subset hk)
        pq := hi.pq.mono fun id hid => by
          obtain ⟨k, hk, rfl⟩ := List.mem_map.mp hid
          exact List.mem_map_of_mem (hf.pq.subset hk) }
    | reload he hd =>
      rw [decodeDeviceState_eq hi.readable he hd]
      exact hi

/-- No id is used twice: what a run has assigned, and what happens when an id space is
exhausted. -/
structure IdsNeverReused (P : PrekeyProvider) (s : PrekeyRun) : Prop where
  classicalOnce : s.classicalIssued.Nodup
  pqOnce : s.pqIssued.Nodup
  classicalHeld : ∀ k ∈ s.device.classicalOneTime,
    k.id ∈ s.classicalIssued ∧ k.id < s.device.nextClassicalOneTimeId
  pqHeld : ∀ k ∈ s.device.pqOneTime, k.id ∈ s.pqIssued ∧ k.id < s.device.nextPqOneTimeId
  classicalLimit : ∀ id ∈ s.classicalIssued, id ≤ keyIdMax
  pqLimit : ∀ id ∈ s.pqIssued, id ≤ keyIdMax
  signedLimit : ∀ p ∈ s.signedIssued, p.1 ≤ keyIdMax ∧ p.2 ≤ keyIdMax
  /-- each rotation appends the ids of its pair -/
  signedIncrease : s.signedIssued.Pairwise fun p q => p.1 < q.1 ∧ p.2 < q.2
  current : s.signedIssued.getLast? = some (DeviceState.currentIds s.device)
  retired : ∀ p ∈ s.device.retired,
    p.classical.id ≠ s.device.currentClassical.id ∧ p.pq.id ≠ s.device.currentPq.id
  /-- the first bundle is version 1, and each rotation adds one -/
  version : s.device.bundleVersion.toNat = s.signedIssued.length
  replenishExhausted : ∀ (sc sp tc tp : UInt16) (entropy : Bytes), s.device.pending = none →
    (sc < tc ∧ keyIdMax.toNat + 1 < s.device.nextClassicalOneTimeId.toNat + (tc.toNat - sc.toNat) ∨
      sp < tp ∧ keyIdMax.toNat + 1 < s.device.nextPqOneTimeId.toNat + (tp.toNat - sp.toNat)) →
    ∃ e, prepareReplenishment P s.device sc sp tc tp entropy = .error e
  rotateExhausted : ∀ (package entropy : Bytes) (deviceId : Block 16) (day : UInt32),
    s.device.pending = none → (s.device.currentClassical.id = keyIdMax ∨
      s.device.currentPq.id = keyIdMax ∨ s.device.bundleVersion = 0xffffffff) →
    ∃ e, prepareRotation P s.device package deviceId day entropy = .error e

theorem replenish_exhausted {entropy : Bytes} (hp : d.pending = none)
    (h : sc < tc ∧ keyIdMax.toNat + 1 < d.nextClassicalOneTimeId.toNat + (tc.toNat - sc.toNat) ∨
      sp < tp ∧ keyIdMax.toNat + 1 < d.nextPqOneTimeId.toNat + (tp.toNat - sp.toNat)) :
    ∃ e, prepareReplenishment P d sc sp tc tp entropy = .error e := by
  cases hr : prepareReplenishment P d sc sp tc tp entropy with
  | error e => exact ⟨e, rfl⟩
  | ok r =>
    obtain ⟨d', batch, projection⟩ := r
    rcases prepareReplenishment_cases hr with ⟨p, hp', -⟩ | ⟨-, -, -, -, -, g, hg, -, -⟩
    · exact nomatch hp.symm.trans hp'
    · have hfrom := generateBatch_from hg
      have hc := hfrom.classical.room
      have hq := hfrom.pq.room
      simp only [UInt16.lt_iff_toNat_lt] at h
      omega

theorem rotate_exhausted (hp : d.pending = none)
    (h : d.currentClassical.id = keyIdMax ∨ d.currentPq.id = keyIdMax ∨
      d.bundleVersion = 0xffffffff) :
    ∃ e, prepareRotation P d package deviceId day entropy = .error e := by
  cases hr : prepareRotation P d package deviceId day entropy with
  | error e => exact ⟨e, rfl⟩
  | ok r =>
    obtain ⟨d', batch, projection⟩ := r
    rcases prepareRotation_cases hr with ⟨p, hp', -⟩ | ⟨-, -, r, hgen, -⟩
    · exact nomatch hp.symm.trans hp'
    · have hfrom := generatePair_from hgen
      obtain ⟨hcle, hceq⟩ := hfrom.classicalId
      obtain ⟨hqle, hqeq⟩ := hfrom.pqId
      have hv := hfrom.bundleVersion
      have hvlt := r.bundleVersion.toNat_lt
      have hcle' := UInt32.le_iff_toNat_le.mp hcle
      have hqle' := UInt32.le_iff_toNat_le.mp hqle
      simp only [DeviceState.pruneRetired] at hceq hqeq hv
      rcases h with h | h | h
      · rw [h] at hceq; omega
      · rw [h] at hqeq; omega
      · have : (0xffffffff : UInt32).toNat = 4294967295 := by decide
        rw [h] at hv; omega

/-- Prekey identifiers are never reused, on any run from any version 1 package. -/
theorem prekey_ids_never_reused {s : PrekeyRun}
    (h : (prekeySystem P).Reachable s) : IdsNeverReused P s := by
  have hi := (prekey_inductive P).reachable h
  obtain ⟨-, -, -, -, hcl, hpl⟩ := DeviceState.fieldsConsistent_iff.mp hi.readable.fields
  exact {
    classicalOnce := hi.classical.nodup
    pqOnce := hi.pq.nodup
    classicalHeld := fun k hk => ⟨hi.classical.held _ (List.mem_map_of_mem hk), hcl k hk⟩
    pqHeld := fun k hk => ⟨hi.pq.held _ (List.mem_map_of_mem hk), hpl k hk⟩
    classicalLimit := fun id hid => (hi.classical.below id hid).2
    pqLimit := fun id hid => (hi.pq.below id hid).2
    signedLimit := fun p hp => ⟨UInt32.le_trans (hi.top p hp).1 hi.readable.currentIds.1,
      UInt32.le_trans (hi.top p hp).2 hi.readable.currentIds.2⟩
    signedIncrease := hi.signed
    current := hi.current
    retired := fun p hp => ⟨UInt32.ne_of_lt (hi.readable.retiredIds p hp).1,
      UInt32.ne_of_lt (hi.readable.retiredIds p hp).2⟩
    version := hi.version
    replenishExhausted := fun _ _ _ _ _ hp h => replenish_exhausted hp h
    rotateExhausted := fun _ _ _ _ hp h => rotate_exhausted hp h }

theorem prekey_ids_never_reused_sumMigrated :
    ∃ s : PrekeyRun, s.device.classicalOneTime.length = 2 ∧ IdsNeverReused sumPrekeyProvider s := by
  obtain ⟨s, hs, hlen, -⟩ := sumMigrated_replenished
  exact ⟨s, hlen, prekey_ids_never_reused hs⟩

/-! ## The codec is closed -/

theorem closed_inductive (hP : P.Lawful) :
    (prekeySystem P).Inductive fun s => s.device.Closed P where
  init := by
    rintro _ ⟨package, day, d, h, rfl⟩
    exact decodeV1_closed h
  step := by
    rintro s _ hi h
    cases h with
    | replenish h => exact prepareReplenishment_closed hP hi h
    | commit h => exact commitPendingUpload_closed hi h
    | rotate h => exact prepareRotation_closed hP hi h
    | prune day => exact pruneRetired_closed hi day
    | accept h hc hd => exact (consumeNamed_fewer hc).closed hi
    | reload he hd =>
      rw [decodeDeviceState_eq hi.toReadable he hd]
      exact hi

theorem appendDeviceSummary_isOk (hd : d.Readable) :
    ∃ summary, appendDeviceSummary d = .ok summary := by
  have h1 := hd.classicalCount
  have h2 := hd.pqCount
  unfold maxClassicalOneTime at h1
  unfold maxPqOneTime at h2
  exact ⟨_, bind_eq_ok.mpr ⟨_, tryU16_of_lt (by omega) _, bind_eq_ok.mpr
    ⟨_, tryU16_of_lt (by omega) _, unit_bind_eq_ok.mpr
      ⟨failIf_neg (not_not.mpr hd.createdDay), rfl⟩⟩⟩⟩

/-- Every state reached is encoded within the input bound and read back as it is, on any day, and
its summary is defined. -/
theorem device_state_closed (hP : P.Lawful) {s : PrekeyRun} (h : (prekeySystem P).Reachable s) :
    ∃ b, encodeDeviceState P.toCryptoProvider s.device = .ok b ∧ b.length ≤ maxInputBytes ∧
      (∀ day, decodeDeviceState P b day = .ok s.device) ∧
      ∃ summary, appendDeviceSummary s.device = .ok summary := by
  have hc := (closed_inductive hP).reachable h
  obtain ⟨b, hb⟩ := hc.toReadable.encodes P.toCryptoProvider
  exact ⟨b, hb, encodeDeviceState_le hb, decodeDeviceState_encode hc hb,
    appendDeviceSummary_isOk hc.toReadable⟩

theorem device_state_closed_sumMigrated : ∃ s : PrekeyRun, s.device.pending.isSome = true ∧
      ∃ b, encodeDeviceState sumProvider s.device = .ok b ∧ b.length ≤ maxInputBytes ∧
        (∀ day, decodeDeviceState sumPrekeyProvider b day = .ok s.device) ∧
        ∃ summary, appendDeviceSummary s.device = .ok summary := by
  obtain ⟨s, hs, -, hp⟩ := sumMigrated_replenished
  exact ⟨s, hp, device_state_closed sumPrekeyProvider_lawful hs⟩

end CommPlatform.L3
