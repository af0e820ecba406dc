import CommPlatform.L3Protocol.PrekeyRuns
import CommPlatform.L4Store.Account

/-!
# An initial envelope is committed once

Over every run of a device: durable and volatile commits of any remote
device, session invalidations, pruning of markers, summaries, replenishment
and rotation of prekeys.

A committed initial leaves a marker that names its signed pair. The marker
goes only when the pair is gone from the stored device state
(`Recorded`), and a pair that is gone does not come back (`Gone`), so the
core refuses the envelope when the store no longer can.
-/
namespace CommPlatform.L4

open CommPlatform.Core L1 L2
open L3 hiding AcceptedInitial

/-! ## Signed prekeys that are gone -/

variable {d : DeviceState}

/-- The device does not hold the signed prekey, and its id is in the past. -/
def Gone (d : DeviceState) (id : UInt32) : Prop :=
  d.signedClassical id = none ∧ id < d.currentClassical.id

variable {id : UInt32}

theorem signedClassical_eq_none : d.signedClassical id = none ↔
      d.currentClassical.id ≠ id ∧ ∀ p ∈ d.retired, p.classical.id ≠ id := by
  unfold DeviceState.signedClassical
  split
  · next h => simp [h]
  · next h => simp [h]

theorem gone_iff :
    Gone d id ↔ id < d.currentClassical.id ∧ ∀ p ∈ d.retired, p.classical.id ≠ id := by
  unfold Gone
  rw [signedClassical_eq_none]
  constructor
  · rintro ⟨⟨-, hr⟩, hlt⟩
    exact ⟨hlt, hr⟩
  · rintro ⟨hlt, hr⟩
    exact ⟨⟨(UInt32.ne_of_lt hlt).symm, hr⟩, hlt⟩

/-- `d'` is what became of the device state `d`: what was gone stays gone. -/
structure Follows (d d' : DeviceState) : Prop where
  readable : d'.Readable
  gone : ∀ id, Gone d id → Gone d' id

variable {d d' : DeviceState}

theorem Follows.of_same (hd : d'.Readable)
    (hc : d'.currentClassical = d.currentClassical) (hr : d'.retired = d.retired) : Follows d d' where
  readable := hd
  gone id h := by
    rw [gone_iff] at h ⊢
    rwa [hc, hr]

theorem follows_pruneRetired (hd : d.Readable) (day : UInt32) :
    Follows d (d.pruneRetired day) where
  readable := pruneRetired_readable hd day
  gone id h := by
    obtain ⟨hlt, hr⟩ := gone_iff.mp h
    exact gone_iff.mpr ⟨hlt, fun p hp => hr p (List.mem_of_mem_filter hp)⟩

variable {day : UInt32}

theorem gone_of_erased (hd : d.Readable) {q : UInt32 × UInt32}
    (hq : q ∈ DeviceState.erasedBy d day) : Gone (d.pruneRetired day) q.1 := by
  obtain ⟨p, hp, rfl⟩ := List.mem_map.mp hq
  obtain ⟨hp, hday⟩ := List.mem_filter.mp hp
  refine gone_iff.mpr ⟨(hd.retiredIds p hp).1, fun p' hp' heq => ?_⟩
  obtain ⟨hp', hday'⟩ := List.mem_filter.mp hp'
  have hids : (d.retired.map (·.classical.id)).Nodup :=
    nodup_of_sorted (hd.retiredSorted.imp And.left)
  obtain rfl : p' = p := List.inj_on_of_nodup_map hids hp' hp heq
  simp only [decide_eq_true_eq] at hday hday'
  exact UInt32.not_lt.mpr hday' hday

variable {P : PrekeyProvider} {entropy : Bytes} {batch : Block 16} {projection : Bytes}

theorem follows_prepareReplenishment {sc sp tc tp : UInt16} (hd : d.Readable)
    (h : prepareReplenishment P d sc sp tc tp entropy = .ok (d', batch, projection)) :
    Follows d d' := by
  have hr := prepareReplenishment_readable hd h
  rcases prepareReplenishment_cases h with ⟨_, -, rfl⟩ | ⟨-, -, -, -, -, g, -, -, rfl⟩
  · exact .of_same hr rfl rfl
  · exact .of_same hr rfl rfl

theorem follows_prepareRotation {package : Bytes} {deviceId : Block 16} (hd : d.Readable)
    (h : prepareRotation P d package deviceId day entropy = .ok (d', batch, projection)) :
    Follows d d' := by
  have hr := prepareRotation_readable hd h
  rcases prepareRotation_cases h with ⟨_, -, rfl⟩ | ⟨-, -, r, hpair, rfl⟩
  · exact .of_same hr rfl rfl
  · refine ⟨hr, fun id hgone => ?_⟩
    obtain ⟨hlt, hret⟩ := gone_iff.mp ((follows_pruneRetired hd day).gone id hgone)
    have hid := (generatePair_from hpair).classicalId.2
    have hnew : id < r.classical.id := by
      rw [UInt32.lt_iff_toNat_lt] at hlt ⊢
      omega
    refine gone_iff.mpr ⟨hnew, fun p hp => ?_⟩
    rcases List.mem_append.mp hp with hp | hp
    · exact hret p hp
    · cases List.mem_singleton.mp hp
      exact (UInt32.ne_of_lt hlt).symm

theorem follows_of_fewer (h : FewerOneTime d d') (hd : d.Readable) : Follows d d' :=
  .of_same (h.readable hd) (by rw [h.rest]) (by rw [h.rest])

theorem withoutOneTime_fewer (d : DeviceState) (classical pq : Option UInt32) :
    FewerOneTime d (d.withoutOneTime classical pq) :=
  ⟨List.filter_sublist, List.filter_sublist, rfl⟩

/-! ## What an accepted initial names -/

/-- The core accepts an initial only while it holds the signed prekey the header names, and reports
the pair of the header. -/
theorem acceptInitial_names {P : CryptoProvider} {rid : Block 16}
    {envelope existing replaced : Bytes} {token : Key} {sender : AuthenticatedSenderProjection}
    {acc : L3.AcceptedInitial}
    (h : L3.acceptInitial P d rid envelope token sender existing replaced = .ok acc) :
    signedPairOf envelope = some (acc.referencedSignedPrekeyId, acc.referencedPqSignedPrekeyId) ∧
      (d.signedClassical acc.referencedSignedPrekeyId).isSome ∧
      P.sha256 envelope = .ok acc.replayMarker := by
  unfold L3.acceptInitial at h
  simp only [ok_steps] at h
  obtain ⟨probe, -, _, -, env, henv, h⟩ := h
  split at h
  · cases h
  · next header hheader =>
    simp only [ok_steps] at h
    obtain ⟨_, -, _, -, _, -, rs, -, ex, -, agreed, hag, _, -, inner, -, th, -, upd, -,
      consumed, -, st, -, dev, -, marker, hmarker, rfl⟩ := h
    refine ⟨by simp [signedPairOf, henv, hheader], ?_, hmarker⟩
    unfold responderAgreement at hag
    simp only [bind_eq_ok, okOr_eq_ok] at hag
    obtain ⟨spk, hspk, -⟩ := hag
    simp [hspk]

/-- A planned initial: its marker, its pair, and the device state it was read from. -/
structure PlannedInitial (P : CryptoProvider) (d : DeviceState) (revision : Nat) (envelope : Bytes)
    {base : DeviceState} (c : StoreCommit NativeSession (OwnDevice base)) : Prop where
  names : ∃ pair marker t, signedPairOf envelope = some pair ∧ P.sha256 envelope = .ok marker ∧
    c.marker = some marker ∧ c.device = some t ∧
    c.revision = some t.expectedStateVersion ∧ t.nextStateVersion = t.expectedStateVersion + 1 ∧
    t.expectedStateVersion ≤ revision ∧
    (t.expectedStateVersion = revision →
      (d.signedClassical pair.1).isSome ∧ Follows d t.nextOpaqueState.1)

section Prepare

variable {P : CryptoProvider} {base : DeviceState} {L : StoreLimits} {me peer : Block 16}
  {user : String} {db : SessionStore NativeSession (OwnDevice base)} {op : Operation NativeInput}
  {c : StoreCommit NativeSession (OwnDevice base)}

theorem prepare_plannedInitial (hd : db.deviceState.1.Readable) (hop : op.isInitial = true)
    (h : op.prepare (nativeCrypto P base me peer) L user db = some c) :
    PlannedInitial P db.deviceState.1 db.stateRevision op.input.envelope c := by
  obtain ⟨r, ctx, rep, t, -, hctx, -, ht, hc⟩ := (prepare_initial_iff hop).mp h
  obtain ⟨-, -, -, -, rfl⟩ := readPreparationContext_eq_some.mp hctx
  obtain ⟨a, demoted, ha, -, -, rfl⟩ := prepareAccepted_eq_some.mp ht
  obtain ⟨probe, acc, disp, -, -, hacc, -, -, rfl⟩ := nativeAccept_eq_some.mp ha
  obtain ⟨hpair, hheld, hmarker⟩ := acceptInitial_names hacc
  obtain ⟨-, -, -, hdevice, hrevision, -⟩ := initialCommit_inv hc
  refine ⟨_, _, _, hpair, hmarker, ?_, hdevice, hrevision, rfl, Nat.le_refl _,
    fun _ => ⟨hheld, follows_of_fewer (withoutOneTime_fewer _ _ _) hd⟩⟩
  unfold initialCommit at hc
  split at hc <;> cases hc <;> rfl

/-- Only initial envelopes change the device state. -/
theorem prepare_device_none (hop : op.isInitial = false)
    (h : op.prepare (nativeCrypto P base me peer) L user db = some c) : c.device = none := by
  cases op with
  | receiveInitial => cases hop
  | openVolatileInitial => cases hop
  | fanOutSend | requestRepair | sealVolatile =>
    obtain ⟨s, -, rfl⟩ := Option.map_eq_some_iff.mp h
    rfl
  | receiveRegular x e id =>
    simp only [Operation.prepare, prepareRegular, some_steps] at h
    obtain ⟨ctx, -, -, opening, -, h⟩ := h
    cases opening <;> simp only [some_steps] at h
    · obtain ⟨s, -, rfl⟩ := h; rfl
    · obtain ⟨-, -, o, -, rfl⟩ := h; rfl
  | openVolatileRegular x id =>
    simp only [Operation.prepare, prepareVolatileRegular, some_steps] at h
    obtain ⟨ctx, -, -, opening, -, h⟩ := h
    cases opening <;> simp only [some_steps] at h
    · obtain ⟨s, -, rfl⟩ := h; rfl
    · obtain ⟨-, -, rfl⟩ := h; rfl

end Prepare

/-! ## What a commit leaves -/

section Commit

variable {σ δ : Type} {L : StoreLimits} {db db' : SessionStore σ δ} {c : StoreCommit σ δ}

theorem commitStore_marker {marker : Block 32} (h : commitStore L db c = .ok db')
    (hm : c.marker = some marker) : marker ∉ db.replayMarkers := by
  cases c with
  | send | volatileSeal => cases hm
  | receive c =>
    cases hm
    simp only [commitStore, commitPreparedReceive, ok_steps] at h
    obtain ⟨-, -, -, -, -, hreplay, -⟩ := h
    exact hreplay
  | volatileOpen c =>
    have hm : c.replayMarker = some marker := hm
    simp only [commitStore, commitVolatileOpen, ok_steps] at h
    obtain ⟨-, -, -, hreplay, -⟩ := h
    simpa [hm] using hreplay

variable {t : DeviceStateTransition δ}

theorem applyDevice_state (h : applyDevice db (some t) = .ok db') :
    db'.deviceState = t.nextOpaqueState := by
  simp only [applyDevice, applyDeviceStateTransition, ok_steps] at h
  obtain ⟨-, -, -, -, rfl⟩ := h
  rfl

variable (h : commitStore L db c = .ok db')
include h

theorem commitStore_device
    (ht : c.device = some t) : db'.deviceState = t.nextOpaqueState := by
  cases c with
  | send | volatileSeal => cases ht
  | receive c =>
    have ht : c.deviceStateTransition = some t := ht
    simp only [commitStore, commitPreparedReceive, ok_steps, ht] at h
    obtain ⟨-, -, -, -, -, -, -, -, _, -, _, -, _, -, -, -, db₄, h4, rfl⟩ := h
    have hstate := applyDevice_state h4
    exact hstate
  | volatileOpen c =>
    have ht : c.deviceStateTransition = some t := ht
    simp only [commitStore, commitVolatileOpen, ok_steps, ht] at h
    obtain ⟨-, -, -, -, -, -, _, -, _, -, -, -, db₄, h4, rfl⟩ := h
    have hstate := applyDevice_state h4
    exact hstate

theorem commitStore_device_none (hc : c.device = none) :
    db'.stateRevision = db.stateRevision ∧ db'.deviceState = db.deviceState := by
  rcases commitStore_inv h with ⟨-, rfl⟩ | happ
  · exact ⟨rfl, rfl⟩
  · exact happ.deviceKept hc

theorem commitStore_revision
    (ht : c.device = some t) (hr : c.revision = some t.expectedStateVersion) :
    db.stateRevision = t.expectedStateVersion ∧ db'.stateRevision = t.nextStateVersion := by
  rcases commitStore_inv h with ⟨⟨s, rfl, -⟩, -⟩ | happ
  · cases ht
  · exact ⟨happ.revision _ hr, happ.device _ ht⟩

end Commit

/-! ## The invariant -/

section Runs

variable {P : PrekeyProvider} {base : DeviceState} {L : StoreLimits} {replayRetention : Nat}
  {me : Block 16} {r : AccountRun base}

/-- A committed initial has its marker, or its signed prekey is gone. -/
def Recorded (P : CryptoProvider) (a : AccountStore NativeSession (OwnDevice base))
    (envelope : Bytes) : Prop :=
  ∃ pair marker, signedPairOf envelope = some pair ∧ P.sha256 envelope = .ok marker ∧
    ((∃ row ∈ a.prekeys.replayMarkers, row.replayMarker = marker ∧ row.signedPair = some pair) ∨
      Gone a.prekeys.deviceState.1 pair.1)

structure AccountInv (P : CryptoProvider) (r : AccountRun base) : Prop where
  readable : r.device.1.Readable
  planned : ∀ p ∈ r.plans,
    (∀ e, p.initial = some e → PlannedInitial P r.device.1 r.revision e p.commit) ∧
      (p.initial = none → p.commit.device = none)
  summarised : ∀ s ∈ r.summaries, s.1 ≤ r.revision ∧
    (s.1 = r.revision → ∃ day, s.2 = pruneRetainedSignedPrekeys r.device day)
  prepared : ∀ p ∈ r.prepared, p.expectedStateRevision ≤ r.revision ∧
    (p.expectedStateRevision = r.revision → Follows r.device.1 p.pendingDeviceState.1)
  erased : ∀ q ∈ r.erased, Gone r.device.1 q.1
  recorded : ∀ e ∈ r.committed, Recorded P r.store e
  once : r.committed.Nodup

def DeviceMoves (a a' : AccountStore NativeSession (OwnDevice base)) : Prop :=
  (a'.prekeys.deviceState = a.prekeys.deviceState ∧
      a'.prekeys.stateRevision = a.prekeys.stateRevision) ∨
    (Follows a.prekeys.deviceState.1 a'.prekeys.deviceState.1 ∧
      a.prekeys.stateRevision < a'.prekeys.stateRevision)

theorem DeviceMoves.gone {a a' : AccountStore NativeSession (OwnDevice base)} (h : DeviceMoves a a')
    {id : UInt32} (hg : Gone a.prekeys.deviceState.1 id) : Gone a'.prekeys.deviceState.1 id := by
  rcases h with ⟨hd, -⟩ | ⟨hf, -⟩
  · rwa [hd]
  · exact hf.gone id hg

variable {a : AccountStore NativeSession (OwnDevice base)}

/-- Whatever moves the device state on and drops markers only of pairs that are gone keeps the
invariant. -/
theorem AccountInv.transfer {P : CryptoProvider} (hi : AccountInv P r)
    (hmoves : DeviceMoves r.store a)
    (hmarks : ∀ row ∈ r.store.prekeys.replayMarkers, ∀ q, row.signedPair = some q →
      row ∈ a.prekeys.replayMarkers ∨ Gone a.prekeys.deviceState.1 q.1) :
    AccountInv P { r with store := a } where
  readable := by
    rcases hmoves with ⟨hd, -⟩ | ⟨hf, -⟩
    · change a.prekeys.deviceState.1.Readable
      rw [hd]
      exact hi.readable
    · exact hf.readable
  planned p hp := by
    refine ⟨fun e he => ?_, (hi.planned p hp).2⟩
    have hplan := (hi.planned p hp).1 e he
    rcases hmoves with ⟨hd, hr⟩ | ⟨-, hlt⟩
    · simpa only [AccountRun.device, AccountRun.revision, hd, hr] using hplan
    · obtain ⟨pair, marker, t, h1, h2, h3, h4, h5, h6, hle, -⟩ := hplan.names
      have hlt' := Nat.lt_of_le_of_lt hle hlt
      exact ⟨pair, marker, t, h1, h2, h3, h4, h5, h6, hlt'.le, fun heq => absurd heq hlt'.ne⟩
  summarised s hs := by
    obtain ⟨hle, heq⟩ := hi.summarised s hs
    rcases hmoves with ⟨hd, hr⟩ | ⟨-, hlt⟩
    · simpa only [AccountRun.device, AccountRun.revision, hd, hr] using And.intro hle heq
    · have hlt' : s.1 < a.prekeys.stateRevision := Nat.lt_of_le_of_lt hle hlt
      exact ⟨hlt'.le, fun h => absurd h hlt'.ne⟩
  prepared p hp := by
    obtain ⟨hle, heq⟩ := hi.prepared p hp
    rcases hmoves with ⟨hd, hr⟩ | ⟨-, hlt⟩
    · simpa only [AccountRun.device, AccountRun.revision, hd, hr] using And.intro hle heq
    · have hlt' : p.expectedStateRevision < a.prekeys.stateRevision := Nat.lt_of_le_of_lt hle hlt
      exact ⟨hlt'.le, fun h => absurd h hlt'.ne⟩
  erased q hq := hmoves.gone (hi.erased q hq)
  recorded e he := by
    obtain ⟨pair, marker, hp, hm, hrow | hgone⟩ := hi.recorded e he
    · obtain ⟨row, hrow, hmarker, hpair⟩ := hrow
      rcases hmarks row hrow pair hpair with hrow' | hgone
      · exact ⟨pair, marker, hp, hm, .inl ⟨row, hrow', hmarker, hpair⟩⟩
      · exact ⟨pair, marker, hp, hm, .inr hgone⟩
    · exact ⟨pair, marker, hp, hm, .inr (hmoves.gone hgone)⟩
  once := hi.once

/-! ## Steps -/

theorem mem_withoutPairs {erased : List (UInt32 × UInt32)} {markers : List ReplayMarkerRow}
    {row : ReplayMarkerRow} {q : UInt32 × UInt32} (hrow : row ∈ markers)
    (hq : row.signedPair = some q) : row ∈ withoutPairs erased markers ∨ q ∈ erased := by
  by_cases h : q ∈ erased
  · exact .inr h
  · exact .inl (List.mem_filter.mpr ⟨hrow, by simpa [hq] using h⟩)

variable {t : PrekeyTables (OwnDevice base)}

theorem AccountInv.commit {P : CryptoProvider} (hi : AccountInv P r)
    {p : AccountPlan NativeSession (OwnDevice base)} {now : Nat} (hp : p ∈ r.plans)
    (h : commitAccount L r.store p.peer p.commit (p.initial.bind signedPairOf) now = .ok a) :
    AccountInv P { r with store := a, committed := p.initial.toList ++ r.committed } := by
  simp only [commitAccount, ok_steps] at h
  obtain ⟨db, hdb, rfl⟩ := h
  obtain ⟨hinitial, hregular⟩ := hi.planned p hp
  have hmarks : ∀ row ∈ r.store.prekeys.replayMarkers, ∀ q, row.signedPair = some q →
      row ∈ r.store.prekeys.replayMarkers ++
        (p.commit.marker.toList.map (⟨·, p.initial.bind signedPairOf, now⟩)) ∨
      Gone db.deviceState.1 q.1 := fun row hrow _ _ => .inl (List.mem_append_left _ hrow)
  cases he : p.initial with
  | none =>
    obtain ⟨hrev, hdev⟩ := commitStore_device_none hdb (hregular he)
    rw [he] at hmarks
    exact hi.transfer (.inl ⟨hdev, hrev⟩) hmarks
  | some e =>
    obtain ⟨pair, marker, t, hpair, hsha, hmarker, ht, hr, hnext, -, hread⟩ := (hinitial e he).names
    obtain ⟨hrev, hrev'⟩ := commitStore_revision hdb ht hr
    obtain ⟨hheld, hfollows⟩ := hread hrev.symm
    rw [← commitStore_device hdb ht] at hfollows
    rw [he] at hmarks
    have hi' := hi.transfer (a := r.store.install p.peer db
      (p.commit.marker.toList.map (⟨·, (some e).bind signedPairOf, now⟩)))
      (.inr ⟨hfollows, by
        have hrev : r.store.prekeys.stateRevision = t.expectedStateVersion := hrev
        change _ < db.stateRevision
        omega⟩) hmarks
    -- a copy committed before has its marker, or a signed prekey that this plan could not have read
    have hnew : e ∉ r.committed := by
      intro hmem
      obtain ⟨pair', marker', hpair', hsha', hrec⟩ := hi.recorded e hmem
      cases hpair.symm.trans hpair'
      cases hsha.symm.trans hsha'
      rcases hrec with ⟨row, hrow, hrm, -⟩ | hgone
      · exact commitStore_marker hdb hmarker (List.mem_map.mpr ⟨row, hrow, hrm⟩)
      · rw [hgone.1] at hheld
        cases hheld
    refine { hi' with
      recorded := List.forall_mem_cons.mpr ⟨?_, hi'.recorded⟩
      once := List.nodup_cons.mpr ⟨hnew, hi.once⟩ }
    refine ⟨pair, marker, hpair, hsha, .inl ⟨⟨marker, some pair, now⟩, ?_, rfl, rfl⟩⟩
    refine List.mem_append_right _ ?_
    simp [hmarker, hpair]

variable {plan : PrekeyMaintenancePlan (OwnDevice base)}

theorem AccountInv.persistSummary {P : CryptoProvider} (hi : AccountInv P r)
    {s : Nat × PrekeyPruneResult (OwnDevice base)}
    (hs : s ∈ r.summaries) (h : persistNativeSummary s.1 s.2 r.store.prekeys = .ok t) :
    AccountInv P { r.withTables t with erased := s.2.erasedSignedPrekeys ++ r.erased } := by
  simp only [persistNativeSummary, ok_steps, not_or, not_and, not_not] at h
  obtain ⟨-, ⟨-, -, hnone⟩, -, -, -, ⟨hrev, -, -⟩, rfl⟩ := h
  cases hchanged : s.2.stateChanged with
  | false =>
    rw [hnone hchanged]
    exact hi.transfer (.inl ⟨rfl, rfl⟩) fun row hrow q hq =>
      .inl ((mem_withoutPairs hrow hq).resolve_right (List.not_mem_nil))
  | true =>
    obtain ⟨day, hday⟩ := (hi.summarised s hs).2 hrev.symm
    have hnext : s.2.nextDeviceState.1 = r.device.1.pruneRetired day := by rw [hday]; rfl
    have hgone : ∀ q ∈ s.2.erasedSignedPrekeys, Gone s.2.nextDeviceState.1 q.1 := by
      rw [hday]
      exact fun q hq => gone_of_erased hi.readable hq
    have hfollows : Follows r.device.1 s.2.nextDeviceState.1 :=
      hnext ▸ follows_pruneRetired hi.readable day
    have hlt : r.store.prekeys.stateRevision < s.1 + 1 := by omega
    have hi' := hi.transfer (a := { r.store with prekeys := { r.store.prekeys with
      deviceState := s.2.nextDeviceState
      stateRevision := s.1 + 1
      lastSignedPrekeyRotationUnixDay := s.2.currentSignedPrekeyCreatedUnixDay
      replayMarkers := withoutPairs s.2.erasedSignedPrekeys r.store.prekeys.replayMarkers } })
      (.inr ⟨hfollows, hlt⟩) fun row hrow q hq => (mem_withoutPairs hrow hq).imp_right (hgone q)
    exact { hi' with erased := List.forall_mem_append.mpr ⟨hgone, hi'.erased⟩ }

theorem AccountInv.persistPrepared {P : CryptoProvider} (hi : AccountInv P r)
    (hp : plan ∈ r.prepared) (h : L4.persistPrepared plan r.store.prekeys = .ok t) :
    AccountInv P (r.withTables t) := by
  simp only [L4.persistPrepared, ok_steps] at h
  obtain ⟨-, -, h⟩ := h
  split at h
  · simp only [ok_steps] at h
    obtain ⟨-, -, rfl⟩ := h
    exact hi
  · simp only [ok_steps, not_not] at h
    obtain ⟨-, -, -, hrev, rfl⟩ := h
    refine hi.transfer (.inr ⟨(hi.prepared plan hp).2 hrev.symm, ?_⟩) fun row hrow _ _ => .inl hrow
    change r.store.prekeys.stateRevision < plan.expectedStateRevision + 1
    omega

variable {stage : PrekeyMaintenanceStage}

theorem advancePlan_keeps {δ : Type} [DecidableEq δ]
    {plan : PrekeyMaintenancePlan δ} {t t' : PrekeyTables δ}
    (h : advancePlan stage plan t = .ok t') : ∃ p, t' = { t with plan := p } := by
  simp only [advancePlan, ok_steps] at h
  obtain ⟨-, -, stored, -, -, -, h⟩ := h
  split at h
  · simp only [ok_steps] at h
    obtain ⟨-, -, rfl⟩ := h
    exact ⟨t.plan, rfl⟩
  · simp only [ok_steps] at h
    obtain ⟨-, -, rfl⟩ := h
    exact ⟨some plan, rfl⟩

theorem AccountInv.advance {P : CryptoProvider} (hi : AccountInv P r)
    (h : advancePlan stage plan r.store.prekeys = .ok t) :
    AccountInv P (r.withTables t) := by
  obtain ⟨p, rfl⟩ := advancePlan_keeps h
  exact hi.transfer (.inl ⟨rfl, rfl⟩) fun row hrow _ _ => .inl hrow

theorem AccountInv.complete {P : CryptoProvider} (hi : AccountInv P r)
    {committed : PrekeyCommitResult (OwnDevice base)}
    (hc : commitPendingUpload plan.pendingDeviceState.1 plan.batchId =
      .ok committed.nextDeviceState.1)
    (h : L4.complete plan committed r.store.prekeys = .ok t) : AccountInv P (r.withTables t) := by
  simp only [L4.complete, ok_steps, okOr_eq_ok, not_or, not_not] at h
  obtain ⟨-, -, stored, hstored, -, ⟨hrev, rfl⟩, rfl⟩ := h
  obtain ⟨row, -, rfl⟩ := Option.map_eq_some_iff.mp hstored
  have hnext := commitPendingUpload_eq_ok hc
  have hfollows : Follows r.device.1 committed.nextDeviceState.1 :=
    .of_same (commitPendingUpload_readable hi.readable hc) (by rw [hnext]) (by rw [hnext])
  refine hi.transfer (.inr ⟨hfollows, ?_⟩) fun row hrow _ _ => .inl hrow
  change r.store.prekeys.stateRevision < row.expectedStateRevision + 2
  have hrev : r.store.prekeys.stateRevision = row.expectedStateRevision + 1 := hrev
  omega

theorem account_inductive :
    (accountSystem P base L replayRetention me).Inductive (AccountInv P.toCryptoProvider) where
  init := by
    rintro r ⟨hr, -, -, -, hplans, hsum, hprep, herased, hcommitted⟩
    exact ⟨hr, by simp [hplans], by simp [hsum], by simp [hprep], by simp [herased],
      by simp [hcommitted], by simp [hcommitted]⟩
  step := by
    intro r r' hi hstep
    cases hstep with
    | @prepare peer user op c h =>
      refine { hi with planned := List.forall_mem_cons.mpr ⟨?_, hi.planned⟩ }
      unfold Operation.initialEnvelope
      cases hop : op.isInitial with
      | true =>
        refine ⟨fun e he => ?_, fun h => by simp at h⟩
        cases he
        exact prepare_plannedInitial hi.readable hop h
      | false => exact ⟨fun e he => by simp at he, fun _ => prepare_device_none hop h⟩
    | commit hp h => exact hi.commit hp h
    | inspect | invalidate => exact hi.transfer (.inl ⟨rfl, rfl⟩) fun row hrow _ _ => .inl hrow
    | pruneMetadata now h =>
      refine hi.transfer (.inl ⟨rfl, rfl⟩) fun row hrow q hq => ?_
      have hyoung : row ∈ r.store.prekeys.replayMarkers.filter fun row =>
          ¬ (row.signedPair = none ∧ row.committedAt + replayRetention < now) :=
        List.mem_filter.mpr ⟨hrow, by simp [hq]⟩
      exact (mem_withoutPairs hyoung hq).imp_right fun hq' => hi.erased q (h hq')
    | pruneSigned day =>
      refine { hi with summarised := List.forall_mem_cons.mpr ⟨?_, hi.summarised⟩ }
      exact ⟨Nat.le_refl _, fun _ => ⟨day, rfl⟩⟩
    | persistSummary hs h => exact hi.persistSummary hs h
    | replenish h hr =>
      refine { hi with prepared := List.forall_mem_cons.mpr ⟨?_, hi.prepared⟩ }
      exact ⟨hr.le, fun _ => follows_prepareReplenishment hi.readable h⟩
    | rotate h hr =>
      refine { hi with prepared := List.forall_mem_cons.mpr ⟨?_, hi.prepared⟩ }
      exact ⟨hr.le, fun _ => follows_prepareRotation hi.readable h⟩
    | persistPrepared hp h => exact hi.persistPrepared hp h
    | markUploadAccepted h | persistLog h =>
      obtain ⟨-, h⟩ := unit_bind_eq_ok.mp h
      exact hi.advance h
    | complete hc h => exact hi.complete hc h

end Runs

/-! ## A committed initial -/

def sumAccount : AccountStore NativeSession (OwnDevice (sumDevice 2)) where
  prekeys := ⟨⟨sumDevice 2, rfl⟩, 1, none, 1, 0, false, []⟩
  remotes := []
  localApplications := []
  inspecting := ["envelope"]

def sumAccountLimits : StoreLimits := ⟨2000, 20000, 4096, 4096, 4096⟩

def sumReceive (envelope : Bytes) : Operation NativeInput :=
  .receiveInitial ⟨sumBundle 1 one_nonzero, none, none, [], envelope, sumProjection 1 one_nonzero, []⟩
    "envelope"

/-- The initial of device 1, the commit device 2 plans for it, and the account after it. -/
def sumCommitted : Option (Bytes × StoreCommit NativeSession (OwnDevice (sumDevice 2)) ×
    AccountStore NativeSession (OwnDevice (sumDevice 2))) := do
  let started ← (initiate sumProvider (sumDevice 1) (Block.fill 16 1) (Block.fill 16 2)
    (sumBundle 2 two_nonzero) none none [] [10] 0 (List.replicate 4096 5)).toOption
  let c ← (sumReceive started.2).prepare
    (nativeCrypto sumProvider (sumDevice 2) (Block.fill 16 2) (Block.fill 16 1)) sumAccountLimits
    "user" (sumAccount.view (Block.fill 16 1))
  let a ← (commitAccount sumAccountLimits sumAccount (Block.fill 16 1) c (signedPairOf started.2)
    0).toOption
  return (started.2, c, a)

/-- The envelope comes again: neither the old plan is committed nor a new one made. -/
theorem sumCommitted_refuses : (sumCommitted.map fun (envelope, c, a) =>
    let again := { a with inspecting := ["envelope"] }
    (((sumReceive envelope).prepare (nativeCrypto sumProvider (sumDevice 2) (Block.fill 16 2)
        (Block.fill 16 1)) sumAccountLimits "user" (again.view (Block.fill 16 1))).isNone,
      (commitAccount sumAccountLimits again (Block.fill 16 1) c (signedPairOf envelope)
        0).toOption.isNone)) = some (true, true) := by
  decide +kernel

/-! ## Once -/

/-- In every run no initial envelope is committed twice, whichever path its copies take. -/
theorem initial_committed_once (P : PrekeyProvider) (base : DeviceState) (L : StoreLimits)
    (replayRetention : Nat) (me : Block 16) (r : AccountRun base)
    (hr : (accountSystem P base L replayRetention me).Reachable r) : r.committed.Nodup :=
  (account_inductive.reachable hr).once

/-- Device 2 commits an initial of device 1. When the envelope comes again it has a plan for it still,
which is refused, and makes no other one. -/
theorem initial_committed_once_sumCommitted : ∃ r : AccountRun (sumDevice 2),
    (accountSystem sumPrekeyProvider (sumDevice 2) sumAccountLimits 0 (Block.fill 16 2)).Reachable r ∧
    r.store.inspecting = ["envelope"] ∧ r.committed.Nodup ∧ ∃ envelope, r.committed = [envelope] ∧
      (sumReceive envelope).prepare (nativeCrypto sumProvider (sumDevice 2) (Block.fill 16 2)
        (Block.fill 16 1)) sumAccountLimits "user" (r.store.view (Block.fill 16 1)) = none ∧
      ∃ p ∈ r.plans, p.initial = some envelope ∧
        (commitAccount sumAccountLimits r.store p.peer p.commit (signedPairOf envelope)
          0).toOption = none := by
  obtain ⟨⟨envelope, c, a⟩, h, hrefuses⟩ := Option.map_eq_some_iff.mp sumCommitted_refuses
  obtain ⟨hagain, hplan⟩ := Prod.mk.inj hrefuses
  simp only [sumCommitted, some_steps, toOption_eq_some, Prod.mk.injEq] at h
  obtain ⟨started, -, c', hc, a', ha, rfl, rfl, rfl⟩ := h
  have hreadable : (sumDevice 2).Readable := by constructor <;> decide
  let start : AccountRun (sumDevice 2) := ⟨sumAccount, [], [], [], [], []⟩
  have hstart : (accountSystem sumPrekeyProvider (sumDevice 2) sumAccountLimits 0
      (Block.fill 16 2)).Reachable start :=
    .init ⟨hreadable, rfl, rfl, rfl, rfl, rfl, rfl, rfl, rfl⟩
  have hr := ((hstart.step (.prepare hc)).step (.commit (List.mem_cons_self ..) ha)).step
    (.inspect ["envelope"])
  exact ⟨_, hr, rfl, initial_committed_once _ _ _ 0 _ _ hr, started.2, rfl,
    Option.isNone_iff_eq_none.mp hagain, _, List.mem_cons_self, rfl,
    Option.isNone_iff_eq_none.mp hplan⟩

end CommPlatform.L4
