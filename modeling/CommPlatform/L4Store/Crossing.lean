import CommPlatform.L4Store.NativeSessions

/-!
# Two devices that start a session at the same time

Each side has run `initiate` toward the other, may have sent more on the
session it started, and then accepts the other's initial with that session
as the existing primary one. Each decides alone, from the two device ids.
-/
namespace CommPlatform.L4

open CommPlatform.Core L1 L2
open L3

/-! ## A side of the crossing -/

/-- What a side did: the device state it initiated with, the one it accepts with, the call and its
outcome, and its session after whatever it sent on it. -/
structure Endpoint where
  id : Block 16
  device : DeviceState
  now : DeviceState
  peer : PeerBundle
  classical : Option OptionalClassicalPrekey
  pq : Option OptionalPqPrekey
  inner : Bytes
  otherSkipped : UInt32
  entropy : Bytes
  initiated : RatchetState
  envelope : Bytes
  session : RatchetState
  stored : Bytes
  /-- what it knows of the other side -/
  projection : AuthenticatedSenderProjection

/-- The sends of a side on one session, repair requests included. -/
inductive SendsOn (P : CryptoProvider) (peer : Block 16) (s : RatchetState) : RatchetState → Prop
  | refl : SendsOn P peer s s
  | encrypt {s' : RatchetState} {inner e : Bytes} {other : UInt32} {t : EncryptedTransition}
      (hs : SendsOn P peer s s') (h : ratchetEncrypt P s' peer inner other e = .ok t) :
      SendsOn P peer s t.state
  | repair {s' : RatchetState} {e : Bytes} {other : UInt32} {t : EncryptedTransition}
      (hs : SendsOn P peer s s') (h : createRepair P s' peer other e = .ok t) :
      SendsOn P peer s t.state

/-- `x` is an honest device that started a session toward `y`, with a bundle whose keys `y` still
holds, and knows who `y` is. -/
structure Endpoint.Initiates (P : CryptoProvider) (x y : Endpoint) : Prop where
  valid : x.device.Valid P
  validNow : x.now.Valid P
  identity : x.now.identitySecret = x.device.identitySecret
  initiate : initiate P x.device x.id y.id x.peer x.classical x.pq [] x.inner x.otherSkipped
    x.entropy = .ok (x.initiated, x.envelope)
  bundle : HonestBundle y.now x.peer x.classical x.pq
  sends : SendsOn P y.id x.initiated x.session
  stored : x.session.encode P x.now = .ok x.stored
  projection : HonestProjection y.device y.id x.projection

/-- `x` opens the initial of `y`, with its own session as the existing primary one. -/
def Endpoint.accept (P : CryptoProvider) (x y : Endpoint) : CryptoResult L3.AcceptedInitial := do
  let probe ← probeInitial P x.now x.id y.envelope
  acceptInitial P x.now x.id y.envelope probe.probeToken x.projection x.stored []

def Endpoint.ownAfter (x : Endpoint) (acc : L3.AcceptedInitial) : Bytes :=
  if acc.updatedExistingState = [] then x.stored else acc.updatedExistingState

/-- The one session a side sends on: nothing in it stands in the way of `ratchet_encrypt`, and it
has a sending chain or draws one. -/
structure Sendable (P : CryptoProvider) (s : RatchetState) (peer : Block 16) : Prop where
  primary : s.primary = true
  bidirectional : s.receiveOnly = false
  remote : s.remoteDeviceId = peer
  chain : ∀ e : Bytes, 32 ≤ e.length → ∃ s' rest, startSendingChain P s e = .ok (s', rest) ∧
    s'.sendingChain.isSome

structure ReceiveOnly (s : RatchetState) : Prop where
  notPrimary : s.primary = false
  receiveOnly : s.receiveOnly = true
  noChain : s.sendingChain = none

/-- What `x` is left with: `own` is the session it started, the accepted one is the session of `y`,
and the one of the lower id is the primary one. -/
structure Endpoint.Settled (P : CryptoProvider) (x y : Endpoint) (acc : L3.AcceptedInitial)
    (own : RatchetState) : Prop where
  opened : acc.inner = y.inner
  kept : own.encode P x.now = .ok (x.ownAfter acc)
  ownId : own.sessionId = x.initiated.sessionId ∧ own.initiatorDeviceId = x.id
  accepted : acc.session.encode P x.now = .ok acc.sessionState
  acceptedId : acc.session.sessionId = y.initiated.sessionId ∧ acc.session.initiatorDeviceId = y.id
  lower : x.id.bytes < y.id.bytes →
    acc.disposition = 1 ∧ Sendable P own y.id ∧ ReceiveOnly acc.session
  higher : y.id.bytes < x.id.bytes →
    acc.disposition = 0 ∧ Sendable P acc.session y.id ∧ ReceiveOnly own

/-! ## The own session -/

section Own

variable {P : CryptoProvider} {peer : Block 16} {s s' : RatchetState} (h : SendsOn P peer s s')
include h

theorem SendsOn.same : SameSession s s' := by
  induction h with
  | refl => exact ⟨rfl, rfl, rfl, rfl, rfl, rfl⟩
  | encrypt _ h ih => exact ih.trans (ratchetEncrypt_same h)
  | repair _ h ih => exact ih.trans (createRepair_inv h).1

theorem SendsOn.usable (hs : s.Usable P)
    (hn : s.receivedRepairToken = none) : s'.Usable P ∧ s'.receivedRepairToken = none := by
  induction h with
  | refl => exact ⟨hs, hn⟩
  | encrypt _ h ih => exact ⟨ratchetEncrypt_usable ih.1 h, (ratchetEncrypt_tokens h).2.trans ih.2⟩
  | repair _ h ih =>
    exact ⟨(createRepair_usable_iff ih.1 h).mpr ih.2, (createRepair_inv h).2.trans ih.2⟩

theorem SendsOn.chain (hs : s.sendingChain.isSome) : s'.sendingChain.isSome := by
  induction h with
  | refl => exact hs
  | encrypt _ h _ =>
    obtain ⟨-, -, _, _, _, _, -, -, -, -, hstate⟩ := ratchetEncrypt_inv h
    simp [hstate]
  | repair _ h _ =>
    simp only [createRepair, bind_eq_ok] at h
    obtain ⟨_, -, _, -, h⟩ := h
    obtain ⟨-, -, _, _, _, _, -, -, -, -, hstate⟩ := ratchetEncrypt_inv h
    simp [hstate]

omit h

variable {device : DeviceState}

theorem encode_demoted {b : Bytes} (h : s.encode P device = .ok b) :
    ∃ b', s.demoted.encode P device = .ok b' := by
  obtain ⟨hlen, hsorted, k, t, hk, ht, -⟩ := encode_eq_ok.mp h
  simp only [hmacSha256, ok_steps, not_or, not_lt] at ht
  obtain ⟨-, ⟨hkey, hinput⟩, -⟩ := ht
  have htail : (encodeStateTail s.demoted).length ≤ (encodeStateTail s).length := by
    simp only [encodeStateTail, RatchetState.demoted, List.length_append]
    cases s.sendingChain <;> simp [encodeOptionalSecret]
  refine ⟨_, encode_eq_ok.mpr ⟨hlen, hsorted, k, _, hk, hmacSha256_eq P hkey ?_, rfl⟩⟩
  simp only [List.length_append, length_encodeStateHead, Block.length_bytes] at hinput ⊢
  omega

theorem encode_ne_nil {b : Bytes} (h : s.encode P device = .ok b) : b ≠ [] := by
  obtain ⟨-, -, k, t, -, -, rfl⟩ := encode_eq_ok.mp h
  intro hnil
  have := congrArg List.length hnil
  simp at this

end Own

section Sides

variable {P : CryptoProvider} {x y : Endpoint}

/-- The session a side started, after its sends: what it started, usable and with a sending
chain. -/
theorem Endpoint.Initiates.own (hx : x.Initiates P y) (hy : y.Initiates P x) :
    Initiated x.session x.id y.id ∧ x.session.sessionId = x.initiated.sessionId ∧
      x.session.sendingChain.isSome ∧ RatchetState.decode P x.now x.stored = .ok x.session := by
  obtain ⟨hinit, hnone, hchain⟩ : Initiated x.initiated x.id y.id ∧
      x.initiated.receivedRepairToken = none ∧ x.initiated.sendingChain.isSome := by
    obtain ⟨-, -, repair, keys, _, _, _, _, _, -, -, -, -, -, -, -, hs⟩ := initiate_inv hx.initiate
    rw [hs]
    exact ⟨⟨rfl, rfl, rfl, rfl, rfl⟩, rfl, rfl⟩
  -- the bundle `y` used names the device, so its id is not zero
  have hid : isZero x.id.bytes = false := by
    have := (initiate_inv hy.initiate).1
    rw [← this]
    exact y.peer.deviceId_ne
  have hsame := hx.sends.same
  have hu := hx.sends.usable (initiate_usable hid hx.initiate) hnone
  exact ⟨hsame.initiated hinit, hsame.sessionId, hx.sends.chain hchain,
    (decode_encode_iff hx.stored).mpr hu.1⟩

theorem sendable_of_chain {s : RatchetState} {me peer : Block 16} (hi : Initiated s me peer)
    (hc : s.sendingChain.isSome) : Sendable P s peer where
  primary := hi.primary
  bidirectional := hi.receiveOnly
  remote := hi.remoteDeviceId
  chain e _ := by
    obtain ⟨c, hc⟩ := Option.isSome_iff_exists.mp hc
    exact ⟨s, e, by simp [startSendingChain, hc], by simp [hc]⟩

/-- A session accepted as the primary one can be sent on: the ratchet key of the initiator is a
derived one, so the exchange with a fresh key succeeds. -/
theorem sendable_accepted (hP : Correct P) {me peer : Block 16} {header : InitialHeader}
    {transcript : Block 32} {root chain secret : Key} {spk : ClassicalSignedKey}
    (hpub : P.x25519Public secret = .ok header.ratchetPublic) :
    Sendable P (acceptedSession me peer header transcript true root chain spk) peer where
  primary := rfl
  bidirectional := rfl
  remote := rfl
  chain e he := by
    obtain ⟨pub, hfresh⟩ := hP.x25519_public (Block.ofTake 32 e he)
    obtain ⟨dh, hdh, -⟩ := hP.x25519_symm _ _ _ _ hfresh hpub
    refine ⟨(acceptedSession me peer header transcript true root chain spk).withSendingKey P
      (Block.ofTake 32 e he) pub dh, e.drop 32, ?_, rfl⟩
    simp [startSendingChain, acceptedSession, RatchetState.withSendingKey, randomArray_of_le he,
      hfresh, hdh, kdfRoot_eq]

/-- The call of one side, with what it makes of the two ids. -/
theorem Endpoint.Initiates.accepts (hP : Correct P) (hx : x.Initiates P y) (hy : y.Initiates P x)
    {wins : Bool} {upd : Bytes} (hwins : wins = decide (y.id.bytes < x.id.bytes))
    (hdem : encodeDemoted P x.now wins (some x.session) = .ok upd) :
    ∃ acc header transcript root chain spk secret, x.accept P y = .ok acc ∧
      acc.inner = y.inner ∧ acc.updatedExistingState = upd ∧
      acc.disposition = (!wins).toUInt8 ∧ acc.session.encode P x.now = .ok acc.sessionState ∧
      acc.session = acceptedSession x.id y.id header transcript wins root chain spk ∧
      header.sessionId = y.initiated.sessionId ∧
      P.x25519Public secret = .ok header.ratchetPublic := by
  obtain ⟨hinit, -, -, hdec⟩ := hx.own hy
  have hproj := hx.projection
  have hread : readExisting P x.now x.id x.projection.deviceId false x.stored =
      .ok (some x.session) := readExisting_of_initiated hdec (hproj.deviceId ▸ hinit)
  rw [hproj.deviceId] at hread
  have hre : checkReplaced P x.now x.id y.id none x.stored [] = .ok none := by
    simp [checkReplaced, failIf]
  have hiw : incomingWins false (some x.session) y.id x.id = wins := by simp [incomingWins, hwins]
  obtain ⟨probe, acc, keys, eph, shared, dh, transcript, spk, senderSeal, hprobe, hacc, hagreed, -,
    -, hstate, -, -, hsession, henc, hinner, hupd, -⟩ := accept_of_initiate hP hy.valid hx.validNow
      hy.bundle hproj hy.initiate rfl hre hread (hiw.symm ▸ hdem)
  refine ⟨acc, _, _, _, _, _, keys.ratchetSecret, ?_, hinner, hupd, ?_, henc, hiw ▸ hsession, ?_,
    hagreed.ratchetPublic⟩
  · rw [Endpoint.accept, hprobe, ok_bind, hacc]
  · rw [acceptInitial_disposition hacc, hsession, ← hiw]
    rfl
  · rw [hstate]
    rfl

theorem Endpoint.Initiates.settles (hP : Correct P) (hx : x.Initiates P y) (hy : y.Initiates P x) :
    ∃ acc own, x.accept P y = .ok acc ∧ x.Settled P y acc own := by
  obtain ⟨hinit, hsid, hchain, -⟩ := hx.own hy
  cases hwins : decide (y.id.bytes < x.id.bytes) with
  | true =>
    obtain ⟨b, hb⟩ := encode_demoted hx.stored
    obtain ⟨acc, header, transcript, root, chain, spk, secret, hacc, hinner, hupd, hdisp, henc,
      hsession, hheader, hpub⟩ := hx.accepts hP hy hwins.symm hb
    refine ⟨acc, x.session.demoted, hacc, hinner, ?_, ⟨hsid, hinit.initiatorDeviceId⟩, henc,
      by rw [hsession]; exact ⟨hheader, rfl⟩, fun hlt => ?_, fun _ => ⟨hdisp, ?_, rfl, rfl, rfl⟩⟩
    · rw [Endpoint.ownAfter, hupd, if_neg (encode_ne_nil hb)]
      exact hb
    · exact absurd hlt (List.lt_asymm (of_decide_eq_true hwins))
    · rw [hsession]
      exact sendable_accepted hP hpub
  | false =>
    obtain ⟨acc, header, transcript, root, chain, spk, secret, hacc, hinner, hupd, hdisp, henc,
      hsession, hheader, -⟩ := hx.accepts hP hy hwins.symm rfl
    refine ⟨acc, x.session, hacc, hinner, ?_, ⟨hsid, hinit.initiatorDeviceId⟩, henc,
      by rw [hsession]; exact ⟨hheader, rfl⟩,
      fun _ => ⟨hdisp, sendable_of_chain hinit hchain, ?_⟩, fun hlt => ?_⟩
    · rw [Endpoint.ownAfter, hupd]
      exact hx.stored
    · rw [hsession]
      exact ⟨rfl, rfl, rfl⟩
    · exact absurd hlt (of_decide_eq_false hwins)

end Sides

/-! ## Both sides -/

/-- Simultaneous initiation converges, whichever side has the lower id and whatever each side sent
on its own session before: both open the other's payload, both are left with the session of the
lower id as the primary one they can send on, and with the other one receive-only. -/
theorem crossed_initiations_converge (P : CryptoProvider) (hP : Correct P) (a b : Endpoint)
    (ha : a.Initiates P b) (hb : b.Initiates P a) :
    (a.id.bytes < b.id.bytes ∨ b.id.bytes < a.id.bytes) ∧
      (∃ acc own, a.accept P b = .ok acc ∧ a.Settled P b acc own) ∧
      ∃ acc own, b.accept P a = .ok acc ∧ b.Settled P a acc own := by
  refine ⟨?_, ha.settles hP hb, hb.settles hP ha⟩
  by_contra hn
  obtain ⟨hab, hba⟩ := not_or.mp hn
  exact (initiate_inv ha.initiate).2.1
    (Block.ext (List.le_antisymm (List.not_lt.mp hba) (List.not_lt.mp hab)))

def sumEndpoint (me peer : UInt8) (hpeer : isZero (Block.fill 16 peer).bytes = false) :
    CryptoResult Endpoint := do
  let started ← initiate sumProvider (sumDevice me) (Block.fill 16 me) (Block.fill 16 peer)
    (sumBundle peer hpeer) none none [] [me] 0 (List.replicate 3000 me)
  let sent ← ratchetEncrypt sumProvider started.1 (Block.fill 16 peer) [me, me] 0
    (List.replicate 1000 me)
  let stored ← sent.state.encode sumProvider (sumDevice me)
  return ⟨Block.fill 16 me, sumDevice me, sumDevice me, sumBundle peer hpeer, none, none, [me], 0,
    List.replicate 3000 me, started.1, started.2, sent.state, stored, sumProjection peer hpeer⟩

theorem sumEndpoint_initiates {me peer : UInt8} {hme : isZero (Block.fill 16 me).bytes = false}
    {hpeer : isZero (Block.fill 16 peer).bytes = false} {x y : Endpoint}
    (hx : sumEndpoint me peer hpeer = .ok x) (hy : sumEndpoint peer me hme = .ok y) :
    x.Initiates sumProvider y := by
  simp only [sumEndpoint, ok_steps] at hx hy
  obtain ⟨started, hstarted, sent, hsent, stored, hstored, rfl⟩ := hx
  obtain ⟨_, -, _, -, _, -, rfl⟩ := hy
  have hb := sumBundle_honest peer hpeer
  exact {
    valid := sumDevice_valid me
    validNow := sumDevice_valid me
    identity := rfl
    initiate := hstarted
    bundle := ⟨hb.ik, hb.signed, hb.pqSigned, by simp, by simp⟩
    sends := .encrypt .refl hsent
    stored := hstored
    projection := sumProjection_honest peer hpeer }

theorem sumEndpoints : (sumEndpoint 1 2 two_nonzero).toOption.isSome = true ∧
    (sumEndpoint 2 1 one_nonzero).toOption.isSome = true := by
  decide +kernel

/-- Devices 1 and 2 start a session toward each other. -/
theorem crossed_initiations_converge_sumSides : ∃ a b : Endpoint,
    a.Initiates sumProvider b ∧ b.Initiates sumProvider a ∧ a.id.bytes < b.id.bytes ∧
      (∃ acc own, a.accept sumProvider b = .ok acc ∧ a.Settled sumProvider b acc own) ∧
      ∃ acc own, b.accept sumProvider a = .ok acc ∧ b.Settled sumProvider a acc own := by
  obtain ⟨a, ha⟩ := exists_ok_of_isSome sumEndpoints.1
  obtain ⟨b, hb⟩ := exists_ok_of_isSome sumEndpoints.2
  have hab := sumEndpoint_initiates ha hb
  have hba := sumEndpoint_initiates hb ha
  obtain ⟨-, haccept, hbaccept⟩ := crossed_initiations_converge sumProvider sumProvider_correct a b
    hab hba
  refine ⟨a, b, hab, hba, ?_, haccept, hbaccept⟩
  simp only [sumEndpoint, ok_steps] at ha hb
  obtain ⟨_, -, _, -, _, -, rfl⟩ := ha
  obtain ⟨_, -, _, -, _, -, rfl⟩ := hb
  exact (by decide : (Block.fill 16 1).bytes < (Block.fill 16 2).bytes)

end CommPlatform.L4
