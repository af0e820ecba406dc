import CommPlatform.Core.Runs
import CommPlatform.L3Protocol.RatchetStep
import CommPlatform.L3Protocol.HandshakeAgreement

/-!
# Session operations and the states they emit

The session operations of the multiplexer (`pairwise.rs:1975-2203`): each
decodes the states it is given, runs one function of the core and encodes
what comes out. A `Party` is one device with every session state its calls
have emitted; a run is any sequence of calls on states emitted before.

`RatchetState::decode` checks relations between fields that
`RatchetState::encode` does not, so whether an emitted state can be used
again depends on what the operations preserve.
-/
namespace CommPlatform.L3

open CommPlatform.Core L1 L2

/-! ## Operations -/

/-- A session state as an operation returns it, with what goes with it: an envelope, the opened
bytes or a repair authorization. -/
structure SessionOutput where
  state : RatchetState
  encodedState : Bytes
  payload : Bytes

def SessionOutput.ofState (P : CryptoProvider) (device : DeviceState) (state : RatchetState)
    (payload : Bytes) : CryptoResult SessionOutput := do
  let encodedState ← state.encode P device
  return ⟨state, encodedState, payload⟩

/-- mirrors pairwise.rs:1975-2015 -/
def operationInitiate (P : CryptoProvider) (device : DeviceState)
    (senderDeviceId recipientDeviceId : Block 16) (peer : PeerBundle)
    (classicalOneTime : Option OptionalClassicalPrekey) (pqOneTime : Option OptionalPqPrekey)
    (repairAuthorization inner : Bytes) (otherSessionsSkipped : UInt32) (entropy : Bytes) :
    CryptoResult SessionOutput := do
  let started ← initiate P device senderDeviceId recipientDeviceId peer classicalOneTime pqOneTime
    repairAuthorization inner otherSessionsSkipped entropy
  SessionOutput.ofState P device started.1 started.2

/-- mirrors pairwise.rs:2034-2087 -/
def operationAccept (P : CryptoProvider) (device : DeviceState) (recipientDeviceId : Block 16)
    (envelope : Bytes) (probeToken : Key) (sender : AuthenticatedSenderProjection)
    (existingPrimaryState replacedState : Bytes) (otherSessionsSkipped : UInt32) :
    CryptoResult AcceptedInitial := do
  failIf (otherSessionsSkipped.toNat > maxSkippedAccount) .resourceExhausted
  acceptInitial P device recipientDeviceId envelope probeToken sender existingPrimaryState
    replacedState

/-- mirrors pairwise.rs:2089-2117 -/
def operationEncrypt (P : CryptoProvider) (device : DeviceState) (recipientDeviceId : Block 16)
    (stateBytes inner : Bytes) (otherSessionsSkipped : UInt32) (entropy : Bytes) :
    CryptoResult SessionOutput := do
  let state ← RatchetState.decode P device stateBytes
  let transition ← ratchetEncrypt P state recipientDeviceId inner otherSessionsSkipped entropy
  SessionOutput.ofState P device transition.state transition.envelope

/-- The outcome of opening: `none` is `OUTCOME_REPAIR_REQUIRED`.
mirrors pairwise.rs:2119-2159 -/
def operationDecrypt (P : CryptoProvider) (device : DeviceState) (recipientDeviceId : Block 16)
    (stateBytes envelope : Bytes) (otherSessionsSkipped : UInt32) (entropy : Bytes) :
    CryptoResult (Option SessionOutput) := do
  let state ← RatchetState.decode P device stateBytes
  let outcome ← ratchetDecrypt P state recipientDeviceId envelope otherSessionsSkipped entropy
  match outcome with
  | .repairRequired => .ok none
  | .prepared transition => do
    let output ← SessionOutput.ofState P device transition.state transition.inner
    return some output

/-- mirrors pairwise.rs:2161-2182 -/
def operationCreateRepair (P : CryptoProvider) (device : DeviceState) (recipientDeviceId : Block 16)
    (stateBytes : Bytes) (otherSessionsSkipped : UInt32) (entropy : Bytes) :
    CryptoResult SessionOutput := do
  let state ← RatchetState.decode P device stateBytes
  let transition ← createRepair P state recipientDeviceId otherSessionsSkipped entropy
  SessionOutput.ofState P device transition.state transition.envelope

/-- mirrors pairwise.rs:2184-2203 -/
def operationConsumeRepair (P : CryptoProvider) (device : DeviceState) (stateBytes : Bytes) :
    CryptoResult SessionOutput := do
  let state ← RatchetState.decode P device stateBytes
  let consumed ← consumeRepairAuthorization P device state
  SessionOutput.ofState P device consumed.1 consumed.2

/-! ## Runs of one device -/

/-- A device, its id, and every session state its calls emitted with the bytes it was emitted
as. -/
structure Party where
  localId : Block 16
  device : DeviceState
  emitted : List (RatchetState × Bytes)

def Party.emit (p : Party) (o : SessionOutput) : Party :=
  { p with emitted := (o.state, o.encodedState) :: p.emitted }

/-- What a successful `accept_initial` leaves: it emits the new session and, when the incoming
session wins over an existing primary one, that session demoted; the reported one-time keys are
gone. -/
def Party.emitAccepted (P : CryptoProvider) (p : Party) (existing : Bytes) (acc : AcceptedInitial) :
    Party :=
  let demoted := match RatchetState.decode P p.device existing with
    | .ok s => if acc.updatedExistingState.isEmpty then [] else
        [(s.demoted, acc.updatedExistingState)]
    | .error _ => []
  { p with
    device := p.device.withoutOneTime (some acc.consumedClassicalId) (some acc.consumedPqId)
    emitted := (acc.session, acc.sessionState) :: demoted ++ p.emitted }

/-- A call, with everything that is up to the caller, the peer and the random tape. -/
inductive SessionCall
  | initiate (recipientDeviceId : Block 16) (peer : PeerBundle)
      (classicalOneTime : Option OptionalClassicalPrekey) (pqOneTime : Option OptionalPqPrekey)
      (repairAuthorization inner : Bytes) (otherSessionsSkipped : UInt32) (entropy : Bytes)
  | accept (envelope : Bytes) (probeToken : Key) (sender : AuthenticatedSenderProjection)
      (existing replaced : Bytes) (otherSessionsSkipped : UInt32)
  | encrypt (recipientDeviceId : Block 16) (state inner : Bytes) (otherSessionsSkipped : UInt32)
      (entropy : Bytes)
  | decrypt (state envelope : Bytes) (otherSessionsSkipped : UInt32) (entropy : Bytes)
  | createRepair (recipientDeviceId : Block 16) (state : Bytes) (otherSessionsSkipped : UInt32)
      (entropy : Bytes)
  | consumeRepair (state : Bytes)

/-- The session states a call reads. An absent one is the empty string. -/
def SessionCall.reads : SessionCall → List Bytes
  | .initiate .. => []
  | .accept _ _ _ existing replaced _ => [existing, replaced]
  | .encrypt _ state _ _ _ => [state]
  | .decrypt state _ _ _ => [state]
  | .createRepair _ state _ _ => [state]
  | .consumeRepair state => [state]

/-- What a call makes of the device; a call that fails emits nothing. -/
def Party.call (P : CryptoProvider) (p : Party) : SessionCall → CryptoResult Party
  | .initiate rid peer cl pq auth inner other e => do
    return p.emit (← operationInitiate P p.device p.localId rid peer cl pq auth inner other e)
  | .accept envelope token sender existing replaced other => do
    return p.emitAccepted P existing
      (← operationAccept P p.device p.localId envelope token sender existing replaced other)
  | .encrypt rid state inner other e => do
    return p.emit (← operationEncrypt P p.device rid state inner other e)
  | .decrypt state envelope other e => do
    return (← operationDecrypt P p.device p.localId state envelope other e).elim p p.emit
  | .createRepair rid state other e => do
    return p.emit (← operationCreateRepair P p.device rid state other e)
  | .consumeRepair state => do
    return p.emit (← operationConsumeRepair P p.device state)

/-- One step: a call on states emitted before, or a prekey operation, which leaves the identity
secret in place. `Allowed` restricts the calls. -/
inductive Party.Step (P : CryptoProvider) (Allowed : Party → SessionCall → Prop) :
    Party → Party → Prop
  | call {p p' : Party} (c : SessionCall) (reads : ∀ b ∈ c.reads, b = [] ∨ ∃ s, (s, b) ∈ p.emitted)
      (allowed : Allowed p c) (h : p.call P c = .ok p') : Step P Allowed p p'
  | prekeys {p : Party} (d : DeviceState) (valid : d.Valid P)
      (same : d.identitySecret = p.device.identitySecret) : Step P Allowed p { p with device := d }

def sessionRuns (P : CryptoProvider) (Allowed : Party → SessionCall → Prop) : System Party where
  init p := p.device.Valid P ∧ p.emitted = []
  step := Party.Step P Allowed

/-! ## Relations between the fields -/

variable {s : RatchetState} {P : CryptoProvider}

theorem RatchetState.Usable.consistent (h : s.Usable P) :
    Consistent s := fieldsConsistent_iff.mp h.fields

variable {rid : Block 16} {other : UInt32}

/-! ## What each function preserves -/

section Preserve

variable {P : CryptoProvider} {s : RatchetState}

theorem demoted_usable_iff (h : s.Usable P) : s.demoted.Usable P ↔ s.sendCount = 0 := by
  have hc := h.consistent
  constructor
  · intro hd
    exact hd.consistent.sending rfl
  · intro h0
    exact ⟨fieldsConsistent_iff.mpr ⟨hc.sessionId, hc.localId, hc.remoteId, hc.distinct, rfl,
      fun _ => rfl, fun _ => h0, hc.receiving, hc.tokens⟩, h.ratchetKey⟩

variable {t : EncryptedTransition} {s1 : RatchetState}

theorem startSendingChain_usable {e rest : Bytes} (h : s.Usable P)
    (hro : s.receiveOnly = false) (hs : startSendingChain P s e = .ok (s1, rest)) :
    s1.Usable P ∧ s1.receiveOnly = false := by
  rcases startSendingChain_cases hs with ⟨-, rfl, -⟩ | ⟨-, h32, pub, dh, hp, -, rfl, -⟩
  · exact ⟨h, hro⟩
  · have hc := h.consistent
    refine ⟨⟨fieldsConsistent_iff.mpr ⟨hc.sessionId, hc.localId, hc.remoteId, hc.distinct, hc.roles,
      ?_, ?_, hc.receiving, hc.tokens⟩, hp⟩, hro⟩
    · intro hr; exact absurd hr (by simp [RatchetState.withSendingKey, hro])
    · intro hn; cases hn

variable {inner e : Bytes}

theorem ratchetEncrypt_usable (h : s.Usable P)
    (ht : ratchetEncrypt P s rid inner other e = .ok t) : t.state.Usable P := by
  obtain ⟨hro, -, s1, rest, c, m, hs, hc, -, -, hstate⟩ := ratchetEncrypt_inv ht
  obtain ⟨h1, hro1⟩ := startSendingChain_usable h hro hs
  have hc1 := h1.consistent
  rw [hstate]
  refine ⟨fieldsConsistent_iff.mpr ⟨hc1.sessionId, hc1.localId, hc1.remoteId, hc1.distinct,
    hc1.roles, ?_, ?_, hc1.receiving, hc1.tokens⟩, h1.ratchetKey⟩
  · intro hr; rw [hro1] at hr; cases hr
  · intro hn; cases hn

theorem ratchetEncrypt_tokens (ht : ratchetEncrypt P s rid inner other e = .ok t) :
    t.state.issuedRepairToken = s.issuedRepairToken ∧
      t.state.receivedRepairToken = s.receivedRepairToken := by
  obtain ⟨-, -, s1, rest, c, m, hs, -, -, -, hstate⟩ := ratchetEncrypt_inv ht
  rw [hstate]
  rcases startSendingChain_cases hs with ⟨-, rfl, -⟩ | ⟨-, _, _, _, -, -, rfl, -⟩ <;>
    exact ⟨rfl, rfl⟩

theorem createRepair_usable_iff {e : Bytes} (h : s.Usable P)
    (ht : createRepair P s rid other e = .ok t) :
    t.state.Usable P ↔ s.receivedRepairToken = none := by
  unfold createRepair at ht
  simp only [ok_steps] at ht
  obtain ⟨_, -, token, -, ht⟩ := ht
  obtain ⟨hissued, hreceived⟩ := ratchetEncrypt_tokens ht
  constructor
  · intro hu
    have htok := hu.consistent.tokens
    rw [hissued, hreceived] at htok
    exact htok.resolve_left (by simp)
  · intro hn
    have hc := h.consistent
    refine ratchetEncrypt_usable ?_ ht
    exact ⟨fieldsConsistent_iff.mpr ⟨hc.sessionId, hc.localId, hc.remoteId, hc.distinct, hc.roles,
      hc.receiveOnly, hc.sending, hc.receiving, .inr hn⟩, h.ratchetKey⟩

theorem consumeRepairAuthorization_usable {d : DeviceState} {r : RatchetState × Bytes}
    (h : s.Usable P) (hr : consumeRepairAuthorization P d s = .ok r) : r.1.Usable P := by
  unfold consumeRepairAuthorization at hr
  simp only [ok_steps] at hr
  obtain ⟨token, -, key, -, tag, -, rfl⟩ := hr
  have hc := h.consistent
  exact ⟨fieldsConsistent_iff.mpr ⟨hc.sessionId, hc.localId, hc.remoteId, hc.distinct, hc.roles,
    hc.receiveOnly, hc.sending, hc.receiving, .inr rfl⟩, h.ratchetKey⟩

/-- The end of an opening keeps a usable state usable unless a control puts a second token beside
an issued one. -/
theorem finishOpen_usable {inner bytes : Bytes} {t : DecryptedTransition} (h : s.Usable P)
    (ht : finishOpen P s inner bytes = .ok t)
    (hkind : s.issuedRepairToken = none ∨ t.payloadKind = 0) : t.state.Usable P := by
  obtain ⟨-, -, hi⟩ := finishOpen_eq_ok.mp ht
  rcases inspectRepairControl_cases hi with ⟨hs, -⟩ | ⟨-, hk, -, token, hs⟩
  · rw [hs]; exact h
  · have hn : s.issuedRepairToken = none := hkind.resolve_right (by simp [hk])
    have hc := h.consistent
    rw [hs]
    exact ⟨fieldsConsistent_iff.mpr ⟨hc.sessionId, hc.localId, hc.remoteId, hc.distinct, hc.roles,
      hc.receiveOnly, hc.sending, hc.receiving, .inl hn⟩, h.ratchetKey⟩

variable {header : RegularHeader}

theorem openNext_usable {env : Envelope} {bytes : Bytes}
    {t : DecryptedTransition} (h : s.Usable P)
    (ht : (openNext P s rid env header bytes).result = .ok t)
    (hkind : s.issuedRepairToken = none ∨ t.payloadKind = 0) : t.state.Usable P := by
  obtain ⟨-, c, m, -, -, -, -, hf⟩ := openNext_eq_ok.mp ht
  have hc := h.consistent
  refine finishOpen_usable ?_ hf hkind
  exact ⟨fieldsConsistent_iff.mpr ⟨hc.sessionId, hc.localId, hc.remoteId, hc.distinct, hc.roles,
    hc.receiveOnly, hc.sending, (fun hn => nomatch hn), hc.tokens⟩, h.ratchetKey⟩

theorem ratchetReceive_usable {e : Bytes}
    (h : s.Usable P) (hs : (ratchetReceive P s header e).result = .ok s1)
    (hro : s.receiveOnly = false) :
    s1.Usable P := by
  obtain ⟨-, -, dhr, -, h32, pub, dhs, hp, -, rfl⟩ := ratchetReceive_eq_ok.mp hs
  have hc := h.consistent
  refine ⟨fieldsConsistent_iff.mpr ⟨hc.sessionId, hc.localId, hc.remoteId, hc.distinct, hc.roles,
    ?_, (fun hn => nomatch hn), (fun hn => nomatch hn), hc.tokens⟩, hp⟩
  intro hr; exact absurd (hro.symm.trans hr) (by simp)

/-- Opening an envelope keeps a state usable, unless a control arrives after a token was issued or
the envelope brings a new ratchet key to a receive-only session. -/
theorem ratchetDecrypt_usable {bytes e : Bytes} {t : DecryptedTransition} (h : s.Usable P)
    (ht : ratchetDecrypt P s rid bytes other e = .ok (.prepared t))
    (hkind : s.issuedRepairToken = none ∨ t.payloadKind = 0)
    (hratchet : s.receiveOnly = true → t.state.remoteRatchetPublic = s.remoteRatchetPublic) :
    t.state.Usable P := by
  obtain ⟨-, env, header, -, -, -, hcase⟩ := ratchetDecrypt_eq_prepared.mp ht
  rcases hcase with ⟨-, -, ho⟩ | ⟨hne, -, -, s1, hr, ho⟩ | ⟨-, -, -, ho⟩
  · obtain ⟨key, -, -, hf⟩ := openSkipped_eq_ok.mp ho
    have hc := h.consistent
    refine finishOpen_usable ?_ hf hkind
    exact ⟨fieldsConsistent_iff.mpr ⟨hc.sessionId, hc.localId, hc.remoteId, hc.distinct, hc.roles,
      hc.receiveOnly, hc.sending, hc.receiving, hc.tokens⟩, h.ratchetKey⟩
  · have hremote : t.state.remoteRatchetPublic = header.ratchetPublic := by
      obtain ⟨-, _, _, -, _, _, _, -, -, rfl⟩ := ratchetReceive_eq_ok.mp hr
      obtain ⟨-, c, m, -, -, -, -, hf⟩ := openNext_eq_ok.mp ho
      obtain ⟨-, -, hi⟩ := finishOpen_eq_ok.mp hf
      obtain ⟨token, hs⟩ := inspectRepairControl_frame hi
      rw [hs]; rfl
    have hro : s.receiveOnly = false := by
      by_contra hro
      exact hne (hremote.symm.trans (hratchet (Bool.not_eq_false _ ▸ hro)))
    have hissued : s1.issuedRepairToken = s.issuedRepairToken := by
      obtain ⟨-, _, _, -, _, _, _, -, -, rfl⟩ := ratchetReceive_eq_ok.mp hr
      rfl
    exact openNext_usable (ratchetReceive_usable h hr hro) ho (hissued ▸ hkind)
  · exact openNext_usable h ho hkind

end Preserve

variable {sender : AuthenticatedSenderProjection} {acc : AcceptedInitial} {token : Key}

/-! ## New sessions -/

section Start

variable {P : CryptoProvider} {device : DeviceState}

theorem initiate_usable {sid rid : Block 16} {peer : PeerBundle}
    {cl : Option OptionalClassicalPrekey} {pq : Option OptionalPqPrekey} {auth inner e env : Bytes}
    (hid : isZero sid.bytes = false)
    (h : initiate P device sid rid peer cl pq auth inner other e = .ok (s, env)) : s.Usable P := by
  obtain ⟨hpeer, hne, repair, keys, _, _, _, _, _, -, ha, -, -, -, -, -, rfl⟩ := initiate_inv h
  exact ⟨fieldsConsistent_iff.mpr ⟨ha.sessionId_ne, hid, hpeer ▸ peer.deviceId_ne, hne, rfl,
    (fun hr => nomatch hr), (fun hn => nomatch hn), fun _ => rfl, .inl rfl⟩, ha.ratchetPublic⟩

theorem consumeNamed_identitySecret {header : InitialHeader}
    {r : DeviceState × UInt32 × UInt32} (h : consumeNamed device header = .ok r) :
    r.1.identitySecret = device.identitySecret := by
  have hc : ∀ {d d' : DeviceState} {id : UInt32}, d.consumeClassicalOneTime id = .ok d' →
      d'.identitySecret = d.identitySecret := fun hd => by
    simp only [DeviceState.consumeClassicalOneTime, ok_steps] at hd
    obtain ⟨_, -, rfl⟩ := hd
    rfl
  have hq : ∀ {d d' : DeviceState} {id : UInt32}, d.consumePqOneTime id = .ok d' →
      d'.identitySecret = d.identitySecret := fun hd => by
    simp only [DeviceState.consumePqOneTime, ok_steps] at hd
    obtain ⟨_, -, rfl⟩ := hd
    rfl
  unfold consumeNamed at h
  split at h
  all_goals
    simp only [bind_eq_ok] at h
    obtain ⟨d1, h1, h⟩ := h
    split at h
    all_goals
      simp only [ok_steps] at h
      obtain ⟨d2, h2, rfl⟩ := h
  · exact (hq h2).trans (hc h1)
  · subst h2; exact hc h1
  · cases h1; exact hq h2
  · cases h1; subst h2; rfl

variable {bytes existing replaced : Bytes}

/-- Everything a successful `accept_initial` checked and emits. -/
theorem acceptInitial_inv
    (h : acceptInitial P device rid bytes token sender existing replaced = .ok acc) :
    sender.deviceId ≠ rid ∧ ∃ probe header th root chain spk ex,
      probeInitial P device rid bytes = .ok probe ∧ probe.probeToken = token ∧
      checkReplaced P device rid sender.deviceId probe.sender.repair existing replaced =
        .ok acc.replacedSessionId ∧
      isZero header.sessionId.bytes = false ∧
      device.signedClassical header.signedPrekeyId = some spk ∧
      readExisting P device rid sender.deviceId probe.sender.repair.isSome existing = .ok ex ∧
      encodeDemoted P device (incomingWins probe.sender.repair.isSome ex sender.deviceId rid) ex =
        .ok acc.updatedExistingState ∧
      acc.session = acceptedSession rid sender.deviceId header th
        (incomingWins probe.sender.repair.isSome ex sender.deviceId rid) root
          (nextChainOf P chain) spk ∧
      acc.session.encode P device = .ok acc.sessionState := by
  unfold acceptInitial at h
  simp only [ok_steps] at h
  obtain ⟨probe, hprobe, _, hm, env, hp, h⟩ := h
  split at h
  · cases h
  · rename_i header hh
    simp only [ok_steps, chainStep_eq] at h
    obtain ⟨_, -, _, -, _, -, rs, hrs, ex, hex, agreed, hag, _, rfl, inner, -, th, -, upd, hupd,
      consumed, hcons, st, hst, dev, -, marker, -, rfl⟩ := h
    have hsid : isZero header.sessionId.bytes = false := by
      have := Envelope.parse_sessionId_ne hp
      rwa [hh] at this
    have hspk : device.signedClassical header.signedPrekeyId = some agreed.1 := by
      unfold responderAgreement at hag
      simp only [ok_steps, okOr_eq_ok] at hag
      obtain ⟨spk, hspk, _, -, _, -, _, -, _, -, _, -, _, -, rfl⟩ := hag
      exact hspk
    have hm' := not_not.mp hm
    simp only [probeMatches, decide_eq_true_eq] at hm'
    exact ⟨hm'.2.2.2.2.2.2, probe, header, th, _, _, agreed.1, ex, hprobe, hm'.1, hrs, hsid, hspk,
      hex, hupd, rfl, (encode_congr (consumeNamed_identitySecret hcons) _).symm.trans hst⟩

theorem acceptInitial_usable (hd : device.Valid P) (hid : isZero rid.bytes = false)
    (h : acceptInitial P device rid bytes token sender existing replaced = .ok acc) :
    acc.session.Usable P ∧ acc.session.encode P device = .ok acc.sessionState := by
  obtain ⟨hne, probe, header, th, root, chain, spk, ex, -, -, -, hsid, hspk, -, -, hs, henc⟩ :=
    acceptInitial_inv h
  refine ⟨?_, henc⟩
  rw [hs]
  exact ⟨fieldsConsistent_iff.mpr ⟨hsid, hid, sender.deviceId_ne, Ne.symm hne,
    (Bool.not_not _).symm, fun _ => rfl, fun _ => rfl, (fun hn => nomatch hn), .inl rfl⟩,
    hd.classical _ _ hspk⟩

/-- A state `accept_initial` writes back for the existing session is that session demoted, and only
an incoming session of a lower device id demotes one. -/
theorem acceptInitial_demoted
    (h : acceptInitial P device rid bytes token sender existing replaced = .ok acc)
    (hs : RatchetState.decode P device existing = .ok s) (hne : acc.updatedExistingState ≠ []) :
    sender.deviceId.bytes < rid.bytes ∧ s.demoted.encode P device = .ok acc.updatedExistingState := by
  obtain ⟨-, probe, header, th, root, chain, spk, ex, -, -, -, -, -, hex, hdem, -, -⟩ :=
    acceptInitial_inv h
  generalize probe.sender.repair.isSome = repair at hex hdem
  unfold readExisting at hex
  split at hex
  · cases hex
    cases hw : incomingWins repair none sender.deviceId rid <;> rw [hw] at hdem <;>
      exact absurd (Except.ok.inj hdem).symm hne
  · simp only [ok_steps] at hex
    obtain ⟨_, hrep, s', hs', _, -, rfl⟩ := hex
    rw [hs] at hs'; cases hs'
    cases hw : incomingWins repair (some s) sender.deviceId rid <;> rw [hw] at hdem
    · exact absurd (Except.ok.inj hdem).symm hne
    · refine ⟨?_, hdem⟩
      simpa [incomingWins, hrep] using hw

end Start

/-! ## Runs that keep every emitted state usable -/

/-- The calls that keep emitted states usable: the device has a non-zero id; a session an incoming
one wins over has sent nothing on its current chain; no repair is requested while the peer's token
is held, and no repair control opened while a token is issued; no new ratchet key is opened on a
receive-only session. -/
def SessionCall.Keeps (P : CryptoProvider) (p : Party) : SessionCall → Prop
  | .initiate .. => isZero p.localId.bytes = false
  | .accept _ _ sender existing _ _ => isZero p.localId.bytes = false ∧
      (sender.deviceId.bytes < p.localId.bytes → ∀ s,
        RatchetState.decode P p.device existing = .ok s → s.sendCount = 0)
  | .encrypt .. => True
  | .decrypt state envelope other e => ∀ s t, RatchetState.decode P p.device state = .ok s →
      ratchetDecrypt P s p.localId envelope other e = .ok (.prepared t) →
      (s.issuedRepairToken = none ∨ t.payloadKind = 0) ∧
        (s.receiveOnly = true → t.state.remoteRatchetPublic = s.remoteRatchetPublic)
  | .createRepair _ state _ _ => ∀ s, RatchetState.decode P p.device state = .ok s →
      s.receivedRepairToken = none
  | .consumeRepair _ => True

def AllUsable (P : CryptoProvider) (p : Party) : Prop :=
  p.device.Valid P ∧ ∀ s b, (s, b) ∈ p.emitted → s.Usable P ∧ s.encode P p.device = .ok b

variable {payload : Bytes} {o : SessionOutput}

theorem SessionOutput.ofState_eq_ok {device : DeviceState} :
    SessionOutput.ofState P device s payload = .ok o ↔
      s.encode P device = .ok o.encodedState ∧ o.state = s ∧ o.payload = payload := by
  unfold SessionOutput.ofState
  simp only [ok_steps]
  constructor
  · rintro ⟨b, hb, rfl⟩
    exact ⟨hb, rfl, rfl⟩
  · rintro ⟨hb, rfl, rfl⟩
    exact ⟨_, hb, rfl⟩

variable {p : Party}

theorem AllUsable.emit (h : AllUsable P p) (hs : s.Usable P)
    (ho : SessionOutput.ofState P p.device s payload = .ok o) : AllUsable P (p.emit o) := by
  obtain ⟨henc, rfl, -⟩ := SessionOutput.ofState_eq_ok.mp ho
  refine ⟨h.1, fun s b hm => ?_⟩
  rcases List.mem_cons.mp hm with heq | hm
  · cases heq; exact ⟨hs, henc⟩
  · exact h.2 s b hm

theorem AllUsable.emitAccepted {envelope existing replaced : Bytes}
    (h : AllUsable P p) (hid : isZero p.localId.bytes = false)
    (hkeep : sender.deviceId.bytes < p.localId.bytes → ∀ s,
      RatchetState.decode P p.device existing = .ok s → s.sendCount = 0)
    (ha : acceptInitial P p.device p.localId envelope token sender existing replaced = .ok acc) :
    AllUsable P (p.emitAccepted P existing acc) := by
  refine ⟨h.1.withoutOneTime _ _, fun s b hm => ?_⟩
  unfold Party.emitAccepted at hm ⊢
  rw [encode_congr (d := p.device.withoutOneTime _ _) (e := p.device) rfl]
  rcases List.mem_append.mp hm with hm | hm
  · rcases List.mem_cons.mp hm with heq | hm
    · cases heq; exact acceptInitial_usable h.1 hid ha
    · -- the demoted session, present only if the existing state decodes and was written back
      split at hm
      · rename_i s' hs'
        split at hm
        · cases hm
        · rename_i hne
          cases List.mem_singleton.mp hm
          obtain ⟨hlt, henc⟩ := acceptInitial_demoted ha hs' (by simpa using hne)
          exact ⟨(demoted_usable_iff (decode_usable hs')).mpr (hkeep hlt s' hs'), henc⟩
      · cases hm
  · exact h.2 s b hm

theorem AllUsable.call {p p' : Party} {c : SessionCall} (h : AllUsable P p)
    (hk : c.Keeps P p) (hc : p.call P c = .ok p') : AllUsable P p' := by
  cases c with
  | initiate rid peer cl pq auth inner other e =>
    simp only [Party.call, operationInitiate, ok_steps] at hc
    obtain ⟨o, ⟨started, hs, ho⟩, rfl⟩ := hc
    exact h.emit (initiate_usable hk hs) ho
  | accept envelope token sender existing replaced other =>
    simp only [Party.call, operationAccept, ok_steps] at hc
    obtain ⟨acc, ⟨_, -, ha⟩, rfl⟩ := hc
    exact h.emitAccepted hk.1 hk.2 ha
  | encrypt rid state inner other e =>
    simp only [Party.call, operationEncrypt, ok_steps] at hc
    obtain ⟨o, ⟨s, hs, t, ht, ho⟩, rfl⟩ := hc
    exact h.emit (ratchetEncrypt_usable (decode_usable hs) ht) ho
  | decrypt state envelope other e =>
    simp only [Party.call, operationDecrypt, ok_steps] at hc
    obtain ⟨o, ⟨s, hs, outcome, ht, ho⟩, rfl⟩ := hc
    cases outcome with
    | repairRequired => cases ho; exact h
    | prepared t =>
      simp only [ok_steps] at ho
      obtain ⟨out, hout, rfl⟩ := ho
      obtain ⟨hkind, hratchet⟩ := hk s t hs ht
      exact h.emit (ratchetDecrypt_usable (decode_usable hs) ht hkind hratchet) hout
  | createRepair rid state other e =>
    simp only [Party.call, operationCreateRepair, ok_steps] at hc
    obtain ⟨o, ⟨s, hs, t, ht, ho⟩, rfl⟩ := hc
    exact h.emit ((createRepair_usable_iff (decode_usable hs) ht).mpr (hk s hs)) ho
  | consumeRepair state =>
    simp only [Party.call, operationConsumeRepair, ok_steps] at hc
    obtain ⟨o, ⟨s, hs, r, hr, ho⟩, rfl⟩ := hc
    exact h.emit (consumeRepairAuthorization_usable (decode_usable hs) hr) ho

theorem allUsable_inductive (P : CryptoProvider) :
    (sessionRuns P (fun p c => c.Keeps P p)).Inductive (AllUsable P) where
  init p h := ⟨h.1, fun s b hm => by rw [h.2] at hm; cases hm⟩
  step p p' h hs := by
    cases hs with
    | call c _ hk hc => exact h.call hk hc
    | prekeys d hv hsame =>
      exact ⟨hv, fun s b hm => ⟨(h.2 s b hm).1, (encode_congr hsame s).trans (h.2 s b hm).2⟩⟩

/-- In every run of calls that meet `Keeps`, each emitted state decodes to itself. -/
theorem emitted_reusable (P : CryptoProvider) (p : Party)
    (hr : (sessionRuns P (fun p c => c.Keeps P p)).Reachable p) (s : RatchetState) (b : Bytes)
    (hm : (s, b) ∈ p.emitted) : RatchetState.decode P p.device b = .ok s := by
  obtain ⟨-, h⟩ := (allUsable_inductive P).reachable hr
  obtain ⟨hu, henc⟩ := h s b hm
  exact (decode_encode_iff henc).mpr hu

/-! ## The sum devices -/

def sumParty (seed : UInt8) : Party := ⟨Block.fill 16 seed, sumDevice seed, []⟩

def sumInitiate (peer : UInt8) (h : isZero (Block.fill 16 peer).bytes = false) : SessionCall :=
  .initiate (Block.fill 16 peer) (sumBundle peer h) none none [] [10] 0 (List.replicate 4096 5)

theorem sumParty_initiates (Allowed : Party → SessionCall → Prop) (seed peer : UInt8)
    (hz : isZero (Block.fill 16 peer).bytes = false)
    (hall : Allowed (sumParty seed) (sumInitiate peer hz))
    (h : (sumParty seed).call sumProvider (sumInitiate peer hz) = .ok p) :
    (sessionRuns sumProvider Allowed).Reachable p :=
  .step (.init ⟨sumDevice_valid seed, rfl⟩)
    (.call _ (fun _ hb => absurd hb List.not_mem_nil) hall h)

theorem sumParty_started :
    ((sumParty 1).call sumProvider (sumInitiate 2 two_nonzero)).toOption.isSome = true := by
  decide +kernel

/-- A device that started a session has an emitted state, and it decodes. -/
theorem emitted_reusable_sumParty : ∃ p s b,
    (sumParty 1).call sumProvider (sumInitiate 2 (by decide)) = .ok p ∧ (s, b) ∈ p.emitted ∧
      RatchetState.decode sumProvider p.device b = .ok s := by
  obtain ⟨p, hp⟩ := exists_ok_of_isSome sumParty_started
  have hr := sumParty_initiates (fun p c => c.Keeps sumProvider p) 1 2 (by decide)
    (by decide : isZero (Block.fill 16 1).bytes = false) hp
  have hne : p.emitted ≠ [] := by
    simp only [Party.call, sumInitiate, ok_steps] at hp
    obtain ⟨o, -, rfl⟩ := hp
    simp [Party.emit]
  obtain ⟨⟨s, b⟩, hm⟩ := List.exists_mem_of_ne_nil _ hne
  exact ⟨p, s, b, hp, hm, emitted_reusable sumProvider p hr s b hm⟩

/-- Device 2 starts a session toward device 1, which started one toward device 2 at the same time;
device 2 then accepts it, handing in its own session. -/
def crossedInitiations : CryptoResult Party := do
  let p ← (sumParty 2).call sumProvider (sumInitiate 1 one_nonzero)
  let other ← operationInitiate sumProvider (sumDevice 1) (Block.fill 16 1) (Block.fill 16 2)
    (sumBundle 2 two_nonzero) none none [] [20] 0 (List.replicate 4096 6)
  let probe ← probeInitial sumProvider (sumDevice 2) (Block.fill 16 2) other.payload
  p.call sumProvider (.accept other.payload probe.probeToken (sumProjection 1 one_nonzero)
    ((p.emitted.map (·.2)).headD []) [] 0)

theorem crossedInitiations_refused : crossedInitiations.toOption.any (fun p =>
    p.emitted.any fun sb =>
      RatchetState.decode sumProvider p.device sb.2 = .error .stateViolation) = true := by
  decide +kernel

/-- The lower id wins, and the state written back for device 2's own session is refused. -/
theorem demoted_primary_not_reusable : ∃ p,
    (sessionRuns sumProvider (fun _ _ => True)).Reachable p ∧ ∃ s b, (s, b) ∈ p.emitted ∧
      RatchetState.decode sumProvider p.device b = .error .stateViolation := by
  obtain ⟨p, hp, hany⟩ := exists_ok_of_any crossedInitiations_refused
  obtain ⟨⟨s, b⟩, hm, hdec⟩ := List.any_eq_true.mp hany
  refine ⟨p, ?_, s, b, hm, of_decide_eq_true hdec⟩
  simp only [crossedInitiations, bind_eq_ok] at hp
  obtain ⟨p1, h1, other, -, probe, -, h2⟩ := hp
  refine .step (sumParty_initiates _ 2 1 (by decide) trivial h1) (.call _ ?_ trivial h2)
  intro b hb
  rcases List.mem_cons.mp hb with rfl | hb
  · cases hl : p1.emitted with
    | nil => exact .inl rfl
    | cons x l => exact .inr ⟨x.1, by simp⟩
  · exact .inl (List.mem_singleton.mp hb)

end CommPlatform.L3
