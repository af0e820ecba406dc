import CommPlatform.L3Protocol.Operations
import CommPlatform.L4Store.Plans

/-!
# The native sessions behind the store

The session interface of the operations filled in with the Rust core
(`pairwise_session_crypto.dart` over `pairwise.rs`): a session is the blob
the core emitted with its id and skipped-key count, and each call decodes
the blob, runs the core and checks what came back.

Bare line numbers are those of `pairwise_session_crypto.dart`.
-/
namespace CommPlatform.L4

open CommPlatform.Core L1 L2
open L3 hiding AcceptedInitial

/-- mirrors pairwise_crypto_model.dart:77-96 -/
structure NativeSession where
  sessionId : SessionId
  opaqueState : Bytes
  skippedKeyCount : Nat
deriving DecidableEq

/-- A device state of the account's device, whose identity secret never changes. -/
abbrev OwnDevice (base : DeviceState) :=
  { d : DeviceState // d.identitySecret = base.identitySecret }

/-- What a call takes from outside: the claimed bundle and the payload of a seal, the envelope and
the verified sender of an opening, and the random tape. -/
structure NativeInput where
  bundle : PeerBundle
  classicalOneTime : Option OptionalClassicalPrekey
  pqOneTime : Option OptionalPqPrekey
  inner : Bytes
  envelope : Bytes
  sender : AuthenticatedSenderProjection
  entropy : Bytes

def SessionOutput.session (o : SessionOutput) : NativeSession :=
  ⟨o.state.sessionId, o.encodedState, o.state.skipped.length⟩

section Calls

variable (P : CryptoProvider) (base : DeviceState) (me peer : Block 16)

/-- mirrors :603-609 -/
def validSkipped (session : NativeSession) (otherSkipped : Nat) : Bool :=
  session.skippedKeyCount + otherSkipped ≤ maxSkippedAccount

/-- mirrors :348-384
and 517-541 -/
def encryptLike (call : Bytes → UInt32 → CryptoResult SessionOutput) (session : NativeSession)
    (otherSkipped : Nat) : Option (SealedEnvelope NativeSession) := do
  guard (validSkipped session otherSkipped)
  let output ← (call session.opaqueState (UInt32.ofNat otherSkipped)).toOption
  guard (output.state.sessionId = session.sessionId)
  return ⟨SessionOutput.session output, output.payload⟩

/-- mirrors :314-330 -/
def nativeEncrypt (x : NativeInput) : NativeSession → Nat → Option (SealedEnvelope NativeSession) :=
  encryptLike fun state other => operationEncrypt P base peer state x.inner other x.entropy

/-- mirrors :332-346 -/
def nativeCreateRepair (x : NativeInput) :
    NativeSession → Nat → Option (SealedEnvelope NativeSession) :=
  encryptLike fun state other => operationCreateRepair P base peer state other x.entropy

/-- mirrors :51-131 -/
def nativeInitiate (x : NativeInput) (device : OwnDevice base) (authorization : Option Bytes)
    (otherSkipped : Nat) : Option (SealedEnvelope NativeSession) := do
  guard (otherSkipped ≤ maxSkippedAccount ∧ authorization.all (·.length = 88))
  let output ← (operationInitiate P device.1 me peer x.bundle x.classicalOneTime x.pqOneTime
    (authorization.getD []) x.inner (UInt32.ofNat otherSkipped) x.entropy).toOption
  return ⟨SessionOutput.session output, output.payload⟩

/-- mirrors :386-458 -/
def nativeDecrypt (x : NativeInput) (session : NativeSession) (otherSkipped : Nat) :
    Option (RatchetOpening NativeSession) := do
  guard (validSkipped session otherSkipped)
  let state ← (RatchetState.decode P base session.opaqueState).toOption
  match ← (ratchetDecrypt P state me x.envelope (UInt32.ofNat otherSkipped) x.entropy).toOption with
  | .repairRequired => return .repairRequired
  | .prepared t => do
    let output ← (SessionOutput.ofState P base t.state t.inner).toOption
    guard (t.state.sessionId = session.sessionId)
    return .opened (SessionOutput.session output) t.inner t.replayMarker (t.payloadKind = 1)

/-- mirrors :460-509 -/
def nativeConsumeRepair (session : NativeSession) : Option (NativeSession × Bytes) := do
  let output ← (operationConsumeRepair P base session.opaqueState).toOption
  guard (output.payload.length = 88 ∧ output.state.sessionId = session.sessionId)
  return (SessionOutput.session output, output.payload)

/-- The session an initial of `peer` asks to replace.
mirrors :133-187 -/
def nativeProbe (x : NativeInput) (device : OwnDevice base) : Option (Option SessionId) := do
  let probe ← (probeInitial P device.1 me x.envelope).toOption
  guard (probe.sender.senderDeviceId = peer)
  return probe.sender.repair.map (·.1)

/-- The disposition byte of the native result. -/
def dispositionOf (b : UInt8) : Option SessionDisposition :=
  if b = 0 then some .primaryBidirectional
  else if b = 1 then some .alternateReceiveOnly
  else none

def validKeyId (id : UInt32) : Bool := id ≤ keyIdMax

def validAccept (probe : ProbeResult) (existing replaced : Option NativeSession) : Bool :=
  probe.sender.senderDeviceId = peer ∧ probe.sender.repair.isSome = replaced.isSome ∧
    replaced.all (fun r => probe.sender.repair.map (·.1) = some r.sessionId) ∧
    (existing.isSome → probe.sender.repair = none)

def validAccepted (probe : ProbeResult) (existing : Option NativeSession)
    (accepted : L3.AcceptedInitial) (disposition : SessionDisposition) : Bool :=
  (existing = none → disposition = .primaryBidirectional) ∧
    accepted.replacedSessionId = probe.sender.repair.map (·.1) ∧
    validKeyId accepted.referencedSignedPrekeyId ∧
    validKeyId accepted.referencedPqSignedPrekeyId ∧
    (accepted.consumedClassicalId = absentPrekeyId ∨ validKeyId accepted.consumedClassicalId) ∧
    (accepted.consumedPqId = absentPrekeyId ∨ validKeyId accepted.consumedPqId) ∧
    (accepted.updatedExistingState ≠ [] ↔ existing.isSome ∧ disposition = .primaryBidirectional)

/-- The result of an accepted initial; the device is left without the one-time keys it named.
mirrors :282-309 -/
def acceptedResult {base : DeviceState} (device : OwnDevice base) (existing : Option NativeSession)
    (accepted : L3.AcceptedInitial) (disposition : SessionDisposition) :
    AcceptedInitial NativeSession (OwnDevice base) where
  nextSession := ⟨accepted.session.sessionId, accepted.sessionState,
    accepted.session.skipped.length⟩
  nextDeviceState := ⟨device.1.withoutOneTime (some accepted.consumedClassicalId)
    (some accepted.consumedPqId), device.2⟩
  openedPayload := accepted.inner
  replayMarker := accepted.replayMarker
  disposition := disposition
  updatedExistingSession := if accepted.updatedExistingState = [] then none else
    existing.map fun e => ⟨e.sessionId, accepted.updatedExistingState, e.skippedKeyCount⟩

/-- mirrors :190-312 -/
def nativeAccept (x : NativeInput) (device : OwnDevice base)
    (existing replaced : Option NativeSession) :
    Option (AcceptedInitial NativeSession (OwnDevice base)) := do
  let probe ← (probeInitial P device.1 me x.envelope).toOption
  guard (validAccept peer probe existing replaced)
  let accepted ← (L3.acceptInitial P device.1 me x.envelope probe.probeToken x.sender
    (existing.elim [] (·.opaqueState)) (replaced.elim [] (·.opaqueState))).toOption
  let disposition ← dispositionOf accepted.disposition
  guard (validAccepted probe existing accepted disposition)
  return acceptedResult device existing accepted disposition

/-- The session interface of device `me` toward `peer`. -/
def nativeCrypto : SessionCrypto NativeSession (OwnDevice base) NativeInput where
  sessionId := NativeSession.sessionId
  skippedKeyCount := NativeSession.skippedKeyCount
  encrypt := nativeEncrypt P base peer
  initiate := nativeInitiate P base me peer
  createRepairRequest := nativeCreateRepair P base peer
  decrypt := nativeDecrypt P base me
  consumeRepairRequest := nativeConsumeRepair P base
  probeInitial := nativeProbe P base me peer
  acceptInitial := nativeAccept P base me peer

end Calls

/-! ## What the core keeps of a session -/

structure SameSession (s s' : RatchetState) : Prop where
  sessionId : s'.sessionId = s.sessionId
  localDeviceId : s'.localDeviceId = s.localDeviceId
  remoteDeviceId : s'.remoteDeviceId = s.remoteDeviceId
  initiatorDeviceId : s'.initiatorDeviceId = s.initiatorDeviceId
  primary : s'.primary = s.primary
  receiveOnly : s'.receiveOnly = s.receiveOnly

variable {s' : RatchetState}

theorem SameSession.trans {s s' s'' : RatchetState} (h : SameSession s s')
    (h' : SameSession s' s'') : SameSession s s'' :=
  ⟨h'.sessionId.trans h.sessionId, h'.localDeviceId.trans h.localDeviceId,
    h'.remoteDeviceId.trans h.remoteDeviceId, h'.initiatorDeviceId.trans h.initiatorDeviceId,
    h'.primary.trans h.primary, h'.receiveOnly.trans h.receiveOnly⟩

section Keeps

variable {P : CryptoProvider} {s : RatchetState}

theorem decode_encode_eq {device : DeviceState} {b : Bytes}
    (h : s.encode P device = .ok b) (h' : RatchetState.decode P device b = .ok s') : s' = s := by
  rw [decode_encode h] at h'
  simp only [ok_steps] at h'
  obtain ⟨_, -, _, -, _, -, rfl⟩ := h'
  rfl

variable {rid : Block 16} {other : UInt32} {t : EncryptedTransition}

theorem ratchetEncrypt_same {inner e : Bytes} (h : ratchetEncrypt P s rid inner other e = .ok t) :
    SameSession s t.state := by
  obtain ⟨-, -, s1, rest, c, m, hs, -, -, -, hstate⟩ := ratchetEncrypt_inv h
  rw [hstate]
  rcases startSendingChain_cases hs with ⟨-, rfl, -⟩ | ⟨-, _, _, _, -, -, rfl, -⟩ <;>
    exact ⟨rfl, rfl, rfl, rfl, rfl, rfl⟩

theorem createRepair_inv {e : Bytes} (h : createRepair P s rid other e = .ok t) :
    SameSession s t.state ∧ t.state.receivedRepairToken = s.receivedRepairToken := by
  unfold createRepair at h
  simp only [ok_steps] at h
  obtain ⟨_, -, token, -, h⟩ := h
  obtain ⟨h1, h2, h3, h4, h5, h6⟩ := ratchetEncrypt_same h
  exact ⟨⟨h1, h2, h3, h4, h5, h6⟩, (ratchetEncrypt_tokens h).2⟩

theorem ratchetDecrypt_same {bytes e : Bytes}
    {t : DecryptedTransition} (h : ratchetDecrypt P s rid bytes other e = .ok (.prepared t)) :
    SameSession s t.state ∧ t.state.issuedRepairToken = s.issuedRepairToken ∧
      (t.payloadKind ≠ 1 → t.payloadKind = 0 ∧
        t.state.receivedRepairToken = s.receivedRepairToken) := by
  obtain ⟨s₁, _, _, _, hs₁, hi⟩ := ratchetDecrypt_opens h
  obtain ⟨⟨h1, h2, h3, h4, h5, h6⟩, hissued, hreceived⟩ : SameSession s s₁ ∧
      s₁.issuedRepairToken = s.issuedRepairToken ∧
        s₁.receivedRepairToken = s.receivedRepairToken := by
    rcases hs₁ with rfl | ⟨_, _, _, _, _, rfl⟩ <;> exact ⟨⟨rfl, rfl, rfl, rfl, rfl, rfl⟩, rfl, rfl⟩
  -- the tokens stay unless the payload is a repair control
  rcases inspectRepairControl_cases hi with ⟨hs, hk⟩ | ⟨-, hk, -, token, hs⟩ <;> rw [hs]
  · exact ⟨⟨h1, h2, h3, h4, h5, h6⟩, hissued, fun _ => ⟨hk, hreceived⟩⟩
  · exact ⟨⟨h1, h2, h3, h4, h5, h6⟩, hissued, fun hn => absurd hk hn⟩

theorem consumeRepairAuthorization_same {d : DeviceState} {r : RatchetState × Bytes}
    (h : consumeRepairAuthorization P d s = .ok r) :
    SameSession s r.1 ∧ r.1.receivedRepairToken = none := by
  unfold consumeRepairAuthorization at h
  simp only [ok_steps] at h
  obtain ⟨token, -, key, -, tag, -, rfl⟩ := h
  exact ⟨⟨rfl, rfl, rfl, rfl, rfl, rfl⟩, rfl⟩

end Keeps

/-! ## Which states an initial is accepted over -/

section Accept

variable {P : CryptoProvider} {device : DeviceState} {rid : Block 16} {bytes b b' : Bytes}
  {token : Key} {sender : AuthenticatedSenderProjection} {acc : L3.AcceptedInitial}

/-- The states a new session of `sender` is weighed against: our own initiation toward it. -/
structure Initiated (s : RatchetState) (me peer : Block 16) : Prop where
  localDeviceId : s.localDeviceId = me
  remoteDeviceId : s.remoteDeviceId = peer
  initiatorDeviceId : s.initiatorDeviceId = me
  primary : s.primary = true
  receiveOnly : s.receiveOnly = false

variable {s : RatchetState} (h : RatchetState.decode P device b = .ok s)
include h

theorem decode_ne_nil : b ≠ [] := by
  rintro rfl
  simp [RatchetState.decode, failIf, stateAuthTagBytes] at h

theorem readExisting_of_initiated (hi : Initiated s rid sender.deviceId) :
    readExisting P device rid sender.deviceId false b = .ok (some s) := by
  obtain ⟨h1, h2, h3, h4, h5⟩ := hi
  simp [readExisting, decode_ne_nil h, h, h1, h2, h3, h4, h5, failIf]

omit h

theorem readExisting_inv {repair : Bool} {ex : Option RatchetState}
    (h : readExisting P device rid sender.deviceId repair b = .ok ex) (hb : b ≠ []) :
    ∃ s, ex = some s ∧ RatchetState.decode P device b = .ok s ∧
      Initiated s rid sender.deviceId := by
  simp only [readExisting, List.isEmpty_iff, hb, if_false, ok_steps, not_or, not_not] at h
  obtain ⟨-, -, s, hs, -, ⟨h1, h2, h3, h4, h5⟩, rfl⟩ := h
  exact ⟨s, rfl, hs, h1, h2, h3, h4, by simpa using h5⟩

/-- An initial that loses to one initiation of ours loses to any other. -/
theorem acceptInitial_loses (h : L3.acceptInitial P device rid bytes token sender b [] = .ok acc)
    (hdisp : acc.disposition = 1) (hs' : RatchetState.decode P device b' = .ok s')
    (hi : Initiated s' rid sender.deviceId) :
    L3.acceptInitial P device rid bytes token sender b' [] = .ok acc := by
  unfold L3.acceptInitial at h ⊢
  simp only [bind_eq_ok] at h ⊢
  obtain ⟨probe, hprobe, u, hm, env, hp, h⟩ := h
  refine ⟨probe, hprobe, u, hm, env, hp, ?_⟩
  split at h
  · cases h
  · simp only [bind_eq_ok] at h ⊢
    obtain ⟨pre, hpre, sig, hsig, u1, hver, rs, hrs, ex, hex, agreed, hag, step, hstep, inner, hin,
      th, hth, upd, hupd, cons, hcons, st, hst, dev, hdev, marker, hmark, hacc⟩ := h
    have hw : incomingWins probe.sender.repair.isSome ex sender.deviceId rid = false := by
      rw [← Except.ok.inj hacc] at hdisp
      cases hw : incomingWins probe.sender.repair.isSome ex sender.deviceId rid with
      | false => rfl
      | true =>
        rw [hw] at hdisp
        exact absurd (show false.toUInt8 = 1 from hdisp) (by decide)
    have hw' : incomingWins probe.sender.repair.isSome (some s') sender.deviceId rid = false := by
      simp only [incomingWins, decide_eq_false_iff_not, not_or] at hw ⊢
      exact ⟨hw.1, by simp, hw.2.2⟩
    have hrepair : probe.sender.repair = none := by
      simp only [incomingWins, decide_eq_false_iff_not, not_or] at hw
      simpa using hw.1
    rw [hw] at hupd hst hacc
    have hupd' : upd = [] := by
      cases ex <;> exact (Except.ok.inj hupd).symm
    subst hupd'
    refine ⟨pre, hpre, sig, hsig, u1, hver, rs, ?_, some s', ?_, agreed, hag, step, hstep, inner,
      hin, th, hth, [], ?_, cons, hcons, st, ?_, dev, hdev, marker, hmark, ?_⟩
    · rw [hrepair] at hrs ⊢
      exact hrs
    · rw [hrepair]
      exact readExisting_of_initiated hs' hi
    · rw [hw']; rfl
    · rw [hw']; exact hst
    · rw [hw']; exact hacc

theorem acceptInitial_disposition {existing replaced : Bytes}
    (h : L3.acceptInitial P device rid bytes token sender existing replaced = .ok acc) :
    acc.disposition = acc.session.receiveOnly.toUInt8 := by
  unfold L3.acceptInitial at h
  simp only [bind_eq_ok] at h
  obtain ⟨probe, -, -, -, env, -, h⟩ := h
  split at h
  · cases h
  · simp only [ok_steps] at h
    obtain ⟨_, -, _, -, _, -, rs, -, ex, -, _, -, _, -, _, -, _, -, _, -, _, -, _, -, _, -, _, -,
      rfl⟩ := h
    rfl

theorem acceptInitial_replaced {s s' : RatchetState}
    (h : L3.acceptInitial P device rid bytes token sender [] b = .ok acc)
    (hs : RatchetState.decode P device b = .ok s) (hs' : RatchetState.decode P device b' = .ok s')
    (hsame : SameSession s s') (htok : s'.issuedRepairToken = s.issuedRepairToken) :
    L3.acceptInitial P device rid bytes token sender [] b' = .ok acc := by
  have hcheck : ∀ {repair rs}, checkReplaced P device rid sender.deviceId repair [] b = .ok rs →
      checkReplaced P device rid sender.deviceId repair [] b' = .ok rs := by
    intro repair rs hrs
    cases repair with
    | none => simp [checkReplaced, failIf, decode_ne_nil hs] at hrs
    | some r =>
      simp only [checkReplaced, hs, hs', ok_bind, hsame.sessionId, hsame.localDeviceId,
        hsame.remoteDeviceId, htok, List.isEmpty_iff, decode_ne_nil hs, decode_ne_nil hs'] at hrs ⊢
      exact hrs
  unfold L3.acceptInitial at h ⊢
  simp only [bind_eq_ok] at h ⊢
  obtain ⟨probe, hprobe, u, hm, env, hp, h⟩ := h
  refine ⟨probe, hprobe, u, hm, env, hp, ?_⟩
  split at h
  · cases h
  · simp only [bind_eq_ok] at h ⊢
    obtain ⟨pre, hpre, sig, hsig, u1, hver, rs, hrs, h⟩ := h
    exact ⟨pre, hpre, sig, hsig, u1, hver, rs, hcheck hrs, h⟩

end Accept

/-! ## The laws -/

section Laws

variable {P : CryptoProvider} {base : DeviceState} {me peer : Block 16} {k k' : NativeSession}

/-- A session that, if it can be used at all, may send and holds no token of the peer. -/
def CleanSession (P : CryptoProvider) (base : DeviceState) (k : NativeSession) : Prop :=
  ∀ s, RatchetState.decode P base k.opaqueState = .ok s →
    s.receivedRepairToken = none ∧ s.receiveOnly = false

/-- What a call leaves of a clean session: both blobs decode, to states of one session. -/
structure Continued (P : CryptoProvider) (base : DeviceState) (k k' : NativeSession)
    (s s' : RatchetState) : Prop where
  id : k'.sessionId = k.sessionId
  before : RatchetState.decode P base k.opaqueState = .ok s
  after : RatchetState.decode P base k'.opaqueState = .ok s'
  same : SameSession s s'
  noToken : s'.receivedRepairToken = none

variable {x : NativeInput} {n : Nat} {e : SealedEnvelope NativeSession}

theorem encryptLike_inv {call : Bytes → UInt32 → CryptoResult SessionOutput}
    (h : encryptLike call k n = some e) :
    ∃ o, call k.opaqueState (UInt32.ofNat n) = .ok o ∧ o.state.sessionId = k.sessionId ∧
      e = ⟨SessionOutput.session o, o.payload⟩ := by
  simp only [encryptLike, some_steps] at h
  obtain ⟨-, o, ho, hid, rfl⟩ := h
  exact ⟨o, ok_of_toOption ho, hid, rfl⟩

variable {payload : Bytes} {marker : Block 32}

theorem nativeDecrypt_inv
    {control : Bool} (h : nativeDecrypt P base me x k n = some (.opened k' payload marker control)) :
    ∃ s t, RatchetState.decode P base k.opaqueState = .ok s ∧
      ratchetDecrypt P s me x.envelope (UInt32.ofNat n) x.entropy = .ok (.prepared t) ∧
      t.state.encode P base = .ok k'.opaqueState ∧ k'.sessionId = k.sessionId ∧
      k'.skippedKeyCount = t.state.skipped.length ∧ payload = t.inner ∧
      marker = t.replayMarker ∧ control = decide (t.payloadKind = 1) := by
  simp only [nativeDecrypt, some_steps] at h
  obtain ⟨-, s, hs, outcome, ho, h⟩ := h
  cases outcome with
  | repairRequired => cases h
  | prepared t =>
    simp only [some_steps, RatchetOpening.opened.injEq] at h
    obtain ⟨o, hout, hid, rfl, rfl, rfl, rfl⟩ := h
    obtain ⟨henc, hst, -⟩ := SessionOutput.ofState_eq_ok.mp (ok_of_toOption hout)
    exact ⟨s, t, ok_of_toOption hs, ok_of_toOption ho, henc, by
      simp [SessionOutput.session, hst, hid],
      by simp [SessionOutput.session, hst], rfl, rfl, rfl⟩

theorem nativeDecrypt_continued
    (h : nativeDecrypt P base me x k n = some (.opened k' payload marker false))
    (hclean : CleanSession P base k) :
    ∃ s s', Continued P base k k' s s' ∧ s'.issuedRepairToken = s.issuedRepairToken := by
  obtain ⟨s, t, hs, ht, henc, hid, -, -, -, hkind⟩ := nativeDecrypt_inv h
  obtain ⟨hsame, hissued, hnot⟩ := ratchetDecrypt_same ht
  obtain ⟨hk, htok⟩ := hnot (by simpa using hkind)
  obtain ⟨hrec, hro⟩ := hclean s hs
  have hu := ratchetDecrypt_usable (decode_usable hs) ht (.inr hk)
    (fun h => by simp [hro] at h)
  exact ⟨s, t.state, ⟨hid, hs, (decode_encode_iff henc).mpr hu, hsame, htok.trans hrec⟩, hissued⟩

theorem nativeConsumeRepair_inv {authorization : Bytes}
    (h : nativeConsumeRepair P base k = some (k', authorization)) :
    ∃ s r, RatchetState.decode P base k.opaqueState = .ok s ∧
      consumeRepairAuthorization P base s = .ok r ∧ r.1.encode P base = .ok k'.opaqueState ∧
      k'.sessionId = k.sessionId := by
  simp only [nativeConsumeRepair, some_steps, Prod.mk.injEq] at h
  obtain ⟨o, ho, ⟨-, hid⟩, rfl, rfl⟩ := h
  have ho' := ok_of_toOption ho
  simp only [operationConsumeRepair, bind_eq_ok] at ho'
  obtain ⟨s, hs, r, hr, ho'⟩ := ho'
  exact ⟨s, r, hs, hr, (SessionOutput.ofState_eq_ok.mp ho').1, hid⟩

/-- Whatever the call, a clean session is carried on as one. -/
theorem Advances.continued (h : (nativeCrypto P base me peer).Advances k k')
    (hclean : CleanSession P base k) : ∃ s s', Continued P base k k' s s' := by
  cases h with
  | encrypt h =>
    simp only [nativeCrypto, nativeEncrypt] at h
    obtain ⟨o, ho, hid, rfl⟩ := encryptLike_inv h
    simp only [operationEncrypt, bind_eq_ok] at ho
    obtain ⟨s, hs, t, ht, ho⟩ := ho
    obtain ⟨henc, hst, -⟩ := SessionOutput.ofState_eq_ok.mp ho
    have hu := ratchetEncrypt_usable (decode_usable hs) ht
    exact ⟨s, t.state, hid, hs, (decode_encode_iff henc).mpr hu, ratchetEncrypt_same ht,
      (ratchetEncrypt_tokens ht).2.trans (hclean s hs).1⟩
  | repair h =>
    simp only [nativeCrypto, nativeCreateRepair] at h
    obtain ⟨o, ho, hid, rfl⟩ := encryptLike_inv h
    simp only [operationCreateRepair, bind_eq_ok] at ho
    obtain ⟨s, hs, t, ht, ho⟩ := ho
    obtain ⟨henc, hst, -⟩ := SessionOutput.ofState_eq_ok.mp ho
    have hu := (createRepair_usable_iff (decode_usable hs) ht).mpr (hclean s hs).1
    obtain ⟨hsame, htok⟩ := createRepair_inv ht
    exact ⟨s, t.state, hid, hs, (decode_encode_iff henc).mpr hu, hsame, htok.trans (hclean s hs).1⟩
  | opened h =>
    obtain ⟨s, s', hc, -⟩ := nativeDecrypt_continued h hclean
    exact ⟨s, s', hc⟩
  | consumed h hc =>
    obtain ⟨s, t, hs, ht, henc, hid, -⟩ := nativeDecrypt_inv h
    obtain ⟨s1, r, hs1, hr, henc', hid'⟩ := nativeConsumeRepair_inv hc
    cases decode_encode_eq henc hs1
    have hsame := (ratchetDecrypt_same ht).1
    obtain ⟨hsame', htok⟩ := consumeRepairAuthorization_same hr
    have hu := consumeRepairAuthorization_usable (decode_usable hs1) hr
    exact ⟨s, r.1, hid'.trans hid, hs, (decode_encode_iff henc').mpr hu, hsame.trans hsame', htok⟩

variable {a : AcceptedInitial NativeSession (OwnDevice base)} {d : OwnDevice base}
  {existing replaced : Option NativeSession}

theorem Continued.clean {s s' : RatchetState} (h : Continued P base k k' s s')
    (hclean : CleanSession P base k) : CleanSession P base k' := by
  intro s₁ hs₁
  cases h.after.symm.trans hs₁
  exact ⟨h.noToken, h.same.receiveOnly.trans (hclean s h.before).2⟩

theorem nativeAccept_eq_some :
    nativeAccept P base me peer x d existing replaced = some a ↔ ∃ probe acc disp,
      probeInitial P d.1 me x.envelope = .ok probe ∧
      validAccept peer probe existing replaced = true ∧
      L3.acceptInitial P d.1 me x.envelope probe.probeToken x.sender
        (existing.elim [] (·.opaqueState)) (replaced.elim [] (·.opaqueState)) = .ok acc ∧
      dispositionOf acc.disposition = some disp ∧
      validAccepted probe existing acc disp = true ∧ a = acceptedResult d existing acc disp := by
  simp only [nativeAccept, some_steps, toOption_eq_some]
  constructor
  · rintro ⟨probe, hp, hv, acc, ha, disp, hd, hv', rfl⟩
    exact ⟨probe, acc, disp, hp, hv, ha, hd, hv', rfl⟩
  · rintro ⟨probe, acc, disp, hp, hv, ha, hd, hv', rfl⟩
    exact ⟨probe, hp, hv, acc, ha, disp, hd, hv', rfl⟩

theorem acceptInitial_sender {probe : ProbeResult} {b b' : Bytes} {acc : L3.AcceptedInitial}
    (hprobe : probeInitial P d.1 me x.envelope = .ok probe)
    (hv : validAccept peer probe existing replaced = true)
    (h : L3.acceptInitial P d.1 me x.envelope probe.probeToken x.sender b b' = .ok acc) :
    x.sender.deviceId = peer := by
  unfold L3.acceptInitial at h
  simp only [hprobe, ok_bind, ok_steps, not_not] at h
  obtain ⟨-, hm, -⟩ := h
  simp only [probeMatches, validAccept, decide_eq_true_eq] at hm hv
  exact hm.2.2.1.symm.trans hv.1

variable {disp : SessionDisposition}

theorem disposition_alternate {b : UInt8}
    (h : dispositionOf b = some disp) (hd : disp = .alternateReceiveOnly) : b = 1 := by
  subst hd
  unfold dispositionOf at h
  split at h
  · cases h
  · split at h
    · assumption
    · cases h

theorem disposition_primary {b : UInt8}
    (h : dispositionOf b = some disp) (hd : disp = .primaryBidirectional) : b = 0 := by
  subst hd
  unfold dispositionOf at h
  split at h
  · assumption
  · split at h <;> cases h

variable (h : nativeAccept P base me peer x d (some k) none = some a)
include h

theorem nativeAccept_loses (hd : a.disposition = .alternateReceiveOnly)
    (hs' : RatchetState.decode P base k'.opaqueState = .ok s') (hi : Initiated s' me peer) :
    nativeAccept P base me peer x d (some k') none = some a := by
  obtain ⟨probe, acc, disp, hprobe, hv, ha, hdisp, hv', rfl⟩ := nativeAccept_eq_some.mp h
  have hd' : disp = .alternateReceiveOnly := hd
  have hsender := acceptInitial_sender hprobe hv ha
  have hdecode := decode_congr d.2 k'.opaqueState ▸ hs'
  have hnil : acc.updatedExistingState = [] := by
    simp only [validAccepted, decide_eq_true_eq] at hv'
    by_contra hne
    have := (hv'.2.2.2.2.2.2.mp hne).2
    simp [hd'] at this
  refine nativeAccept_eq_some.mpr ⟨probe, acc, disp, hprobe, ?_, ?_, hdisp, ?_, ?_⟩
  · simpa [validAccept] using hv
  · exact acceptInitial_loses ha (disposition_alternate hdisp hd') hdecode (hsender ▸ hi)
  · simpa [validAccepted] using hv'
  · simp [acceptedResult, hnil]

theorem nativeAccept_existing {s : RatchetState}
    (hs : RatchetState.decode P base k.opaqueState = .ok s) : Initiated s me peer := by
  obtain ⟨probe, acc, disp, hprobe, hv, ha, -⟩ := nativeAccept_eq_some.mp h
  have hsender := acceptInitial_sender hprobe hv ha
  have hdecode := decode_congr d.2 k.opaqueState ▸ hs
  obtain ⟨-, probe', header, th, root, chain, spk, ex, -, -, -, -, -, hex, -⟩ :=
    acceptInitial_inv ha
  obtain ⟨s₁, -, hs₁, hi⟩ := readExisting_inv hex (decode_ne_nil hdecode)
  cases hdecode.symm.trans hs₁
  exact hsender ▸ hi

omit h

theorem SameSession.initiated {s s' : RatchetState} (h : SameSession s s')
    (hi : Initiated s me peer) : Initiated s' me peer :=
  ⟨h.localDeviceId.trans hi.localDeviceId, h.remoteDeviceId.trans hi.remoteDeviceId,
    h.initiatorDeviceId.trans hi.initiatorDeviceId, h.primary.trans hi.primary,
    h.receiveOnly.trans hi.receiveOnly⟩

theorem nativeInitiate_inv {auth : Option Bytes} (hme : isZero me.bytes = false)
    (h : nativeInitiate P base me peer x d auth n = some e) :
    ∃ s, RatchetState.decode P base e.nextSession.opaqueState = .ok s ∧ Initiated s me peer ∧
      s.receivedRepairToken = none := by
  simp only [nativeInitiate, some_steps, toOption_eq_some, operationInitiate, bind_eq_ok] at h
  obtain ⟨-, o, ⟨⟨s, env⟩, hs, ho⟩, rfl⟩ := h
  obtain ⟨henc, -, -⟩ := SessionOutput.ofState_eq_ok.mp ho
  have hu := initiate_usable hme hs
  obtain ⟨-, -, repair, keys, _, _, _, _, _, -, -, -, -, -, -, -, rfl⟩ := initiate_inv hs
  refine ⟨_, decode_congr d.2 _ ▸ (decode_encode_iff henc).mpr hu, ⟨rfl, rfl, rfl, rfl, rfl⟩, rfl⟩

theorem nativeAccept_session (h : nativeAccept P base me peer x d existing replaced = some a) :
    a.nextSession.skippedKeyCount = 0 ∧
      (a.disposition = .primaryBidirectional → CleanSession P base a.nextSession) := by
  obtain ⟨probe, acc, disp, -, -, ha, hdisp, -, rfl⟩ := nativeAccept_eq_some.mp h
  have hwins : acc.disposition = 0 → acc.session.receiveOnly = false := by
    intro h0
    rw [acceptInitial_disposition ha] at h0
    cases hr : acc.session.receiveOnly with
    | false => rfl
    | true =>
      rw [hr] at h0
      exact absurd h0 (by decide)
  obtain ⟨-, _, header, th, root, chain, spk, ex, -, -, -, -, -, -, -, hs, henc⟩ :=
    acceptInitial_inv ha
  refine ⟨by simp [acceptedResult, hs, acceptedSession], fun hd s hdec => ?_⟩
  have henc' := encode_congr d.2 _ ▸ henc
  cases decode_encode_eq henc' hdec
  exact ⟨by rw [hs]; rfl, hwins (disposition_primary hdisp hd)⟩

theorem nativeCrypto_lawful (P : CryptoProvider) (base : DeviceState)
    (peer : Block 16) (hme : isZero me.bytes = false) :
    (nativeCrypto P base me peer).Lawful (CleanSession P base) where
  advances_id h hc := by
    obtain ⟨s, s', h⟩ := Advances.continued h hc
    exact h.id
  advances_clean h hc := by
    obtain ⟨s, s', h⟩ := Advances.continued h hc
    exact h.clean hc
  initiate_clean h := by
    obtain ⟨s, hs, hi, htok⟩ := nativeInitiate_inv hme h
    intro s' hs'
    cases hs.symm.trans hs'
    exact ⟨htok, hi.receiveOnly⟩
  accept_clean h hd := (nativeAccept_session h).2 hd
  accept_skips h := (nativeAccept_session h).1
  accept_alone h := by
    obtain ⟨probe, acc, disp, -, -, -, -, hv, rfl⟩ := nativeAccept_eq_some.mp h
    simp only [validAccepted, decide_eq_true_eq] at hv
    exact hv.1 trivial
  accept_wins h hd := by
    obtain ⟨probe, acc, disp, -, -, -, -, hv, rfl⟩ := nativeAccept_eq_some.mp h
    simp only [validAccepted, decide_eq_true_eq] at hv
    simp [acceptedResult, hv.2.2.2.2.2.2.mpr ⟨rfl, hd⟩]
  advances_loses h hc ha hd := by
    obtain ⟨s, s', h⟩ := Advances.continued h hc
    exact nativeAccept_loses ha hd h.after (h.same.initiated (nativeAccept_existing ha h.before))
  initiate_loses h ha hd := by
    obtain ⟨s, hs, hi, -⟩ := nativeInitiate_inv hme h
    exact nativeAccept_loses ha hd hs hi
  opened_replaced h hc ha := by
    obtain ⟨s, s', h, htok⟩ := nativeDecrypt_continued h hc
    obtain ⟨probe, acc, disp, hprobe, hv, hacc, hdisp, hv', rfl⟩ := nativeAccept_eq_some.mp ha
    refine nativeAccept_eq_some.mpr ⟨probe, acc, disp, hprobe, ?_, ?_, hdisp, hv', rfl⟩
    · simpa [validAccept, h.id] using hv
    · rename_i d _ _ _ _ _ _
      exact acceptInitial_replaced hacc (decode_congr d.2 _ ▸ h.before)
        (decode_congr d.2 _ ▸ h.after) h.same htok

end Laws

end CommPlatform.L4
