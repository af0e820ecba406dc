import CommPlatform.L3Protocol.InOrder

/-!
# Repairing a session

Either end may ask for a repair: `create_repair` draws a token, keeps it as
issued and seals it to the peer. The peer opens the request, takes the
token out with `consume_repair_authorization`, and starts a replacement
session with that authorization, which the issuing end accepts against the
session that holds the token.

Between two calls a state is stored: the next call reads what `encode`
wrote (`Stored`). `RatchetState::decode` refuses a state with both tokens.
-/
namespace CommPlatform.L3

open CommPlatform.Core L1 L2

/-! ## The parts of a repair -/

/-- The payload `create_repair` seals.
mirrors pairwise.rs:1579-1589 -/
def repairControl (sessionId : Block 16) (token : Key) : Bytes :=
  repairControlMagic ++ 1 :: sessionId.bytes ++ token.bytes ++ [repairReasonSkippedLimit]

variable {s : RatchetState} {other : UInt32} {e : Bytes}

/-- The next call reads back the state that was written. -/
def Stored (P : CryptoProvider) (device : DeviceState) (s : RatchetState) (b : Bytes) : Prop :=
  s.encode P device = .ok b ∧ RatchetState.decode P device b = .ok s

variable {P : CryptoProvider}

theorem createRepair_eq_ok {recipient : Block 16} {t : EncryptedTransition} :
    createRepair P s recipient other e = .ok t ↔ s.issuedRepairToken = none ∧
      ∃ token rest, randomArray 32 e = .ok (token, rest) ∧
        ratchetEncrypt P (s.withTokens (some token) s.receivedRepairToken) recipient
          (repairControl s.sessionId token) other rest = .ok t := by
  unfold createRepair
  simp only [ok_steps, Option.not_isSome_iff_eq_none, exists_const, Prod.exists]
  rfl

variable {token : Key}

theorem inspect_repairControl (h : s.receivedRepairToken = none) :
    inspectRepairControl s (repairControl s.sessionId token) =
      .ok ({ s with receivedRepairToken := some token }, 1) := by
  have hmagic : repairControlMagic.length = 8 := by decide
  have hlen : (repairControl s.sessionId token).length = repairControlBytes := by
    simp [repairControl, hmagic, repairControlBytes]
  have hprefix : repairControlMagic.isPrefixOf (repairControl s.sessionId token) = true := by
    simp [repairControl, List.isPrefixOf_iff_prefix]
  have htake := Reader.take_run_append
    (1 :: (s.sessionId.bytes ++ (token.bytes ++ [repairReasonSkippedLimit]))) hmagic
  have hparse :
      parseRepairControl (repairControl s.sessionId token) = .ok (s.sessionId, token) := by
    simp [parseRepairControl, repairControl, Reader.parse, htake, Reader.failIf_run]
  simp [inspectRepairControl, hprefix, hlen, hparse, h, failIf]

theorem consumeRepairAuthorization_verifies {device device' : DeviceState}
    {s s' : RatchetState} {auth : Bytes} (htoken : s.receivedRepairToken = some token)
    (h : consumeRepairAuthorization P device s = .ok (s', auth))
    (hd : device'.identitySecret = device.identitySecret) :
    verifyRepairAuthorization P device' auth = .ok (some (s.sessionId, token)) := by
  simp only [consumeRepairAuthorization, htoken, okOr_some, ok_bind, ok_steps, Prod.mk.injEq] at h
  obtain ⟨key, hkey, tag, htag, -, rfl⟩ := h
  have hmagic : repairAuthMagic.length = 8 := by decide
  have hread := Reader.take_run_append (s.sessionId.bytes ++ (token.bytes ++ tag.bytes)) hmagic
  have hcut : (repairAuthMagic ++ s.sessionId.bytes ++ token.bytes ++ tag.bytes).take
      ((repairAuthMagic ++ s.sessionId.bytes ++ token.bytes ++ tag.bytes).length - 32) =
      repairAuthMagic ++ s.sessionId.bytes ++ token.bytes := by
    refine List.take_left' ?_
    simp
  have hne :
      (repairAuthMagic ++ s.sessionId.bytes ++ token.bytes ++ tag.bytes).isEmpty = false := by
    simp [← List.length_eq_zero_iff]
  rw [verifyRepairAuthorization, if_neg (by rw [hne]; simp), hcut, hd, hkey]
  simp only [List.append_assoc] at htag
  simp [Reader.parse, hread, Reader.failIf_run, htag, failIf]

/-! ## Runs -/

/-- A session between two devices, with the authorization an end took out of the other's request and
the session it accepted in place of this one. -/
structure RepairRun where
  conv : Conv
  device : Side → DeviceState
  held : Side → Option Bytes
  replaced : Side → Option RatchetState

def Sent.isRequest (msg : Sent) : Bool := repairControlMagic.isPrefixOf msg.inner

namespace RepairRun

/-- What an end stores for the session. -/
def current (r : RepairRun) (side : Side) : RatchetState :=
  (r.replaced side).getD (r.conv.state side)

/-- A message, a repair request, the opening of the next envelope, the consumption of a token, or a
replacement that is accepted. A call that sets one of the two tokens finds the other as `allowed`.
The state each call takes is the one its device stored. -/
inductive Step (P : CryptoProvider) (allowed : Option Key → Prop) : RepairRun → RepairRun → Prop
  | send {r : RepairRun} (side : Side) (inner e b : Bytes) (other : UInt32)
      (t : EncryptedTransition) (plain : repairControlMagic.isPrefixOf inner = false)
      (live : r.replaced side = none)
      (stored : Stored P (r.device side) (r.conv.state side) b)
      (fresh : (r.conv.state side).sendingChain = none → r.conv.Fresh P e)
      (h : ratchetEncrypt P (r.conv.state side) (r.conv.state side).remoteDeviceId inner other e =
        .ok t) :
      Step P allowed r { r with conv := r.conv.afterSend side inner t }
  | request {r : RepairRun} (side : Side) (e b rest : Bytes) (token : Key) (other : UInt32)
      (t : EncryptedTransition) (live : r.replaced side = none)
      (stored : Stored P (r.device side) (r.conv.state side) b)
      (hallowed : allowed (r.conv.state side).receivedRepairToken)
      (draws : randomArray 32 e = .ok (token, rest))
      (fresh : (r.conv.state side).sendingChain = none → r.conv.Fresh P rest)
      (h : createRepair P (r.conv.state side) (r.conv.state side).remoteDeviceId other e = .ok t) :
      Step P allowed r { r with
        conv := r.conv.afterSend side (repairControl (r.conv.state side).sessionId token) t }
  | deliver {r : RepairRun} (before : List Sent) (msg : Sent) (after : List Sent) (e b : Bytes)
      (other : UInt32) (t : DecryptedTransition) (hsent : r.conv.sent = before ++ msg :: after)
      (next : r.conv.IsNext msg) (live : r.replaced msg.sender.peer = none)
      (stored : Stored P (r.device msg.sender.peer) (r.conv.state msg.sender.peer) b)
      (fresh : msg.chain ≠ (r.conv.state msg.sender.peer).remoteRatchetPublic → r.conv.Fresh P e)
      (h : r.conv.tryOpen P msg other e = .ok (.prepared t))
      (hallowed : t.payloadKind ≠ 0 → allowed (r.conv.state msg.sender.peer).issuedRepairToken) :
      Step P allowed r { r with conv := r.conv.afterOpen before msg after t }
  | consume {r : RepairRun} (side : Side) (b auth : Bytes) (s : RatchetState)
      (live : r.replaced side = none) (stored : Stored P (r.device side) (r.conv.state side) b)
      (h : consumeRepairAuthorization P (r.device side) (r.conv.state side) = .ok (s, auth)) :
      Step P allowed r { r with
        conv := r.conv.put side s, held := Function.update r.held side (some auth) }
  | accept {r : RepairRun} (side : Side) (device : DeviceState) (rid : Block 16)
      (envelope existing b : Bytes) (token : Key) (sender : AuthenticatedSenderProjection)
      (acc : AcceptedInitial) (stored : Stored P device (r.current side) b)
      (h : acceptInitial P device rid envelope token sender existing b = .ok acc) :
      Step P allowed r { r with replaced := Function.update r.replaced side (some acc.session) }

end RepairRun

variable {t : DecryptedTransition} {msg : Sent}

/-! ## The invariant -/

section Invariant

variable {P : CryptoProvider} {sid : Block 16} {id : Side → Block 16} {r : RepairRun}

def Conv.requestsBy (c : Conv) (side : Side) : Nat :=
  c.sent.countP fun m => m.sender = side ∧ m.isRequest

/-- Every request on its way carries the token its sender issued and finds its receiver without one,
a token that was received is the one the other end issued, and so is that of every authorization. An
end that accepted a replacement has no token out any more. -/
structure RepairInv (P : CryptoProvider) (sid : Block 16) (id : Side → Block 16) (r : RepairRun) :
    Prop where
  inOrder : ∃ eps, InOrder P sid id r.conv eps
  healthy : ∀ x, (r.conv.state x).Usable P ∧ (r.conv.state x).receiveOnly = false
  once : ∀ x, r.conv.requestsBy x ≤ 1
  requests : ∀ msg ∈ r.conv.sent, msg.isRequest = true →
    (∃ token, msg.inner = repairControl sid token ∧
      (r.conv.state msg.sender).issuedRepairToken = some token) ∧
      (msg.delivered = false → (r.conv.state msg.sender.peer).receivedRepairToken = none)
  received : ∀ x token, (r.conv.state x).receivedRepairToken = some token →
    (r.conv.state x.peer).issuedRepairToken = some token
  held : ∀ x auth, r.held x = some auth → ∃ token,
    (r.conv.state x.peer).issuedRepairToken = some token ∧
      ∀ d : DeviceState, d.identitySecret = (r.device x).identitySecret →
        verifyRepairAuthorization P d auth = .ok (some (sid, token))
  replaced : ∀ x s, r.replaced x = some s → s.issuedRepairToken = none

theorem exists_stored (h : s.Usable P) (hs : s.skipped = [])
    (device : DeviceState) : ∃ b, Stored P device s b := by
  obtain ⟨b, hb⟩ := encode_of_noSkip hs device
  exact ⟨b, hb, (decode_encode_iff hb).mpr h⟩

variable {rid : Block 16}

theorem put_tokens_put (c : Conv) (x : Side) (s : RatchetState) (issued received : Option Key) :
    (c.put x ((c.state x).withTokens issued received)).put x s = c.put x s := by
  simp [Conv.put, RatchetState.withTokens]

theorem RepairInv.session (h : RepairInv P sid id r) (x : Side) :
    (r.conv.state x).sessionId = sid := by
  obtain ⟨eps, hord⟩ := h.inOrder
  exact (hord.sync.ids x).session

variable {c : Conv}

theorem RepairInv.put (h : RepairInv P sid id r) {x : Side}
    (hord : ∃ eps, InOrder P sid id c eps) (hstate : c.state = (r.conv.put x s).state)
    (hs : s.Usable P ∧ s.receiveOnly = false)
    (hissued : ∀ token, (r.conv.state x).issuedRepairToken = some token →
      s.issuedRepairToken = some token)
    (hreceived : ∀ token, s.receivedRepairToken = some token →
      (r.conv.state x.peer).issuedRepairToken = some token)
    (honce : ∀ y, c.requestsBy y ≤ 1)
    (hopen : ∀ msg ∈ c.sent, msg.isRequest = true → msg.delivered = false →
      msg.sender = x.peer → s.receivedRepairToken = none)
    (hsent : ∀ msg ∈ c.sent, msg.isRequest = true →
      (∃ m ∈ r.conv.sent, m.inner = msg.inner ∧ m.sender = msg.sender ∧
          (msg.delivered = false → m.delivered = false)) ∨
        msg.sender = x ∧ (r.conv.state x.peer).receivedRepairToken = none ∧
          ∃ token, msg.inner = repairControl sid token ∧ s.issuedRepairToken = some token) :
    RepairInv P sid id { r with conv := c } := by
  have hself : c.state x = s := by rw [hstate, Conv.put_self]
  have hpeer : c.state x.peer = r.conv.state x.peer := by rw [hstate, Conv.put_peer]
  -- an issued token of either end is still there
  have hkept : ∀ y token, (r.conv.state y).issuedRepairToken = some token →
      (c.state y).issuedRepairToken = some token := by
    intro y token hy
    rcases y.eq_or_eq_peer x with rfl | rfl
    · rw [hself]
      exact hissued token hy
    · rwa [hpeer]
  refine ⟨hord, ?_, honce, fun msg hm hreq => ?_, fun y token hy => ?_, fun y auth hy => ?_,
    h.replaced⟩
  · change ∀ y, (c.state y).Usable P ∧ (c.state y).receiveOnly = false
    rw [hstate]
    exact Conv.put_forall (Q := fun _ s => s.Usable P ∧ s.receiveOnly = false) h.healthy hs
  · rcases hsent msg hm hreq with ⟨m, hmem, hinner, hsender, hdelivered⟩ |
      ⟨hsender, hnone, token, hinner, htoken⟩
    · have hreq' : m.isRequest = true := by
        rwa [Sent.isRequest, hinner]
      obtain ⟨⟨token, hcontrol, htoken⟩, hunopened⟩ := h.requests m hmem hreq'
      refine ⟨⟨token, hinner ▸ hcontrol, hkept _ _ (hsender ▸ htoken)⟩, fun hd => ?_⟩
      rw [hsender] at hunopened
      rcases msg.sender.eq_or_eq_peer x with hx | hx
      · rw [hx, hpeer, ← hx]
        exact hunopened (hdelivered hd)
      · rw [hx, Side.peer_peer, hself]
        exact hopen msg hm hreq hd hx
    · rw [hsender, hself, hpeer]
      exact ⟨⟨token, hinner, htoken⟩, fun _ => hnone⟩
  · rcases y.eq_or_eq_peer x with rfl | rfl
    · rw [hself] at hy
      rw [hpeer]
      exact hreceived token hy
    · rw [hpeer] at hy
      exact hkept _ _ (h.received _ _ hy)
  · obtain ⟨token, htoken, hverify⟩ := h.held y auth hy
    exact ⟨token, hkept _ _ htoken, hverify⟩

theorem RepairInv.requestsBy_eq_zero (h : RepairInv P sid id r) {x : Side}
    (hnone : (r.conv.state x).issuedRepairToken = none) : r.conv.requestsBy x = 0 := by
  refine List.countP_eq_zero.mpr fun m hm hreq => ?_
  obtain ⟨hsender, hreq⟩ := decide_eq_true_eq.mp hreq
  obtain ⟨⟨token, -, htoken⟩, -⟩ := h.requests m hm hreq
  rw [hsender, hnone] at htoken
  cases htoken

variable {before after : List Sent} {side : Side}

theorem mem_afterSend {inner : Bytes} {t : EncryptedTransition}
    (h : msg ∈ (c.afterSend side inner t).sent) :
    msg ∈ c.sent ∨ msg.sender = side ∧ msg.inner = inner := by
  rcases List.mem_append.mp h with h | h
  · exact .inl h
  · cases List.mem_singleton.mp h
    exact .inr ⟨rfl, rfl⟩

theorem mem_afterOpen {msg m : Sent}
    (hsent : c.sent = before ++ msg :: after) (h : m ∈ (c.afterOpen before msg after t).sent) :
    ∃ m' ∈ c.sent, m'.inner = m.inner ∧ m'.sender = m.sender ∧
      (m.delivered = false → m'.delivered = false) := by
  rcases mem_mark h with rfl | hm
  · exact ⟨msg, by rw [hsent]; simp, rfl, rfl, by simp⟩
  · exact ⟨m, hsent ▸ mem_of_mem_rest hm, rfl, rfl, fun hd => hd⟩

theorem requestsBy_afterSend (inner : Bytes) (t : EncryptedTransition) (x : Side) :
    (c.afterSend side inner t).requestsBy x = c.requestsBy x +
      if side = x ∧ repairControlMagic.isPrefixOf inner then 1 else 0 := by
  simp [Conv.requestsBy, Conv.afterSend, List.countP_append, List.countP_cons, Sent.isRequest]

theorem requestsBy_afterOpen (hsent : c.sent = before ++ msg :: after) (x : Side) :
    (c.afterOpen before msg after t).requestsBy x = c.requestsBy x := by
  simp [Conv.requestsBy, Conv.afterOpen, hsent, List.countP_append, List.countP_cons,
    Sent.isRequest]

theorem ratchetEncrypt_bidirectional {inner e : Bytes} {t : EncryptedTransition}
    (ht : ratchetEncrypt P s rid inner other e = .ok t) : t.state.receiveOnly = false := by
  obtain ⟨hro, -, s1, _, _, _, hstart, -, -, -, hstate⟩ := ratchetEncrypt_inv ht
  rw [hstate]
  rcases startSendingChain_cases hstart with ⟨-, rfl, -⟩ | ⟨-, _, _, _, -, -, rfl, -⟩ <;> exact hro

/-- A message is in order whatever the tokens of the state it is sent from are set to. -/
theorem inOrder_sendWithTokens {inner e : Bytes} {t : EncryptedTransition} {eps : List Epoch}
    {issued received : Option Key} (hfresh : (c.state side).sendingChain = none → c.Fresh P e)
    (ht : ratchetEncrypt P ((c.state side).withTokens issued received)
      (c.state side).remoteDeviceId inner other e = .ok t) (hord : InOrder P sid id c eps) :
    ∃ eps', InOrder P sid id (c.afterSend side inner t) eps' := by
  have htokens := inOrder_tokens hord side issued received
  generalize hc : c.put side _ = c' at htokens
  have hstate : c'.state side = (c.state side).withTokens issued received := by
    rw [← hc, Conv.put_self]
  have hpublics : c'.publics = c.publics := by
    rw [← hc]
    exact if_pos rfl
  have hfresh' : (c'.state side).sendingChain = none → c'.Fresh P e := by
    rw [hstate, Conv.Fresh, hpublics]
    exact hfresh
  obtain ⟨eps', hsent⟩ := inOrder_send hfresh' (by rw [hstate]; exact ht) htokens
  rw [← hc, Conv.afterSend, put_tokens_put] at hsent
  exact ⟨eps', hsent⟩

theorem RepairInv.only_request (h : RepairInv P sid id r)
    (hsent : r.conv.sent = before ++ msg :: after) (hreq : msg.isRequest = true) :
    ∀ m ∈ before ++ after, ¬(m.sender = msg.sender ∧ m.isRequest = true) := by
  intro m hm hother
  have honce := h.once msg.sender
  rw [Conv.requestsBy, hsent, List.countP_append, List.countP_cons,
    if_pos (by simpa using hreq)] at honce
  have hpos : 0 < (before ++ after).countP fun m => m.sender = msg.sender ∧ m.isRequest :=
    List.countP_pos_iff.mpr ⟨m, hm, by simpa using hother⟩
  rw [List.countP_append] at hpos
  omega

variable (h : RepairInv P sid id r)
include h

theorem RepairInv.send {inner e : Bytes}
    {t : EncryptedTransition} (hplain : repairControlMagic.isPrefixOf inner = false)
    (hfresh : (r.conv.state side).sendingChain = none → r.conv.Fresh P e)
    (ht : ratchetEncrypt P (r.conv.state side) (r.conv.state side).remoteDeviceId inner other e =
      .ok t) : RepairInv P sid id { r with conv := r.conv.afterSend side inner t } := by
  obtain ⟨eps, hord⟩ := h.inOrder
  obtain ⟨hissued, hreceived⟩ := ratchetEncrypt_tokens ht
  have hold : ∀ msg ∈ (r.conv.afterSend side inner t).sent, msg.isRequest = true →
      msg ∈ r.conv.sent := by
    intro msg hm hreq
    rcases mem_afterSend hm with hm | ⟨-, hinner⟩
    · exact hm
    · rw [Sent.isRequest, hinner, hplain] at hreq
      cases hreq
  refine h.put (inOrder_send hfresh ht hord) rfl
    ⟨ratchetEncrypt_usable (h.healthy side).1 ht, ratchetEncrypt_bidirectional ht⟩
    (fun token htoken => hissued.trans htoken)
    (fun token htoken => h.received _ _ (hreceived.symm.trans htoken))
    (fun y => by simpa [requestsBy_afterSend, hplain] using h.once y)
    (fun msg hm hreq hd hx => ?_)
    fun msg hm hreq => .inl ⟨msg, hold msg hm hreq, rfl, rfl, fun hd => hd⟩
  rw [hreceived, ← Side.peer_peer side, ← hx]
  exact (h.requests msg (hold msg hm hreq) hreq).2 hd

theorem RepairInv.request {e rest : Bytes}
    {t : EncryptedTransition} (hnotReceived : (r.conv.state side).receivedRepairToken = none)
    (hdraw : randomArray 32 e = .ok (token, rest))
    (hfresh : (r.conv.state side).sendingChain = none → r.conv.Fresh P rest)
    (ht : createRepair P (r.conv.state side) (r.conv.state side).remoteDeviceId other e = .ok t) :
    RepairInv P sid id { r with
      conv := r.conv.afterSend side (repairControl (r.conv.state side).sessionId token) t } := by
  obtain ⟨eps, hord⟩ := h.inOrder
  have husable := (createRepair_usable_iff (h.healthy side).1 ht).mpr hnotReceived
  obtain ⟨hnone, token', rest', hdraw', ht⟩ := createRepair_eq_ok.mp ht
  cases hdraw.symm.trans hdraw'
  obtain ⟨hissued, hreceived⟩ := ratchetEncrypt_tokens ht
  rw [RatchetState.withTokens, hnotReceived] at hreceived
  have hzero := h.requestsBy_eq_zero hnone
  refine h.put (inOrder_sendWithTokens hfresh ht hord) rfl
    ⟨husable, ratchetEncrypt_bidirectional ht⟩
    (fun token htoken => by simp [hnone] at htoken)
    (fun token htoken => by simp [hreceived] at htoken)
    (fun y => ?_) (fun _ _ _ _ _ => hreceived) fun msg hm hreq => ?_
  · rw [requestsBy_afterSend]
    split
    · next hy =>
      rw [← hy.1, hzero]
    · exact h.once y
  · rcases mem_afterSend hm with hm | ⟨hsender, hinner⟩
    · exact .inl ⟨msg, hm, rfl, rfl, fun hd => hd⟩
    · -- the peer has received no token, since this end had issued none
      refine .inr ⟨hsender, ?_, token, by rw [hinner, h.session], hissued⟩
      cases hpeer : (r.conv.state side.peer).receivedRepairToken with
      | none => rfl
      | some received =>
        have := h.received _ _ hpeer
        rw [Side.peer_peer, hnone] at this
        cases this

theorem RepairInv.opened (ht : r.conv.tryOpen P msg other e = .ok (.prepared t)) :
    ∃ s₀, inspectRepairControl s₀ t.inner = .ok (t.state, t.payloadKind) ∧ s₀.sessionId = sid ∧
      s₀.issuedRepairToken = (r.conv.state msg.sender.peer).issuedRepairToken ∧
      s₀.receivedRepairToken = (r.conv.state msg.sender.peer).receivedRepairToken ∧
      s₀.receiveOnly = false := by
  have hs := (h.healthy msg.sender.peer).2
  obtain ⟨s₁, _, _, _, hs₁, hi⟩ := ratchetDecrypt_opens ht
  refine ⟨_, hi, ?_⟩
  rcases hs₁ with rfl | ⟨_, _, _, _, _, rfl⟩ <;> exact ⟨h.session _, rfl, rfl, hs⟩

theorem RepairInv.usable_opened (ht : r.conv.tryOpen P msg other e = .ok (.prepared t))
    (hkind : (r.conv.state msg.sender.peer).issuedRepairToken = none ∨ t.payloadKind = 0) :
    t.state.Usable P := by
  have hs := h.healthy msg.sender.peer
  exact ratchetDecrypt_usable hs.1 ht hkind (fun hro => by simp [hs.2] at hro)

omit h

theorem mem_of_isNext (h : c.IsNext msg) : msg ∈ c.sent ∧ msg.delivered = false := by
  have hmem := List.mem_of_head? h
  simp only [Conv.pending, List.mem_filter] at hmem
  exact ⟨hmem.1, by simpa using (hmem.2)⟩

theorem RepairInv.passesControl (h : RepairInv P sid id r) (hnext : r.conv.IsNext msg) :
    r.conv.PassesControl msg := by
  obtain ⟨hmem, hd⟩ := mem_of_isNext hnext
  by_cases hreq : msg.isRequest = true
  · obtain ⟨⟨token, hinner, -⟩, hnone⟩ := h.requests msg hmem hreq
    rw [← h.session msg.sender.peer] at hinner
    exact ⟨_, by rw [hinner]; exact inspect_repairControl (hnone hd)⟩
  · exact ⟨_, if_pos hreq⟩

/-- The next envelope leaves the tokens as they are, or it is the peer's request. -/
theorem RepairInv.opened_cases (hP : Correct P) (h : RepairInv P sid id r)
    (hnext : r.conv.IsNext msg) (ht : r.conv.tryOpen P msg other e = .ok (.prepared t)) :
    t.state.sessionId = sid ∧
    t.state.issuedRepairToken = (r.conv.state msg.sender.peer).issuedRepairToken ∧
    t.state.receiveOnly = false ∧
    (msg.isRequest = false ∧ t.payloadKind = 0 ∧
        t.state.receivedRepairToken = (r.conv.state msg.sender.peer).receivedRepairToken ∨
      msg.isRequest = true ∧ t.payloadKind = 1 ∧ ∃ token,
        t.state.receivedRepairToken = some token ∧
        (r.conv.state msg.sender).issuedRepairToken = some token) := by
  obtain ⟨eps, hord⟩ := h.inOrder
  obtain ⟨hmem, hd⟩ := mem_of_isNext hnext
  obtain ⟨s₀, hi, hsid, hissued, hreceived, hro⟩ := h.opened ht
  rw [hord.opened_inner hP hnext (h.passesControl hnext) ht] at hi
  by_cases hreq : msg.isRequest = true
  · obtain ⟨⟨token, hinner, htoken⟩, hnone⟩ := h.requests msg hmem hreq
    rw [hinner, ← hsid, inspect_repairControl (hreceived.trans (hnone hd))] at hi
    simp only [Except.ok.injEq, Prod.mk.injEq] at hi
    obtain ⟨hstate, hkind⟩ := hi
    rw [← hstate]
    exact ⟨hsid, hissued, hro, .inr ⟨hreq, hkind.symm, token, rfl, htoken⟩⟩
  · have hplain : ¬ repairControlMagic.isPrefixOf msg.inner = true := hreq
    rw [inspectRepairControl, if_pos hplain] at hi
    simp only [Except.ok.injEq, Prod.mk.injEq] at hi
    obtain ⟨hstate, hkind⟩ := hi
    rw [← hstate]
    exact ⟨hsid, hissued, hro, .inl ⟨by simpa using hreq, hkind.symm, hreceived⟩⟩

theorem RepairInv.deliver (hP : Correct P) (h : RepairInv P sid id r)
    (hsent : r.conv.sent = before ++ msg :: after) (hnext : r.conv.IsNext msg)
    (hfresh : msg.chain ≠ (r.conv.state msg.sender.peer).remoteRatchetPublic → r.conv.Fresh P e)
    (ht : r.conv.tryOpen P msg other e = .ok (.prepared t))
    (huncrossed : t.payloadKind ≠ 0 → (r.conv.state msg.sender.peer).issuedRepairToken = none) :
    RepairInv P sid id { r with conv := r.conv.afterOpen before msg after t } := by
  obtain ⟨eps, hord⟩ := h.inOrder
  obtain ⟨-, hissued, hro, hcase⟩ := h.opened_cases hP hnext ht
  have husable := h.usable_opened ht (or_iff_not_imp_right.mpr huncrossed)
  refine h.put (inOrder_open hP hord hsent hnext hfresh ht) rfl ⟨husable, hro⟩
    (fun token htoken => hissued.trans htoken) (fun token htoken => ?_)
    (fun y => (requestsBy_afterOpen hsent y).trans_le (h.once y)) (fun m hm hreq hd hx => ?_)
    fun m hm _ => .inl (mem_afterOpen hsent hm)
  · rcases hcase with ⟨-, -, hsame⟩ | ⟨-, -, token', hset, hpeer⟩
    · exact h.received _ _ (hsame.symm.trans htoken)
    · rw [Side.peer_peer, hpeer, ← hset, htoken]
  · rw [Side.peer_peer] at hx
    rcases hcase with ⟨-, -, hsame⟩ | ⟨hreq', -⟩
    · obtain ⟨m', hm', hinner, hsender, hdelivered⟩ := mem_afterOpen hsent hm
      have hopen := (h.requests m' hm' (by rwa [Sent.isRequest, hinner])).2 (hdelivered hd)
      rwa [hsame, ← hx, ← hsender]
    · rcases mem_mark hm with rfl | hm
      · cases hd
      · exact absurd ⟨hx, hreq⟩ (h.only_request hsent hreq' m hm)

theorem consumeRepairAuthorization_state {device : DeviceState} {auth : Bytes} {s' : RatchetState}
    (h : consumeRepairAuthorization P device s = .ok (s', auth)) :
    s' = s.withTokens s.issuedRepairToken none ∧ ∃ token, s.receivedRepairToken = some token := by
  simp only [consumeRepairAuthorization, ok_steps, okOr_eq_ok, Prod.mk.injEq] at h
  obtain ⟨token, htoken, _, -, _, -, hs, -⟩ := h
  exact ⟨hs.symm, token, htoken⟩

theorem RepairInv.consume (h : RepairInv P sid id r) {auth : Bytes}
    (hconsumed : consumeRepairAuthorization P (r.device side) (r.conv.state side) = .ok (s, auth)) :
    RepairInv P sid id { r with
      conv := r.conv.put side s, held := Function.update r.held side (some auth) } := by
  obtain ⟨eps, hord⟩ := h.inOrder
  have hs := h.healthy side
  have husable := consumeRepairAuthorization_usable hs.1 hconsumed
  obtain ⟨hstate, token, htoken⟩ := consumeRepairAuthorization_state hconsumed
  have hord' := inOrder_tokens hord side (r.conv.state side).issuedRepairToken none
  rw [← hstate] at hord'
  have hnone : s.receivedRepairToken = none := by rw [hstate]; rfl
  have hput := h.put ⟨eps, hord'⟩ rfl ⟨husable, by rw [hstate]; exact hs.2⟩
    (fun token htoken => by rw [hstate]; exact htoken)
    (fun token htoken => by simp [hnone] at htoken)
    h.once (fun _ _ _ _ _ => hnone) fun m hm _ => .inl ⟨m, hm, rfl, rfl, fun hd => hd⟩
  refine { hput with held := fun y auth' hy => ?_ }
  by_cases hyr : y = side
  · subst hyr
    simp only [Function.update_self, Option.some.injEq] at hy
    subst hy
    refine ⟨token, ?_, fun d hd => h.session y ▸
      consumeRepairAuthorization_verifies htoken hconsumed hd⟩
    rw [Conv.put_peer]
    exact h.received _ _ htoken
  · simp only [Function.update_of_ne hyr] at hy
    exact hput.held y auth' hy

theorem RepairInv.start (hP : Correct P) (h : HonestSetup P)
    (hprimary : h.accepted.session.primary = true) (hconv : r.conv = h.start)
    (hheld : r.held = fun _ => none) (hreplaced : r.replaced = fun _ => none) :
    ∃ sid id, RepairInv P sid id r := by
  obtain ⟨sid, id, eps, hord⟩ := inOrder_start hP h
  obtain ⟨keys, shared, dh, transcript, wins, spk, -, -, -, -, hs, -, header, -, -, hacc⟩ :=
    h.states hP
  have hpeer := (initiate_inv h.initiated).1
  have hwins : wins = true := by rwa [hacc] at hprimary
  have hreceived : ∀ x, (h.start.state x).receivedRepairToken = none := by
    rintro (_ | _)
    · simp [HonestSetup.start, hs, initiatedSession]
    · simp [HonestSetup.start, hacc, acceptedSession]
  refine ⟨sid, id, ⟨eps, hconv ▸ hord⟩, fun x => ?_, ?_, ?_, fun x token hx => ?_, ?_, ?_⟩
  · rw [hconv]
    cases x with
    | initiator =>
      have hid := h.honest.deviceId ▸ h.projection.deviceId_ne
      exact ⟨initiate_usable hid h.initiated, by simp [HonestSetup.start, hs, initiatedSession]⟩
    | responder =>
      have hid := hpeer ▸ h.peer.deviceId_ne
      exact ⟨(acceptInitial_usable h.recipientValid hid h.acceptedOk).1,
        by simp [HonestSetup.start, hacc, acceptedSession, hwins]⟩
  · rw [hconv]
    exact fun _ => Nat.zero_le 1
  · rw [hconv]
    simp [HonestSetup.start]
  · rw [hconv, hreceived] at hx
    cases hx
  · simp [hheld]
  · simp [hreplaced]

end Invariant

/-! ## The replacement -/

/-- A replacement session `x` starts with `auth`: the two device states of that moment, what each
device knows of the other, and what `initiate` made. -/
structure Replacement (P : CryptoProvider) (r : RepairRun) (x : Side) (auth : Bytes) where
  starter : DeviceState
  issuer : DeviceState
  peer : PeerBundle
  classicalOneTime : Option OptionalClassicalPrekey
  pqOneTime : Option OptionalPqPrekey
  projection : AuthenticatedSenderProjection
  inner : Bytes
  entropy : Bytes
  other : UInt32
  session : RatchetState
  envelope : Bytes
  starterValid : starter.Valid P
  issuerValid : issuer.Valid P
  starterSecret : starter.identitySecret = (r.device x).identitySecret
  issuerSecret : issuer.identitySecret = (r.device x.peer).identitySecret
  bundle : HonestBundle issuer peer classicalOneTime pqOneTime
  honest : HonestProjection starter (r.conv.state x).localDeviceId projection
  initiated : initiate P starter (r.conv.state x).localDeviceId (r.conv.state x).remoteDeviceId peer
    classicalOneTime pqOneTime auth inner other entropy = .ok (session, envelope)

/-- The other end takes the replacement over the session it stores as `b`. The session it starts
can be stored. -/
def Replacement.Accepted {P : CryptoProvider} {r : RepairRun} {x : Side} {auth : Bytes}
    (m : Replacement P r x auth) (b : Bytes) : Prop :=
  ∃ probe acc, probeInitial P m.issuer (r.conv.state x).remoteDeviceId m.envelope = .ok probe ∧
    acceptInitial P m.issuer (r.conv.state x).remoteDeviceId m.envelope probe.probeToken
      m.projection [] b = .ok acc ∧ acc.inner = m.inner ∧
    acc.session.sessionId = m.session.sessionId ∧ Stored P m.issuer acc.session acc.sessionState

section Through

variable {P : CryptoProvider} {sid : Block 16} {id : Side → Block 16} {r : RepairRun}

theorem RepairInv.noSkip (h : RepairInv P sid id r) (x : Side) : (r.conv.state x).skipped = [] := by
  obtain ⟨eps, hord⟩ := h.inOrder
  have hflow := (hord.flow x.peer).noSkip
  rwa [Side.peer_peer] at hflow

theorem RepairInv.stored (h : RepairInv P sid id r) (x : Side) :
    ∃ b, Stored P (r.device x) (r.conv.state x) b :=
  exists_stored (h.healthy x).1 (h.noSkip x) (r.device x)

theorem RepairInv.opens (hP : Correct P) (h : RepairInv P sid id r) (hnext : r.conv.IsNext msg)
    (hother : other.toNat ≤ maxSkippedAccount) (h32 : 32 ≤ e.length) :
    ∃ t, r.conv.tryOpen P msg other e = .ok (.prepared t) ∧ t.inner = msg.inner ∧
      (msg.isRequest = true → t.payloadKind = 1 ∧ t.state.receivedRepairToken.isSome) := by
  obtain ⟨eps, hord⟩ := h.inOrder
  obtain ⟨t, ht, hinner⟩ := hord.opens hP hnext hother (h.passesControl hnext) h32
  refine ⟨t, ht, hinner, fun hreq => ?_⟩
  obtain ⟨-, -, -, ⟨hplain, -⟩ | ⟨-, hkind, token, hreceived, -⟩⟩ := h.opened_cases hP hnext ht
  · rw [hreq] at hplain
    cases hplain
  · exact ⟨hkind, by rw [hreceived]; rfl⟩

theorem RepairInv.accepted (hP : Correct P) (h : RepairInv P sid id r) {x : Side}
    {auth b : Bytes} (hheld : r.held x = some auth)
    (hb : Stored P (r.device x.peer) (r.conv.state x.peer) b) (m : Replacement P r x auth) :
    m.Accepted b := by
  obtain ⟨eps, hord⟩ := h.inOrder
  obtain ⟨token, htoken, hverify⟩ := h.held x auth hheld
  have hrep := hverify m.starter m.starterSecret
  have hids := hord.sync.ids x
  have hpeer := hord.sync.ids x.peer
  have hlocal : (r.conv.state x.peer).localDeviceId = (r.conv.state x).remoteDeviceId :=
    hpeer.localId.trans hids.remoteId.symm
  have hremote : (r.conv.state x.peer).remoteDeviceId = (r.conv.state x).localDeviceId := by
    rw [hpeer.remoteId, Side.peer_peer, hids.localId]
  have hdec : RatchetState.decode P m.issuer b = .ok (r.conv.state x.peer) :=
    (decode_congr m.issuerSecret b).trans hb.2
  have hholds : HoldsIssuedToken P m.issuer (r.conv.state x).remoteDeviceId
      (r.conv.state x).localDeviceId b (some (sid, token)) :=
    ⟨_, hdec, hpeer.session, hlocal, hremote, htoken⟩
  obtain ⟨probe, acc, keys, _, shared, dh, transcript, spk, _, hprobe, hacc, -, -, -, hstate, -, -,
    hsession, henc, hinner, -, -⟩ := accept_of_initiate hP m.starterValid m.issuerValid m.bundle
      m.honest m.initiated hrep (checkReplaced_of_holds hholds) rfl rfl
  have hid : isZero (r.conv.state x).remoteDeviceId.bytes = false :=
    (initiate_inv m.initiated).1 ▸ m.peer.deviceId_ne
  exact ⟨probe, acc, hprobe, hacc, hinner, by rw [hsession, hstate]; rfl, henc,
    (decode_encode_iff henc).mpr (acceptInitial_usable m.issuerValid hid hacc).1⟩

end Through

end CommPlatform.L3
