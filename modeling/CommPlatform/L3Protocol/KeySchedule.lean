import CommPlatform.L3Protocol.Conversation
import CommPlatform.L3Protocol.Derivations

/-!
# The key schedule of a session

The ratchet keys of a session form one sequence of epochs: the signed
prekey, the initiator's first key, the responder's first key, and so on,
the owners alternating. Each epoch's root and chain come from the epoch
before it and the exchange between the two keys. `Sync` says where the two
ends stand in that sequence:

* `Phase.first`: the responder has not sealed yet; it receives on the
  initiator's chain and has no chain of its own.
* `Phase.later`: the owner of the newest key receives on the chain before
  it, the other end sends on that chain and still receives on the one before.

It also says what the ends keep: every stored skipped key is the key of its
number on the chain of its public key, and every unopened envelope of the
current chain that was passed has one.

* `sync_start`: a session just set up is in sync.
-/
namespace CommPlatform.L3

open CommPlatform.Core L1 L2
open List (mem_append mem_cons_self mem_singleton nodup_cons not_mem_nil)

/-! ## Epochs -/

/-- A ratchet key, the root reached with it and the chain its owner sends on. The first epoch, the
signed prekey, has no chain. -/
structure Epoch where
  owner : Side
  secret : Key
  pub : Key
  root : Key
  chain : Option Key
  prev : UInt32

/-- The derivation of an epoch from the one before. -/
structure Epoch.Follows (P : CryptoProvider) (new old : Epoch) : Prop where
  owner : new.owner = old.owner.peer
  derived : ∃ dh, P.x25519Shared new.secret old.pub = .ok dh ∧ new.root = nextRoot P old.root dh ∧
    new.chain = some (chainStart P old.root dh)

/-- `s` seals on the chain of `e`. -/
structure Sends (P : CryptoProvider) (s : RatchetState) (e : Epoch) : Prop where
  secret : s.localRatchetSecret = e.secret
  pub : s.localRatchetPublic = e.pub
  root : s.rootKey = e.root
  prev : s.previousSendCount = e.prev
  chain : ∃ k, e.chain = some k ∧ s.sendingChain = some (advance P k s.sendCount.toNat)

/-- `s` receives on the chain of `e`, on which `limit` envelopes were sealed. -/
structure Receives (P : CryptoProvider) (s : RatchetState) (e : Epoch) (limit : Nat) : Prop where
  remote : s.remoteRatchetPublic = e.pub
  chain : s.receivingChain = e.chain.map fun k => advance P k s.receiveCount.toNat
  count : s.receiveCount.toNat ≤ limit
  idle : e.chain = none → limit = 0

def Below (sent : List Sent) (e : Epoch) (limit : Nat) : Prop :=
  ∀ msg ∈ sent, msg.chain = e.pub → msg.number.toNat < limit

def Opened (sent : List Sent) (e : Epoch) (older : List Epoch) : Prop :=
  (∃ e' ∈ older, e'.owner = e.owner ∧ e'.chain.isSome) →
    ∃ msg ∈ sent, msg.delivered = true ∧ msg.sender = e.owner ∧ msg.chain = e.pub

/-- Where the two ends stand in the sequence of epochs, newest first. -/
inductive Phase (P : CryptoProvider) (c : Conv) : List Epoch → Prop
  | first {e1 e0 : Epoch} (owner : e1.owner = .initiator) (base : e0.chain = none)
      (sends : Sends P (c.state .initiator) e1)
      (below : Below c.sent e1 (c.state .initiator).sendCount.toNat)
      (idle : Receives P (c.state .initiator) e0 0) (belowBase : Below c.sent e0 0)
      (secret : (c.state .responder).localRatchetSecret = e0.secret)
      (pub : (c.state .responder).localRatchetPublic = e0.pub)
      (root : (c.state .responder).rootKey = e1.root)
      (silent : (c.state .responder).sendingChain = none)
      (count : (c.state .responder).sendCount = 0)
      (receives : Receives P (c.state .responder) e1 (c.state .initiator).sendCount.toNat) :
      Phase P c [e1, e0]
  | later {x : Side} {top mid low : Epoch} {rest : List Epoch} (owner : top.owner = x)
      (sends : Sends P (c.state x) top)
      (below : Below c.sent top (c.state x).sendCount.toNat)
      (receives : Receives P (c.state x) mid (c.state x.peer).sendCount.toNat)
      (sendsPeer : Sends P (c.state x.peer) mid)
      (belowMid : Below c.sent mid (c.state x.peer).sendCount.toNat)
      (receivesPeer : Receives P (c.state x.peer) low top.prev.toNat)
      (belowLow : Below c.sent low top.prev.toNat)
      (opened : Opened c.sent mid (low :: rest)) (openedPeer : Opened c.sent low rest) :
      Phase P c (top :: mid :: low :: rest)

/-- An envelope of epoch `e`: its header, and the message key its payload is sealed under. -/
structure Sealed (P : CryptoProvider) (sid : Block 16) (id : Side → Block 16) (e : Epoch)
    (msg : Sent) : Prop where
  owner : msg.sender = e.owner
  pub : msg.chain = e.pub
  prev : msg.previous = e.prev
  number : msg.number.toNat + 1 < 2 ^ 32
  bucket : msg.envelope.length ∈ allowedBuckets
  payload : ∃ k header ct, e.chain = some k ∧
    Envelope.parse msg.envelope = .ok ⟨header, .regular ⟨sid, e.pub, e.prev, msg.number⟩, ct⟩ ∧
    SealedUnder P (id msg.sender.peer) header (messageKeyAt P k msg.number.toNat) msg.inner ct

/-- A skipped key of epoch `e`. -/
def KeyOf (P : CryptoProvider) (e : Epoch) (key : SkippedKey) : Prop :=
  key.ratchetPublic = e.pub ∧ ∃ k, e.chain = some k ∧
    key.messageKey = messageKeyAt P k key.messageNumber.toNat

structure Identifies (sid : Block 16) (id : Side → Block 16) (side : Side) (s : RatchetState) :
    Prop where
  session : s.sessionId = sid
  localId : s.localDeviceId = id side
  remoteId : s.remoteDeviceId = id side.peer

/-- The two ends agree on the session, its epochs and where they stand in them. -/
structure Sync (P : CryptoProvider) (sid : Block 16) (id : Side → Block 16) (c : Conv)
    (eps : List Epoch) : Prop where
  session_ne : isZero sid.bytes = false
  ids : ∀ s, Identifies sid id s (c.state s)
  keys : ∀ e ∈ eps, P.x25519Public e.secret = .ok e.pub
  publics : c.publics = eps.map (·.pub)
  nodup : (eps.map (·.pub)).Nodup
  linked : eps.IsChain (Epoch.Follows P)
  msgs : ∀ msg ∈ c.sent, ∃ e ∈ eps, Sealed P sid id e msg
  distinct : (c.sent.map fun msg => (msg.chain, msg.number)).Nodup
  sound : ∀ s, ∀ key ∈ (c.state s).skipped, ∃ e ∈ eps, KeyOf P e key
  complete : ∀ msg ∈ c.sent, msg.delivered = false →
    msg.chain = (c.state msg.sender.peer).remoteRatchetPublic →
    msg.number < (c.state msg.sender.peer).receiveCount →
    ∃ key ∈ (c.state msg.sender.peer).skipped, key.ratchetPublic = msg.chain ∧
      key.messageNumber = msg.number
  phase : Phase P c eps

/-- The epochs after one end went from `s` to `s'`: as before, or with one more, derived from the
newest with an input `kdf_root` got in that step. -/
inductive Grows (P : CryptoProvider) (s s' : RatchetState) : List Epoch → List Epoch → Prop
  | same (eps : List Epoch) : Grows P s s' eps eps
  | next {new top : Epoch} {rest : List Epoch} {dh : Key}
      (input : (top.root, dh) ∈ rootInputs P s s') (root : new.root = nextRoot P top.root dh)
      (chain : new.chain = some (chainStart P top.root dh)) :
      Grows P s s' (top :: rest) (new :: top :: rest)

/-! ## The start -/

variable {P : CryptoProvider}

theorem sync_start (hP : Correct P) (h : HonestSetup P) :
    ∃ sid id e1 e0 k, Sync P sid id h.start [e1, e0] ∧ e0.chain = none ∧ e1.chain = some k ∧
      e1.root = h.session.rootKey ∧ h.session.sendingChain = some (nextChainOf P k) := by
  obtain ⟨keys, shared, dh, transcript, wins, spk, hpub, hspk, hdh, hsid, hs, hpeer, header, hhs, hhr,
    hacc⟩ := h.states hP
  have hne := h.freshRatchet
  rw [hs] at hne
  let e0 : Epoch := ⟨.responder, spk.secretKey, spk.publicKey, shared, none, 0⟩
  let e1 : Epoch := ⟨.initiator, keys.ratchetSecret, keys.ratchetPublic, nextRoot P shared dh,
    some (chainStart P shared dh), 0⟩
  have ha : h.start.state .initiator = h.session := rfl
  have hb : h.start.state .responder = h.accepted.session := rfl
  refine ⟨keys.sessionId, Side.rec h.senderId h.recipientId, e1, e0,
    chainStart P shared dh, ?_, rfl, rfl, by rw [hs]; rfl, by rw [hs]; rfl⟩
  refine ⟨hsid, ?_, ?_, ?_, ?_, ?_, fun _ hm => absurd hm not_mem_nil, List.nodup_nil, ?_,
    fun _ hm => absurd hm not_mem_nil, ?_⟩
  · rintro (_ | _)
    · rw [ha, hs]; exact ⟨rfl, rfl, rfl⟩
    · rw [hb, hacc]; exact ⟨hhs, rfl, rfl⟩
  · simpa [e0, e1] using ⟨hpub, hspk⟩
  · simp only [HonestSetup.start, hs, e0, e1, initiatedSession, hpeer, List.map_cons, List.map_nil]
  · simpa [e0, e1, initiatedSession, hpeer] using hne
  · exact .cons_cons ⟨rfl, dh, hdh, rfl, rfl⟩ (.singleton _)
  · rintro (_ | _) key hk
    · rw [ha, hs] at hk; cases hk
    · rw [hb, hacc] at hk; cases hk
  · refine .first rfl rfl ?_ (fun _ hm => absurd hm not_mem_nil) ?_
      (fun _ hm => absurd hm not_mem_nil) ?_ ?_ ?_ ?_ ?_ ?_
    · rw [ha, hs]; exact ⟨rfl, rfl, rfl, rfl, _, rfl, rfl⟩
    · rw [ha, hs]; exact ⟨hpeer, rfl, le_refl _, fun _ => rfl⟩
    · rw [hb, hacc]; rfl
    · rw [hb, hacc]; rfl
    · rw [hb, hacc]; rfl
    · rw [hb, hacc]; rfl
    · rw [hb, hacc]; rfl
    · rw [hb, hacc, ha, hs]; exact ⟨hhr, rfl, le_refl _, by rintro ⟨⟩⟩

variable {e : Epoch}

/-! ## Small facts -/

variable {sent : List Sent} {msg : Sent}

theorem Below.snoc {n : Nat} (h : Below sent e n)
    (hn : msg.number.toNat = n) : Below (sent ++ [msg]) e (n + 1) := by
  intro m hm hp
  rcases mem_append.mp hm with hm | hm
  · exact Nat.lt_succ_of_lt (h m hm hp)
  · cases mem_singleton.mp hm; omega

theorem Below.snoc_ne {n : Nat} (h : Below sent e n)
    (hne : msg.chain ≠ e.pub) : Below (sent ++ [msg]) e n := by
  intro m hm hp
  rcases mem_append.mp hm with hm | hm
  · exact h m hm hp
  · cases mem_singleton.mp hm; exact absurd hp hne

variable {older : List Epoch}

theorem Opened.mono {sent sent' : List Sent}
    (h : Opened sent e older) (hs : ∀ msg ∈ sent, msg.delivered = true → msg ∈ sent') :
    Opened sent' e older := by
  intro ho
  obtain ⟨msg, hm, hd, hrest⟩ := h ho
  exact ⟨msg, hs msg hm hd, hd, hrest⟩

variable {s : RatchetState} {m : UInt32}

theorem Opened.snoc (h : Opened sent e older) (msg : Sent) : Opened (sent ++ [msg]) e older :=
  h.mono fun _ hm _ => List.mem_append_left _ hm

theorem Sends.bump (h : Sends P s e) {k : Key}
    (hk : s.sendingChain = some k) (hm : m.toNat = s.sendCount.toNat + 1) :
    Sends P { s with sendingChain := some (nextChainOf P k), sendCount := m } e := by
  refine ⟨h.secret, h.pub, h.root, h.prev, ?_⟩
  obtain ⟨k0, hk0, hs⟩ := h.chain
  rw [hk] at hs; cases hs
  exact ⟨k0, hk0, by simp only [hm, advance_succ]⟩

theorem Receives.mono {n m : Nat}
    (h : Receives P s e n) (hnm : n ≤ m) (hc : e.chain ≠ none) : Receives P s e m :=
  ⟨h.remote, h.chain, h.count.trans hnm, fun hn => absurd hn hc⟩

theorem Sends.chain_ne (h : Sends P s e) : e.chain ≠ none := by
  obtain ⟨k, hk, -⟩ := h.chain
  simp [hk]

theorem nodup_map_snoc {α β : Type} {f : α → β} {l : List α} {a : α} (h : (l.map f).Nodup)
    (ha : ∀ b ∈ l, f b ≠ f a) : ((l ++ [a]).map f).Nodup := by
  rw [List.map_append, List.nodup_append_comm]
  refine nodup_cons.mpr ⟨fun hm => ?_, h⟩
  obtain ⟨b, hb, heq⟩ := List.mem_map.mp hm
  exact ha b hb heq

/-! ## Sealing -/

section Send

variable {P : CryptoProvider} {sid : Block 16} {id : Side → Block 16} {c : Conv}
  {eps : List Epoch} {side : Side} {inner : Bytes} {t : EncryptedTransition}

theorem Phase.sender (h : Phase P c eps) (hl : eps.IsChain (Epoch.Follows P))
    (hc : (c.state side).sendingChain ≠ none) :
    ∃ e ∈ eps, e.owner = side ∧ Sends P (c.state side) e ∧
      Below c.sent e (c.state side).sendCount.toNat := by
  cases h with
  | first owner base sends below idle belowBase secret pub root silent count receives =>
    cases side with
    | initiator => exact ⟨_, mem_cons_self, owner, sends, below⟩
    | responder => exact absurd silent hc
  | later owner sends below receives sendsPeer belowMid receivesPeer belowLow opened openedPeer =>
    rename_i x top mid low rest
    rcases side.eq_or_eq_peer x with rfl | rfl
    · exact ⟨top, mem_cons_self, owner, sends, below⟩
    · have hmid := (List.isChain_cons_cons.mp hl).1.owner
      exact ⟨mid, by simp, by rw [← owner, hmid, Side.peer_peer], sendsPeer, belowMid⟩

variable {k : Key}

theorem Phase.send (h : Phase P c eps) (hn : (eps.map (·.pub)).Nodup)
    (hk : (c.state side).sendingChain = some k) (hm : m.toNat = (c.state side).sendCount.toNat + 1)
    (ht : t.state = { c.state side with sendingChain := some (nextChainOf P k), sendCount := m })
    (hnum : (m - 1).toNat = (c.state side).sendCount.toNat) :
    Phase P (c.afterSend side inner t) eps := by
  have hpub : t.state.localRatchetPublic = (c.state side).localRatchetPublic := by rw [ht]
  have hcount : t.state.sendCount.toNat = (c.state side).sendCount.toNat + 1 := by rw [ht]; exact hm
  have hs : ∀ s e, Sends P (c.state s) e → Sends P ((c.afterSend side inner t).state s) e :=
    Conv.put_forall (Q := fun s st => ∀ e, Sends P (c.state s) e → Sends P st e) (fun _ _ h => h)
      fun e h => ht ▸ h.bump hk hm
  have hr : ∀ s e n, Receives P (c.state s) e n →
      Receives P ((c.afterSend side inner t).state s) e n :=
    Conv.put_forall (Q := fun s st => ∀ e n, Receives P (c.state s) e n → Receives P st e n)
      (fun _ _ _ h => h) fun e n h => ht ▸ ⟨h.remote, h.chain, h.count, h.idle⟩
  have hle : ∀ s, (c.state s).sendCount.toNat ≤
      ((c.afterSend side inner t).state s).sendCount.toNat :=
    Conv.put_forall (Q := fun s st => (c.state s).sendCount.toNat ≤ st.sendCount.toNat)
      (fun _ => le_rfl) (by omega)
  have hb : ∀ s e, (s = side.peer → (c.state side).localRatchetPublic ≠ e.pub) →
      Below c.sent e (c.state s).sendCount.toNat → Below (c.afterSend side inner t).sent e
        ((c.afterSend side inner t).state s).sendCount.toNat := by
    intro s e hne h
    rcases s.eq_or_eq_peer side with rfl | rfl
    · simp only [Conv.afterSend_state, Conv.put_self]
      rw [hcount]
      exact h.snoc (by rw [ht]; exact hnum)
    · simp only [Conv.afterSend_state, Conv.put_peer]
      exact h.snoc_ne (hpub ▸ hne rfl)
  cases h with
  | first owner base sends below idle belowBase secret pub root silent count receives =>
    cases side with
    | responder => rw [silent] at hk; cases hk
    | initiator =>
      refine .first owner base (hs _ _ sends) (hb _ _ (by simp [Side.peer]) below) (hr _ _ _ idle)
        (belowBase.snoc_ne ?_) secret pub root silent count
        ((hr _ _ _ receives).mono (hle _) sends.chain_ne)
      rw [hpub, sends.pub]
      simpa using hn
  | later owner sends below receives sendsPeer belowMid receivesPeer belowLow opened openedPeer =>
    rename_i x top mid low rest
    obtain ⟨⟨htm, htl, -⟩, ⟨hml, -⟩, -⟩ : (top.pub ≠ mid.pub ∧ top.pub ≠ low.pub ∧ _) ∧
        (mid.pub ≠ low.pub ∧ _) ∧ _ := by
      simpa [nodup_cons, not_or] using hn
    refine .later owner (hs _ _ sends) (hb _ _ ?_ below)
      ((hr _ _ _ receives).mono (hle _) sendsPeer.chain_ne) (hs _ _ sendsPeer) (hb _ _ ?_ belowMid)
      (hr _ _ _ receivesPeer) (belowLow.snoc_ne ?_) (opened.snoc _) (openedPeer.snoc _)
    · rintro rfl
      rw [Side.peer_peer] at sendsPeer
      exact sendsPeer.pub ▸ htm.symm
    · intro hx
      obtain rfl : x = side := by simpa using congrArg Side.peer hx
      exact sends.pub ▸ htm
    · rw [hpub]
      rcases side.eq_or_eq_peer x with rfl | rfl
      · exact sends.pub ▸ htl
      · exact sendsPeer.pub ▸ hml

theorem Phase.matched (h : Phase P c eps) (hn : (eps.map (·.pub)).Nodup)
    (hc : (c.state side).sendingChain ≠ none)
    (hr : (c.state side.peer).remoteRatchetPublic = (c.state side).localRatchetPublic) :
    ∃ e ∈ eps, Sends P (c.state side) e ∧
      Receives P (c.state side.peer) e (c.state side).sendCount.toNat := by
  cases h with
  | first owner base sends below idle belowBase secret pub root silent count receives =>
    cases side with
    | initiator => exact ⟨_, mem_cons_self, sends, receives⟩
    | responder => exact absurd silent hc
  | later owner sends below receives sendsPeer belowMid receivesPeer belowLow opened openedPeer =>
    rename_i x top mid low rest
    rcases side.eq_or_eq_peer x with rfl | rfl
    · -- the newest key is not the one its peer still receives on
      rw [receivesPeer.remote, sends.pub] at hr
      simp [hr] at hn
    · rw [Side.peer_peer] at hr ⊢
      exact ⟨mid, by simp, sendsPeer, receives⟩

theorem sealed_of_encrypt
    {tape envelope : Bytes} (hz : isZero sid.bytes = false) (hs : s.sessionId = sid)
    (howner : e.owner = side) (hpub : s.localRatchetPublic = e.pub)
    (hprev : s.previousSendCount = e.prev) (hk : e.chain = some k)
    (hm : m.toNat = s.sendCount.toNat + 1)
    (henc : encryptEnvelope P (id side.peer) (regularHeaderBytes s)
      (messageKeyAt P k s.sendCount.toNat) inner tape = .ok envelope) :
    Sealed P sid id e ⟨side, e.pub, e.prev, m - 1, inner, envelope, false⟩ := by
  have hparse := parse_regularHeader
    ⟨s.sessionId, s.localRatchetPublic, s.previousSendCount, s.sendCount⟩ (hs ▸ hz)
  obtain ⟨ct, hp, hsu, hb⟩ := encryptEnvelope_parse henc
    (by simp [regularHeaderBytes, RegularHeader.encode]) hparse
  rw [hs, hpub, hprev] at hp
  have hlt := m.toNat_lt
  rw [sub_one_of_succ hm]
  exact ⟨howner.symm, rfl, rfl, hm ▸ hlt, hb, k, _, ct, hk, hp, hsu⟩

theorem Sync.unique (h : Sync P sid id c eps) {e e' : Epoch} (he : e ∈ eps) (he' : e' ∈ eps)
    (hp : e.pub = e'.pub) : e = e' := List.inj_on_of_nodup_map h.nodup he he' hp

theorem Sync.pub_mem (h : Sync P sid id c eps) {msg : Sent} (hm : msg ∈ c.sent) :
    msg.chain ∈ c.publics := by
  obtain ⟨e, he, hs⟩ := h.msgs msg hm
  rw [h.publics, hs.pub]
  exact List.mem_map_of_mem he

variable {tape : Bytes} (h : Sync P sid id c eps)
include h

theorem Sync.sendOn
    (hk : (c.state side).sendingChain = some k) (hm : m.toNat = (c.state side).sendCount.toNat + 1)
    (henc : encryptEnvelope P (id side.peer) (regularHeaderBytes (c.state side)) (messageKeyOf P k)
      inner tape = .ok t.envelope)
    (ht : t.state = { c.state side with sendingChain := some (nextChainOf P k), sendCount := m }) :
    Sync P sid id (c.afterSend side inner t) eps := by
  have hsome : (c.state side).sendingChain ≠ none := by simp [hk]
  obtain ⟨e, he, howner, hsends, hbelow⟩ := h.phase.sender h.linked hsome
  obtain ⟨k0, hk0, hkk⟩ := hsends.chain
  rw [hk] at hkk; cases hkk
  have hsealed := sealed_of_encrypt h.session_ne
    (h.ids side).session howner hsends.pub hsends.prev hk0 hm
    henc
  have hsame : ∀ s, ((c.put side t.state).state s).remoteRatchetPublic =
      (c.state s).remoteRatchetPublic ∧ ((c.put side t.state).state s).receiveCount =
      (c.state s).receiveCount ∧ ((c.put side t.state).state s).skipped = (c.state s).skipped := by
    intro s
    refine Conv.put_forall (Q := fun s st => st.remoteRatchetPublic =
      (c.state s).remoteRatchetPublic ∧ st.receiveCount = (c.state s).receiveCount ∧
      st.skipped = (c.state s).skipped) (fun _ => ⟨rfl, rfl, rfl⟩) ?_ s
    rw [ht]; exact ⟨rfl, rfl, rfl⟩
  have hpub : t.state.localRatchetPublic = e.pub := by rw [ht]; exact hsends.pub
  have hprev : t.state.previousSendCount = e.prev := by rw [ht]; exact hsends.prev
  have hmsg : (⟨side, t.state.localRatchetPublic, t.state.previousSendCount, t.state.sendCount - 1,
      inner, t.envelope, false⟩ : Sent) = ⟨side, e.pub, e.prev, m - 1, inner, t.envelope, false⟩ := by
    rw [hpub, hprev, ht]
  refine ⟨h.session_ne, ?_, h.keys, ?_, h.nodup, h.linked, ?_, ?_, ?_, ?_,
    h.phase.send h.nodup hk hm ht (by rw [sub_one_of_succ hm])⟩
  · refine Conv.put_forall (Q := Identifies sid id) h.ids ?_
    rw [ht]; exact ⟨(h.ids side).session, (h.ids side).localId, (h.ids side).remoteId⟩
  · exact (if_pos (hpub.trans hsends.pub.symm)).trans h.publics
  · intro msg hmem
    rcases mem_append.mp hmem with hmem | hmem
    · exact h.msgs msg hmem
    · rw [mem_singleton.mp hmem, hmsg]; exact ⟨e, he, hsealed⟩
  · refine nodup_map_snoc h.distinct fun msg hmem heq => ?_
    rw [hmsg, Prod.mk.injEq, sub_one_of_succ hm] at heq
    exact absurd (hbelow msg hmem heq.1) (by rw [heq.2]; exact lt_irrefl _)
  · intro s key hkey
    rw [Conv.afterSend_state, (hsame s).2.2] at hkey
    exact h.sound s key hkey
  · intro msg hmem hd hchain hlt
    simp only [Conv.afterSend_state, hsame] at hchain hlt ⊢
    rcases mem_append.mp hmem with hmem | hmem
    · exact h.complete msg hmem hd hchain hlt
    · -- the new envelope is not behind the receiver's counter
      rw [mem_singleton.mp hmem, hmsg] at hchain hlt
      obtain ⟨e', -, -, hr⟩ := h.phase.matched h.nodup hsome (hchain.symm.trans hsends.pub.symm)
      rw [sub_one_of_succ hm] at hlt
      exact absurd hlt (Nat.not_lt.mpr hr.count)

theorem Sync.sendFirst {secret pub dh : Key}
    (hnone : (c.state side).sendingChain = none) (hsecret : P.x25519Public secret = .ok pub)
    (hdh : P.x25519Shared secret (c.state side).remoteRatchetPublic = .ok dh)
    (hfresh : pub ∉ c.publics) (hm : m.toNat = 1)
    (henc : encryptEnvelope P (id side.peer)
      (regularHeaderBytes ((c.state side).withSendingKey P secret pub dh))
      (messageKeyOf P (chainStart P (c.state side).rootKey dh)) inner tape = .ok t.envelope)
    (ht : t.state = { (c.state side).withSendingKey P secret pub dh with
      sendingChain := some (nextChainOf P (chainStart P (c.state side).rootKey dh))
      sendCount := m }) :
    ∃ eps', Sync P sid id (c.afterSend side inner t) eps' ∧
      Grows P (c.state side) t.state eps eps' := by
  have hphase := h.phase
  cases hphase with
  | later owner sends below receives sendsPeer =>
    rename_i x top mid low rest _ _ _ _ _
    rcases side.eq_or_eq_peer x with rfl | rfl
    · obtain ⟨_, -, hs⟩ := sends.chain; rw [hnone] at hs; cases hs
    · obtain ⟨_, -, hs⟩ := sendsPeer.chain; rw [hnone] at hs; cases hs
  | first owner base sends below idle belowBase hsec hpub root silent count receives =>
    rename_i e1 e0
    cases side with
    | initiator => obtain ⟨_, -, hs⟩ := sends.chain; rw [hnone] at hs; cases hs
    | responder =>
      rw [receives.remote] at hdh
      rw [root] at henc ht
      let e2 : Epoch := ⟨.responder, secret, pub, nextRoot P e1.root dh,
        some (chainStart P e1.root dh), 0⟩
      have hb : (c.afterSend .responder inner t).state .responder = t.state := rfl
      have hsealed : Sealed P sid id e2 ⟨.responder, pub, 0, m - 1, inner, t.envelope, false⟩ :=
        sealed_of_encrypt (s := (c.state .responder).withSendingKey P secret pub dh) h.session_ne
          (h.ids .responder).session rfl rfl count rfl hm henc
      have hpubne : ∀ e ∈ [e1, e0], pub ≠ e.pub := by
        intro e he heq
        exact hfresh (h.publics ▸ heq ▸ List.mem_map_of_mem he)
      have hold : ∀ msg ∈ c.sent, msg.chain ≠ pub :=
        fun msg hmem heq => hfresh (heq ▸ h.pub_mem hmem)
      have hprev : t.state.previousSendCount = 0 := by rw [ht]; exact count
      have hmsg : (⟨.responder, t.state.localRatchetPublic, t.state.previousSendCount,
          t.state.sendCount - 1, inner, t.envelope, false⟩ : Sent) =
          ⟨.responder, pub, 0, m - 1, inner, t.envelope, false⟩ := by rw [hprev, ht]; rfl
      have hgrows : Grows P (c.state .responder) t.state [e1, e0] [e2, e1, e0] := by
        have hin : rootInputs P (c.state .responder) t.state = [((c.state .responder).rootKey, dh)] :=
          rootInputs_started (by rw [ht]; rfl) hnone (by rw [ht]; rfl)
            (by rw [ht, receives.remote]; exact hdh)
        exact .next (by rw [hin, root]; exact mem_cons_self) rfl rfl
      refine ⟨[e2, e1, e0], ⟨h.session_ne, ?_, ?_, ?_, ?_, ?_, ?_, ?_, ?_, ?_, ?_⟩, hgrows⟩
      · refine Conv.put_forall (Q := Identifies sid id) h.ids ?_
        have hid := h.ids .responder
        rw [ht]; exact ⟨hid.session, hid.localId, hid.remoteId⟩
      · intro e he
        rcases List.mem_cons.mp he with rfl | he
        · exact hsecret
        · exact h.keys e he
      · have hne : t.state.localRatchetPublic ≠ (c.state .responder).localRatchetPublic := by
          rw [ht, hpub]; exact hpubne e0 (by simp)
        exact (if_neg hne).trans (by rw [ht, h.publics]; rfl)
      · exact nodup_cons.mpr ⟨h.publics ▸ hfresh, h.nodup⟩
      · exact .cons_cons ⟨by rw [owner]; rfl, dh, hdh, rfl, rfl⟩ h.linked
      · intro msg hmem
        rcases mem_append.mp hmem with hmem | hmem
        · exact List.exists_mem_cons_of_exists (h.msgs msg hmem)
        · rw [mem_singleton.mp hmem, hmsg]; exact ⟨e2, mem_cons_self, hsealed⟩
      · refine nodup_map_snoc h.distinct fun msg hmem heq => ?_
        rw [hmsg, Prod.mk.injEq] at heq
        exact hold msg hmem heq.1
      · intro s key hkey
        have hkey' : key ∈ (c.state s).skipped := by
          cases s with
          | initiator => exact hkey
          | responder => rw [hb, ht] at hkey; exact hkey
        exact List.exists_mem_cons_of_exists (h.sound s key hkey')
      · intro msg hmem hd hchain hlt
        rcases mem_append.mp hmem with hmem | hmem
        · cases hsender : msg.sender with
          | initiator =>
            have := h.complete msg hmem hd
            simp only [hsender, Side.peer] at this hchain hlt ⊢
            rw [hb, ht] at hchain hlt ⊢
            exact this hchain hlt
          | responder =>
            have := h.complete msg hmem hd
            simp only [hsender, Side.peer] at this hchain hlt ⊢
            exact this hchain hlt
        · rw [mem_singleton.mp hmem, hmsg] at hchain
          exact absurd (hchain.trans idle.remote) (hpubne e0 (by simp))
      · have hsent : (c.afterSend .responder inner t).sent = c.sent ++ [_] := rfl
        have hcount : t.state.sendCount.toNat = 0 + 1 := by rw [ht]; exact hm
        refine .later (x := .responder) rfl ?_ ?_ ?_ sends ?_ idle ?_ ?_ (fun ho => ?_)
        · rw [hb, ht]
          exact ⟨rfl, rfl, congrArg (nextRoot P · dh) root, count, _, rfl, by simp [hm, advance_succ]⟩
        · rw [hb, hsent, hcount, hmsg]
          exact Below.snoc (fun msg hmem heq => absurd heq (hold msg hmem)) (by
            rw [sub_one_of_succ (n := 0) hm]; rfl)
        · rw [hb, ht]
          exact ⟨receives.remote, receives.chain, receives.count, receives.idle⟩
        · rw [hsent, hmsg]; exact below.snoc_ne (hpubne e1 (by simp))
        · rw [hsent, hmsg]
          exact belowBase.snoc_ne (hpubne e0 (by simp))
        · rintro ⟨e, he, -, hsome⟩
          simp only [mem_singleton] at he
          rw [he, base] at hsome; cases hsome
        · obtain ⟨e, he, -⟩ := ho
          cases he

theorem Sync.send {other : UInt32} {e : Bytes}
    (hfresh : (c.state side).sendingChain = none → c.Fresh P e)
    (ht : ratchetEncrypt P (c.state side) (c.state side).remoteDeviceId inner other e = .ok t) :
    ∃ eps', Sync P sid id (c.afterSend side inner t) eps' ∧
      Grows P (c.state side) t.state eps eps' := by
  obtain ⟨-, -, s1, rest, k, m, hs, hk, henc, hm, hstate⟩ := ratchetEncrypt_inv ht
  rw [(h.ids side).remoteId] at henc
  rcases startSendingChain_cases hs with ⟨-, rfl, rfl⟩ | ⟨hnone, h32, pub, dh, hp, hd, rfl, -⟩
  · exact ⟨eps, h.sendOn hk hm henc hstate, .same eps⟩
  · cases hk
    exact h.sendFirst hnone hp hd (hfresh hnone h32 pub hp) hm henc hstate

end Send

end CommPlatform.L3
