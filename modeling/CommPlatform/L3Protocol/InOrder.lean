import CommPlatform.L3Protocol.Reordering

/-!
# Envelopes in order

Each end opens the other's envelopes once and in the order they were
sealed; the two directions interleave freely. The unopened envelopes of one
end are then exactly the rest of the chain the other end receives on,
followed by the chain the sender is on now, and no key is ever skipped.

* `inOrder_send`, `inOrder_open`, `inOrder_tokens`: one lemma for each thing
  an end does.
-/
namespace CommPlatform.L3

open CommPlatform.Core L1 L2

/-! ## What is on its way -/

/-- The unopened envelopes of one end, oldest first. -/
def Conv.pending (c : Conv) (x : Side) : List Sent :=
  c.sent.filter fun m => m.sender = x ∧ m.delivered = false

/-- The oldest unopened envelope of its sender. -/
def Conv.IsNext (c : Conv) (msg : Sent) : Prop := (c.pending msg.sender).head? = some msg

/-- Where an envelope stands: its chain and its number there. -/
def Sent.place (m : Sent) : Key × Nat := (m.chain, m.number.toNat)

/-- The places from `m` up to `n` on one chain. -/
def places (chain : Key) (m n : Nat) : List (Key × Nat) :=
  (List.range' m (n - m)).map (chain, ·)

/-- The places of a sender at `s` that a receiver at `r` has not reached. -/
def placesAhead (s r : RatchetState) : List (Key × Nat) :=
  if s.localRatchetPublic = r.remoteRatchetPublic then
    places r.remoteRatchetPublic r.receiveCount.toNat s.sendCount.toNat
  else
    places r.remoteRatchetPublic r.receiveCount.toNat s.previousSendCount.toNat ++
      places s.localRatchetPublic 0 s.sendCount.toNat

/-- The direction from `x` to its peer: nothing skipped, and everything sealed and not opened lies
ahead, in order. -/
structure Flow (c : Conv) (x : Side) : Prop where
  noSkip : (c.state x.peer).skipped = []
  queue : (c.pending x).map Sent.place = placesAhead (c.state x) (c.state x.peer)

/-- The two ends agree, and both directions are in order. -/
structure InOrder (P : CryptoProvider) (sid : Block 16) (id : Side → Block 16) (c : Conv)
    (eps : List Epoch) : Prop where
  sync : Sync P sid id c eps
  flow : ∀ x, Flow c x

section Lists

variable {chain : Key} {m n : Nat}

theorem places_snoc (h : m ≤ n) : places chain m (n + 1) = places chain m n ++ [(chain, n)] := by
  have hsub : n + 1 - m = (n - m) + 1 := by omega
  have hadd : m + (n - m) = n := by omega
  rw [places, hsub, List.range'_concat, List.map_append, Nat.one_mul, hadd]
  rfl

theorem places_self : places chain n n = [] := by simp [places]

theorem places_of_lt (h : m < n) : places chain m n = (chain, m) :: places chain (m + 1) n := by
  have hsub : n - m = (n - (m + 1)) + 1 := by omega
  rw [places, places, hsub, List.range'_succ, List.map_cons]

theorem places_eq_cons {p : Key × Nat} {l : List (Key × Nat)} (h : places chain m n = p :: l) :
    p = (chain, m) ∧ m < n ∧ l = places chain (m + 1) n := by
  by_cases hlt : m < n
  · rw [places_of_lt hlt] at h
    cases h
    exact ⟨rfl, hlt, rfl⟩
  · have hsub : n - m = 0 := by omega
    simp [places, hsub] at h

variable {s r : RatchetState}

theorem placesAhead_level (h : s.localRatchetPublic = r.remoteRatchetPublic) : placesAhead s r =
    places r.remoteRatchetPublic r.receiveCount.toNat s.sendCount.toNat := if_pos h

theorem placesAhead_ahead (h : s.localRatchetPublic ≠ r.remoteRatchetPublic) : placesAhead s r =
    places r.remoteRatchetPublic r.receiveCount.toNat s.previousSendCount.toNat ++
      places s.localRatchetPublic 0 s.sendCount.toNat := if_neg h

end Lists

/-! ## Where the ends stand -/

section Standing

variable {P : CryptoProvider} {sid : Block 16} {id : Side → Block 16} {c : Conv} {eps : List Epoch}

/-- A sender seals on the chain its peer receives on, or is one key ahead of it. -/
inductive Standing (c : Conv) (eps : List Epoch) (x : Side) : Prop
  | level (pub : (c.state x).localRatchetPublic = (c.state x.peer).remoteRatchetPublic)
      (count : (c.state x.peer).receiveCount.toNat ≤ (c.state x).sendCount.toNat)
  | ahead {top : Epoch} {rest : List Epoch} (newest : eps = top :: rest)
      (pub : (c.state x).localRatchetPublic = top.pub)
      (ne : (c.state x).localRatchetPublic ≠ (c.state x.peer).remoteRatchetPublic)
      (prev : (c.state x).previousSendCount = top.prev)
      (count : (c.state x.peer).receiveCount.toNat ≤ (c.state x).previousSendCount.toNat)
      (back : (c.state x.peer).localRatchetPublic = (c.state x).remoteRatchetPublic)
      (chain : (c.state x).sendingChain ≠ none)

theorem Sync.standing (h : Sync P sid id c eps) (x : Side) : Standing c eps x := by
  have hn := h.nodup
  have hphase := h.phase
  cases hphase with
  | first owner base sends below idle belowBase secret pub root silent count receives =>
    cases x with
    | initiator => exact .level (sends.pub.trans receives.remote.symm) receives.count
    | responder =>
      refine .level (pub.trans idle.remote.symm) ?_
      exact Nat.le_trans idle.count (Nat.zero_le _)
  | later owner sends below receives sendsPeer belowMid receivesPeer belowLow opened openedPeer =>
    rename_i y top mid low rest
    rcases x.eq_or_eq_peer y with rfl | rfl
    · refine .ahead rfl sends.pub ?_ sends.prev ?_ (sendsPeer.pub.trans receives.remote.symm) ?_
      · rw [sends.pub, receivesPeer.remote]
        intro heq
        simp [heq] at hn
      · rw [sends.prev]
        exact receivesPeer.count
      · obtain ⟨k, -, hk⟩ := sends.chain
        simp [hk]
    · refine .level ?_ ?_
      · rw [Side.peer_peer]
        exact sendsPeer.pub.trans receives.remote.symm
      · rw [Side.peer_peer]
        exact receives.count

theorem Sync.silent (h : Sync P sid id c eps) {x : Side} (hc : (c.state x).sendingChain = none) :
    (c.state x).sendCount = 0 ∧ (c.state x.peer).receiveCount = 0 ∧
      (c.state x).localRatchetPublic = (c.state x.peer).remoteRatchetPublic := by
  have hphase := h.phase
  cases hphase with
  | first owner base sends below idle belowBase secret pub root silent count receives =>
    cases x with
    | initiator =>
      obtain ⟨k, -, hk⟩ := sends.chain
      simp [hk] at hc
    | responder =>
      exact ⟨count, UInt32.toNat_inj.mp (Nat.le_zero.mp idle.count), pub.trans idle.remote.symm⟩
  | later owner sends below receives sendsPeer belowMid receivesPeer belowLow opened openedPeer =>
    rename_i y top mid low rest
    rcases x.eq_or_eq_peer y with rfl | rfl
    · obtain ⟨k, -, hk⟩ := sends.chain
      simp [hk] at hc
    · obtain ⟨k, -, hk⟩ := sendsPeer.chain
      simp [hk] at hc

end Standing

/-! ## Sealing -/

section Send

variable {P : CryptoProvider} {sid : Block 16} {id : Side → Block 16} {c c' : Conv}
  {eps : List Epoch} {side x : Side} {inner e : Bytes} {other : UInt32} {t : EncryptedTransition}

theorem Flow.congr (h : Flow c x) (hp : c'.pending x = c.pending x)
    (hl : (c'.state x).localRatchetPublic = (c.state x).localRatchetPublic)
    (hv : (c'.state x).previousSendCount = (c.state x).previousSendCount)
    (hs : (c'.state x).sendCount = (c.state x).sendCount)
    (hr : (c'.state x.peer).remoteRatchetPublic = (c.state x.peer).remoteRatchetPublic)
    (hc : (c'.state x.peer).receiveCount = (c.state x.peer).receiveCount)
    (hk : (c'.state x.peer).skipped = (c.state x.peer).skipped) : Flow c' x := by
  refine ⟨hk.trans h.noSkip, ?_⟩
  rw [hp, h.queue, placesAhead, placesAhead, hl, hv, hs, hr, hc]

theorem pending_afterSend_self (c : Conv) (side : Side) (inner : Bytes) (t : EncryptedTransition) :
    ∃ m : Sent, (c.afterSend side inner t).pending side = c.pending side ++ [m] ∧
      m.place = (t.state.localRatchetPublic, (t.state.sendCount - 1).toNat) := by
  refine ⟨⟨side, t.state.localRatchetPublic, t.state.previousSendCount, t.state.sendCount - 1, inner,
    t.envelope, false⟩, ?_, rfl⟩
  simp [Conv.pending, Conv.afterSend, List.filter_append]

variable (hfresh : (c.state side).sendingChain = none → c.Fresh P e)
  (ht : ratchetEncrypt P (c.state side) (c.state side).remoteDeviceId inner other e = .ok t)
include hfresh ht

theorem placesAhead_sent (h : Sync P sid id c eps) :
    placesAhead t.state (c.state side.peer) = placesAhead (c.state side) (c.state side.peer) ++
      [(t.state.localRatchetPublic, (t.state.sendCount - 1).toNat)] := by
  obtain ⟨-, -, s1, rest, k, m, hs, hk, -, hm, hstate⟩ := ratchetEncrypt_inv ht
  have hnum := congrArg UInt32.toNat (sub_one_of_succ hm)
  rcases startSendingChain_cases hs with ⟨hsome, rfl, -⟩ | ⟨hnone, h32, pub, dh, hpub, -, rfl, -⟩
  · have hpub : t.state.localRatchetPublic = (c.state side).localRatchetPublic := by rw [hstate]
    have hprev : t.state.previousSendCount = (c.state side).previousSendCount := by rw [hstate]
    have hsend : t.state.sendCount = m := by rw [hstate]
    cases h.standing side with
    | level hlevel hcount =>
      rw [placesAhead_level (hpub.trans hlevel), placesAhead_level hlevel, hsend, hm, hnum,
        places_snoc hcount, hpub, hlevel]
    | ahead _ _ hne =>
      rw [placesAhead_ahead (hpub ▸ hne), placesAhead_ahead hne, hsend, hm, hnum, hprev, hpub,
        places_snoc (Nat.zero_le _), List.append_assoc]
  · -- the first key of its own: the peer has reached nothing of it
    obtain ⟨hzero, hcount, hlevel⟩ := h.silent hnone
    have hmem : (c.state side.peer).remoteRatchetPublic ∈ c.publics := by
      obtain ⟨ep, hep, _, hrec, -⟩ := h.phase.receiver side.peer
      rw [h.publics, hrec.remote]
      exact List.mem_map_of_mem hep
    have hlocal : t.state.localRatchetPublic = pub := by rw [hstate]; rfl
    have hprev : t.state.previousSendCount = (c.state side).sendCount := by rw [hstate]; rfl
    have hsend : t.state.sendCount = m := by rw [hstate]
    have hne : t.state.localRatchetPublic ≠ (c.state side.peer).remoteRatchetPublic := by
      rw [hlocal]
      exact fun heq => hfresh hnone h32 pub hpub (heq ▸ hmem)
    rw [placesAhead_ahead hne, placesAhead_level hlevel, hprev, hsend, hm, hnum, hcount]
    simp [places, RatchetState.withSendingKey]

theorem inOrder_send (h : InOrder P sid id c eps) :
    ∃ eps', InOrder P sid id (c.afterSend side inner t) eps' := by
  obtain ⟨eps', hsync, -⟩ := h.sync.send hfresh ht
  refine ⟨eps', hsync, fun x => ?_⟩
  rcases x.eq_or_eq_peer side with rfl | rfl
  · obtain ⟨m, hpending, hplace⟩ := pending_afterSend_self c x inner t
    refine ⟨?_, ?_⟩
    · simpa using (h.flow x).noSkip
    · rw [hpending, List.map_append, (h.flow x).queue, Conv.afterSend_state, Conv.put_self,
        Conv.put_peer, placesAhead_sent hfresh ht h.sync]
      simp [hplace]
  · -- the other direction: the sender keeps what it expects
    obtain ⟨-, -, s1, rest, k, m, hs, -, -, -, hstate⟩ := ratchetEncrypt_inv ht
    have hkept : t.state.remoteRatchetPublic = (c.state side).remoteRatchetPublic ∧
        t.state.receiveCount = (c.state side).receiveCount ∧
        t.state.skipped = (c.state side).skipped := by
      rw [hstate]
      rcases startSendingChain_cases hs with ⟨-, rfl, -⟩ | ⟨-, _, _, _, -, -, rfl, -⟩ <;>
        exact ⟨rfl, rfl, rfl⟩
    refine (h.flow side.peer).congr (by simp [Conv.pending, Conv.afterSend, List.filter_append])
      ?_ ?_ ?_ ?_ ?_ ?_
    · simp
    · simp
    · simp
    · simpa using hkept.1
    · simpa using hkept.2.1
    · simpa using hkept.2.2

end Send

/-! ## Opening -/

section Open

variable {P : CryptoProvider} {sid : Block 16} {id : Side → Block 16} {c : Conv}
  {eps : List Epoch} {msg : Sent} {before after : List Sent} {e : Bytes} {other : UInt32}
  {t : DecryptedTransition}

theorem pending_afterOpen (h : Sync P sid id c eps) (hsent : c.sent = before ++ msg :: after)
    (hnext : c.IsNext msg) :
    c.pending msg.sender = msg :: (c.afterOpen before msg after t).pending msg.sender := by
  have hdistinct := h.distinct
  simp only [Conv.IsNext, Conv.pending, hsent] at hnext ⊢
  rw [hsent, List.map_append] at hdistinct
  have hnot : msg ∉ before := fun hm =>
    (List.nodup_append.mp hdistinct).2.2 _ (List.mem_map_of_mem hm) _ List.mem_cons_self rfl
  have hnil : before.filter (fun m => m.sender = msg.sender ∧ m.delivered = false) = [] := by
    cases hf : before.filter (fun m => m.sender = msg.sender ∧ m.delivered = false) with
    | nil => rfl
    | cons m l =>
      rw [List.filter_append, hf] at hnext
      cases hnext
      exact absurd (List.mem_of_mem_filter (hf ▸ List.mem_cons_self)) hnot
  have hkept : msg.delivered = false := by
    have hmem := List.mem_of_head? hnext
    simpa using (List.mem_filter.mp hmem).2
  simp only [Conv.afterOpen, List.filter_append, hnil, List.nil_append, List.filter_cons, hkept]
  simp

/-- The next envelope is the one its receiver expects on its chain, or the first of the sender's new
chain when the old one is used up. -/
theorem InOrder.next_place (h : InOrder P sid id c eps) (hnext : c.IsNext msg) :
    (msg.chain = (c.state msg.sender.peer).remoteRatchetPublic ∧
        msg.number = (c.state msg.sender.peer).receiveCount) ∨
      (∃ top rest, eps = top :: rest ∧ msg.chain = top.pub ∧
        msg.chain = (c.state msg.sender).localRatchetPublic ∧
        msg.chain ≠ (c.state msg.sender.peer).remoteRatchetPublic ∧ msg.number = 0 ∧
        msg.previous = (c.state msg.sender.peer).receiveCount ∧
        (c.state msg.sender).previousSendCount = (c.state msg.sender.peer).receiveCount ∧
        (c.state msg.sender.peer).localRatchetPublic = (c.state msg.sender).remoteRatchetPublic) := by
  obtain ⟨l, hl⟩ := List.head?_eq_some_iff.mp hnext
  have hqueue := (h.flow msg.sender).queue
  rw [hl] at hqueue
  have hhead : ∀ {chain : Key} {m : UInt32}, msg.place = (chain, m.toNat) →
      msg.chain = chain ∧ msg.number = m := fun hp =>
    ⟨congrArg Prod.fst hp, UInt32.toNat_inj.mp (congrArg Prod.snd hp)⟩
  cases h.sync.standing msg.sender with
  | level hlevel hcount =>
    rw [placesAhead_level hlevel] at hqueue
    exact .inl (hhead (places_eq_cons hqueue.symm).1)
  | ahead hnewest hpub hne hprev hcount hback =>
    rw [placesAhead_ahead hne] at hqueue
    rcases Nat.lt_or_eq_of_le hcount with hlt | heq
    · rw [places_of_lt hlt] at hqueue
      exact .inl (hhead (List.cons.inj hqueue).1)
    · rw [heq, places_self] at hqueue
      obtain ⟨hchain, hnum⟩ := hhead (m := 0) (places_eq_cons hqueue.symm).1
      have hmem := List.mem_of_mem_filter (hl ▸ List.mem_cons_self : msg ∈ c.pending _)
      obtain ⟨ep, hep, hs⟩ := h.sync.msgs msg hmem
      have hsame := h.sync.unique hep (hnewest ▸ List.mem_cons_self)
        (hs.pub.symm.trans (hchain.trans hpub))
      have hcount' := (UInt32.toNat_inj.mp heq).symm
      exact .inr ⟨_, _, hnewest, hchain.trans hpub, hchain, hchain ▸ hne, hnum,
        (hs.prev.trans (hsame ▸ hprev.symm)).trans hcount', hcount', hback⟩

theorem sortSkipped_nil : sortSkipped [] = [] := rfl

theorem skippedTo_self {s : RatchetState} (hs : s.skipped = []) :
    (s.skippedTo P s.receiveCount).skipped = [] := by
  simp only [RatchetState.skippedTo, hs, Nat.sub_self, List.nil_append]
  cases s.receivingChain with
  | none => rfl
  | some k => simp [passedKeys, sortSkipped_nil]

structure MovedOn (s s' : RatchetState) : Prop where
  sending : SameSending s s'
  remote : s'.remoteRatchetPublic = s.remoteRatchetPublic
  count : s'.receiveCount.toNat = s.receiveCount.toNat + 1
  noSkip : s'.skipped = []

structure Ratcheted (P : CryptoProvider) (s s' : RatchetState) (chain : Key) (e : Bytes) : Prop where
  fresh : ∃ h32, P.x25519Public (Block.ofTake 32 e h32) = .ok s'.localRatchetPublic
  prev : s'.previousSendCount = s.sendCount
  sendCount : s'.sendCount = 0
  remote : s'.remoteRatchetPublic = chain
  count : s'.receiveCount.toNat = 1
  noSkip : s'.skipped = []

variable (h : InOrder P sid id c eps)
include h

theorem InOrder.movedOn (hmem : msg ∈ c.sent)
    (hchain : msg.chain = (c.state msg.sender.peer).remoteRatchetPublic)
    (hnum : msg.number = (c.state msg.sender.peer).receiveCount)
    (ht : c.tryOpen P msg other e = .ok (.prepared t)) :
    MovedOn (c.state msg.sender.peer) t.state := by
  obtain ⟨ep, -, hs⟩ := h.sync.msgs msg hmem
  obtain ⟨k, header, ct, -, hparse, -⟩ := hs.payload
  obtain ⟨token, ⟨hlt, -⟩ | ⟨-, k', m, -, hm, hstate⟩⟩ :=
    opened_current hparse (hs.pub.symm.trans hchain) ht
  · rw [hnum] at hlt
    exact absurd hlt (UInt32.lt_irrefl _)
  · rw [hstate]
    refine ⟨⟨rfl, rfl, rfl, rfl, rfl, rfl⟩, rfl, ?_, ?_⟩
    · change m.toNat = _
      rw [hm, hnum]
    · change (RatchetState.skippedTo P _ msg.number).skipped = []
      rw [hnum]
      exact skippedTo_self (h.flow msg.sender).noSkip

theorem InOrder.ratcheted (hmem : msg ∈ c.sent)
    (hne : msg.chain ≠ (c.state msg.sender.peer).remoteRatchetPublic) (hnum : msg.number = 0)
    (hprev : msg.previous = (c.state msg.sender.peer).receiveCount)
    (ht : c.tryOpen P msg other e = .ok (.prepared t)) :
    Ratcheted P (c.state msg.sender.peer) t.state msg.chain e := by
  obtain ⟨ep, -, hs⟩ := h.sync.msgs msg hmem
  obtain ⟨k, header, ct, -, hparse, -⟩ := hs.payload
  obtain ⟨-, -, dhr, -, h32, pub, dhs, hpub, -, -, m, token, hm, hstate⟩ :=
    opened_newer hparse (hs.pub ▸ hne) ht
  rw [hstate]
  refine ⟨⟨h32, hpub⟩, rfl, rfl, hs.pub.symm, ?_, ?_⟩
  · change m.toNat = 1
    rw [hm, hnum]
    rfl
  · -- the old chain is used up, so closing it skips nothing
    have hclosed : ((c.state msg.sender.peer).skippedTo P ep.prev).skipped = [] := by
      rw [← hs.prev, hprev]
      exact skippedTo_self (h.flow msg.sender).noSkip
    rw [hnum]
    exact skippedTo_self hclosed

theorem Flow.opened (hsent : c.sent = before ++ msg :: after)
    (hnext : c.IsNext msg) (ht : c.tryOpen P msg other e = .ok (.prepared t)) :
    Flow (c.afterOpen before msg after t) msg.sender := by
  have hmem : msg ∈ c.sent := by rw [hsent]; simp
  have hqueue := (h.flow msg.sender).queue
  rw [pending_afterOpen h.sync hsent hnext] at hqueue
  rcases h.next_place hnext with ⟨hchain, hnum⟩ | ⟨top, rest, -, -, hlocal, hne, hnum, hmsg, hprev, -⟩
  · have hmoved := h.movedOn hmem hchain hnum ht
    refine ⟨by simpa using hmoved.noSkip, ?_⟩
    rw [Conv.afterOpen_state, Conv.put_of_peer, Conv.put_self]
    cases h.sync.standing msg.sender with
    | level hlevel hcount =>
      rw [placesAhead_level hlevel] at hqueue
      rw [placesAhead_level (hlevel.trans hmoved.remote.symm), hmoved.remote, hmoved.count]
      exact (places_eq_cons hqueue.symm).2.2
    | ahead _ _ hahead _ hcount =>
      rw [placesAhead_ahead hahead] at hqueue
      rw [placesAhead_ahead (hmoved.remote ▸ hahead), hmoved.remote, hmoved.count]
      rcases Nat.lt_or_eq_of_le hcount with hlt | heq
      · rw [places_of_lt hlt] at hqueue
        exact (List.cons.inj hqueue).2
      · rw [heq, places_self] at hqueue
        have := congrArg Prod.fst (places_eq_cons hqueue.symm).1
        exact absurd (this.symm.trans hchain) hahead
  · have hrat := h.ratcheted hmem hne hnum hmsg ht
    refine ⟨by simpa using hrat.noSkip, ?_⟩
    rw [placesAhead_ahead (hlocal ▸ hne), hprev, places_self] at hqueue
    rw [Conv.afterOpen_state, Conv.put_of_peer, Conv.put_self,
      placesAhead_level (hlocal.symm.trans hrat.remote.symm), hrat.remote, hrat.count, hlocal]
    exact (places_eq_cons hqueue.symm).2.2

/-- The other direction: what the receiver itself has sealed. -/
theorem Flow.opened_peer (hsent : c.sent = before ++ msg :: after) (hnext : c.IsNext msg)
    (hfresh : msg.chain ≠ (c.state msg.sender.peer).remoteRatchetPublic → c.Fresh P e)
    (ht : c.tryOpen P msg other e = .ok (.prepared t)) :
    Flow (c.afterOpen before msg after t) msg.sender.peer := by
  have hmem : msg ∈ c.sent := by rw [hsent]; simp
  have hpending : (c.afterOpen before msg after t).pending msg.sender.peer =
      c.pending msg.sender.peer := by
    simp [Conv.pending, Conv.afterOpen, hsent, List.filter_append]
  rcases h.next_place hnext with ⟨hchain, hnum⟩ | ⟨top, rest, -, -, -, hne, hnum, hmsg, -, hback⟩
  · have hmoved := (h.movedOn hmem hchain hnum ht).sending
    refine (h.flow msg.sender.peer).congr hpending ?_ ?_ ?_ ?_ ?_ ?_
    · simpa using hmoved.pub
    · simpa using hmoved.prev
    · simpa using hmoved.count
    · simp
    · simp
    · simp
  · have hrat := h.ratcheted hmem hne hnum hmsg ht
    have hflow := h.flow msg.sender.peer
    have hqueue := hflow.queue
    rw [Side.peer_peer, placesAhead_level hback] at hqueue
    obtain ⟨h32, hpub⟩ := hrat.fresh
    have hmem' : (c.state msg.sender).remoteRatchetPublic ∈ c.publics := by
      obtain ⟨ep, hep, _, hrec, -⟩ := h.sync.phase.receiver msg.sender
      rw [h.sync.publics, hrec.remote]
      exact List.mem_map_of_mem hep
    have hahead : t.state.localRatchetPublic ≠ (c.state msg.sender).remoteRatchetPublic :=
      fun heq => hfresh hne h32 _ hpub (heq ▸ hmem')
    refine ⟨by simpa using hflow.noSkip, ?_⟩
    rw [hpending, hqueue, Side.peer_peer, Conv.afterOpen_state, Conv.put_self, Conv.put_of_peer,
      placesAhead_ahead hahead, hrat.prev, hrat.sendCount]
    simp [places]

omit h

theorem inOrder_open (hP : Correct P) (h : InOrder P sid id c eps)
    (hsent : c.sent = before ++ msg :: after) (hnext : c.IsNext msg)
    (hfresh : msg.chain ≠ (c.state msg.sender.peer).remoteRatchetPublic → c.Fresh P e)
    (ht : c.tryOpen P msg other e = .ok (.prepared t)) :
    ∃ eps', InOrder P sid id (c.afterOpen before msg after t) eps' := by
  have hcases : msg.chain = (c.state msg.sender.peer).remoteRatchetPublic ∨
      ∃ top rest, eps = top :: rest ∧ msg.chain = top.pub := by
    rcases h.next_place hnext with ⟨hchain, -⟩ | ⟨top, rest, hnewest, htop, -⟩
    · exact .inl hchain
    · exact .inr ⟨top, rest, hnewest, htop⟩
  obtain ⟨eps', hsync, -⟩ := h.sync.open hP hsent hcases hfresh ht
  refine ⟨eps', hsync, fun x => ?_⟩
  rcases x.eq_or_eq_peer msg.sender with rfl | rfl
  · exact .opened h hsent hnext ht
  · exact .opened_peer h hsent hnext hfresh ht

/-- The next envelope is opened to what was sealed: in order nothing is skipped, so no bound is in
the way but the account's own. -/
theorem InOrder.opens (hP : Correct P) (h : InOrder P sid id c eps) (hnext : c.IsNext msg)
    (hother : other.toNat ≤ maxSkippedAccount) (hctl : c.PassesControl msg) (h32 : 32 ≤ e.length) :
    ∃ t, c.tryOpen P msg other e = .ok (.prepared t) ∧ t.inner = msg.inner := by
  have hpend := List.mem_of_head? hnext
  obtain ⟨hmem, hd⟩ := List.mem_filter.mp hpend
  have hskip := (h.flow msg.sender).noSkip
  have hbound : projectedSkipWithinBounds (c.state msg.sender.peer) 0 other = true := by
    simp [projectedSkipWithinBounds, hskip, hother, maxSkippedPerSession]
  rcases h.next_place hnext with ⟨hchain, hnum⟩ | ⟨top, rest, rfl, htop, -, hne, hnum, hmsg, -⟩
  · refine opens_current h.sync hmem (by simpa using (of_decide_eq_true hd).2) hchain hP ?_ hctl
    rw [Conv.WithinBounds, if_pos hchain, hnum, Nat.sub_self]
    exact .inr hbound
  · refine opens_newest hP h.sync hmem htop hne ?_ hctl h32
    rw [Conv.WithinBounds, if_neg hne, hmsg, hnum, Nat.sub_self]
    exact hbound

theorem Sync.within_of_opened (h : Sync P sid id c eps) (hmem : msg ∈ c.sent)
    (ht : c.tryOpen P msg other e = .ok (.prepared t)) : c.WithinBounds msg other ∧
      (msg.chain ≠ (c.state msg.sender.peer).remoteRatchetPublic → 32 ≤ e.length) := by
  obtain ⟨ep, -, hs⟩ := h.msgs msg hmem
  obtain ⟨k, header, ct, -, hparse, -⟩ := hs.payload
  obtain ⟨-, env, header', hp', hh, -, hcase⟩ := ratchetDecrypt_eq_prepared.mp ht
  rw [hparse] at hp'
  cases hp'
  cases hh
  simp only [← hs.pub, ← hs.prev] at hcase
  rcases hcase with ⟨hpub, hlt, -⟩ | ⟨hne, -, hb, s1, hr, -⟩ | ⟨hpub, -, hb, -⟩
  · refine ⟨?_, fun hne => absurd hpub hne⟩
    rw [Conv.WithinBounds, if_pos hpub]
    exact .inl hlt
  · refine ⟨?_, fun _ => ?_⟩
    · rw [Conv.WithinBounds, if_neg hne]
      exact hb
    · obtain ⟨-, -, -, -, h32, -⟩ := ratchetReceive_eq_ok.mp hr
      exact h32
  · refine ⟨?_, fun hne => absurd hpub hne⟩
    rw [Conv.WithinBounds, if_pos hpub]
    exact .inr hb

theorem InOrder.opened_inner (hP : Correct P) (h : InOrder P sid id c eps) (hnext : c.IsNext msg)
    (hctl : c.PassesControl msg) (ht : c.tryOpen P msg other e = .ok (.prepared t)) :
    t.inner = msg.inner := by
  obtain ⟨hmem, hd⟩ := List.mem_filter.mp (List.mem_of_head? hnext)
  obtain ⟨hb, h32⟩ := h.sync.within_of_opened hmem ht
  have hopens : ∃ t', c.tryOpen P msg other e = .ok (.prepared t') ∧ t'.inner = msg.inner := by
    rcases h.next_place hnext with ⟨hchain, -⟩ | ⟨top, rest, rfl, htop, -, hne, -⟩
    · exact opens_current h.sync hmem (by simpa using (of_decide_eq_true hd).2) hchain hP hb hctl
    · exact opens_newest hP h.sync hmem htop hne hb hctl (h32 hne)
  obtain ⟨t', ht', hinner⟩ := hopens
  cases ht.symm.trans ht'
  exact hinner

end Open

/-! ## Tokens -/

section Tokens

variable {P : CryptoProvider} {sid : Block 16} {id : Side → Block 16} {c : Conv} {eps : List Epoch}

def RatchetState.withTokens (s : RatchetState) (issued received : Option Key) : RatchetState :=
  { s with issuedRepairToken := issued, receivedRepairToken := received }

/-- The repair tokens of an end have no part in the ratchet. -/
theorem inOrder_tokens (h : InOrder P sid id c eps) (x : Side) (issued received : Option Key) :
    InOrder P sid id (c.put x ((c.state x).withTokens issued received)) eps := by
  have hs := h.sync
  refine ⟨⟨hs.session_ne, ?_, hs.keys, ?_, hs.nodup, hs.linked, hs.msgs, hs.distinct, ?_, ?_, ?_⟩,
    fun y => ?_⟩
  · have hid := hs.ids x
    exact Conv.put_forall (Q := Identifies sid id) hs.ids ⟨hid.session, hid.localId, hid.remoteId⟩
  · exact (if_pos rfl).trans hs.publics
  · exact Conv.put_forall (Q := fun _ s => ∀ key ∈ s.skipped, ∃ e ∈ eps, KeyOf P e key) hs.sound
      (hs.sound x)
  · intro msg hmem hd
    have hcomplete := hs.complete msg hmem hd
    rcases msg.sender.peer.eq_or_eq_peer x with heq | heq
    · rw [heq, Conv.put_self]
      rw [heq] at hcomplete
      exact hcomplete
    · rw [heq, Conv.put_peer, ← heq]
      exact hcomplete
  · refine hs.phase.receive rfl (fun _ _ hb => hb) (fun _ _ ho => ho)
      ⟨rfl, rfl, rfl, rfl, rfl, rfl⟩ fun e n hr _ => ⟨hr.remote, hr.chain, hr.count, hr.idle⟩
  · rcases y.eq_or_eq_peer x with rfl | rfl
    · refine (h.flow y).congr rfl ?_ ?_ ?_ ?_ ?_ ?_ <;> simp [RatchetState.withTokens]
    · refine (h.flow x.peer).congr rfl ?_ ?_ ?_ ?_ ?_ ?_ <;> simp [RatchetState.withTokens]

end Tokens

/-! ## The start -/

theorem inOrder_start {P : CryptoProvider} (hP : Correct P) (h : HonestSetup P) :
    ∃ sid id eps, InOrder P sid id h.start eps := by
  obtain ⟨sid, id, e1, e0, k, hsync, -⟩ := sync_start hP h
  obtain ⟨keys, shared, dh, transcript, wins, spk, -, -, -, -, hs, hpeer, header, -, hhr, hacc⟩ :=
    h.states hP
  have ha : h.start.state .initiator = h.session := rfl
  have hb : h.start.state .responder = h.accepted.session := rfl
  refine ⟨sid, id, [e1, e0], hsync, fun x => ?_⟩
  cases x with
  | initiator =>
    refine ⟨by rw [Side.peer, hb, hacc]; rfl, ?_⟩
    rw [Side.peer, ha, hb, hs, hacc, placesAhead_level hhr.symm]
    rfl
  | responder =>
    refine ⟨by rw [Side.peer, ha, hs]; rfl, ?_⟩
    rw [Side.peer, ha, hb, hs, hacc, placesAhead_level hpeer.symm]
    rfl

end CommPlatform.L3
