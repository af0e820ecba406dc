import CommPlatform.L3Protocol.Reordering

/-!
# Agreement of the two key schedules

Deliveries are now arbitrary: an envelope may be handed over again after it
was opened, or after its chain was left behind. `ratchet_decrypt` takes a
header with any other ratchet key for a new one and derives a chain for it;
what keeps the two ends in sync is that such an envelope does not open. The
derived chain would have to be the chain it was sealed on, and the roots of
a session never repeat.

* `agreement_inductive`: the ends stay in sync in every run.
-/
namespace CommPlatform.L3

open CommPlatform.Core L1 L2

/-- Runs of one session in which any sealed envelope may be delivered at any time, and whose
`kdf_root` inputs are in `Q`. -/
def sessionWithin (P : CryptoProvider) (h : HonestSetup P) (Q : Set (Key × Key)) : System Conv where
  init c := c = h.start
  step c c' := Conv.Step P (fun _ _ => True) c c' ∧
    ∀ side, ∀ q ∈ rootInputs P (c.state side) (c'.state side), q ∈ Q

/-- The roots of the epochs with a chain, each with its chain. -/
def schedule (eps : List Epoch) : List (Key × Key) :=
  eps.filterMap fun e => e.chain.map fun k => (e.root, k)

theorem schedule_cons {e : Epoch} {k : Key} (hk : e.chain = some k) (eps : List Epoch) :
    schedule (e :: eps) = (e.root, k) :: schedule eps := by
  simp [schedule, hk]

theorem mem_schedule {e : Epoch} {eps : List Epoch} {k : Key} (he : e ∈ eps)
    (hk : e.chain = some k) : (e.root, k) ∈ schedule eps :=
  List.mem_filterMap.mpr ⟨e, he, by simp [hk]⟩

/-- The epochs were derived one from the other with inputs of `Q`. -/
def OnSchedule (P : CryptoProvider) (Q : Set (Key × Key)) (root chain : Key) (eps : List Epoch) :
    Prop :=
  Derives (rootOf P) (chainOf P) Q root chain (schedule eps)

section Agreement

variable {P : CryptoProvider} {sid : Block 16} {id : Side → Block 16} {c : Conv}
  {eps eps' : List Epoch} {msg : Sent} {Q : Set (Key × Key)} {r₀ k₀ : Key}

theorem Phase.top_chain {top : Epoch} (h : Phase P c (top :: eps)) : ∃ k, top.chain = some k := by
  cases h with
  | first _ _ sends | later _ sends => exact Option.ne_none_iff_exists'.mp sends.chain_ne

theorem Grows.onSchedule {s s' : RatchetState} (hg : Grows P s s' eps eps')
    (hphase : Phase P c eps) (hQ : ∀ q ∈ rootInputs P s s', q ∈ Q)
    (h : OnSchedule P Q r₀ k₀ eps) : OnSchedule P Q r₀ k₀ eps' := by
  cases hg with
  | same => exact h
  | next input root chain =>
    obtain ⟨k, hk⟩ := hphase.top_chain
    rw [OnSchedule, schedule_cons hk] at h
    rw [OnSchedule, schedule_cons chain, root, schedule_cons hk]
    exact h.next (hQ _ input)

/-- An envelope that opens is of the chain its receiver is on or of the newest epoch: a chain
derived for an older ratchet key is not the one it was sealed on. -/
theorem opened_on_schedule (hP : Correct P) (hbind : AeadBinding P) (hinj : KeysInjective P)
    (hcol : NoCollision (rootOf P) (chainOf P) Q r₀ k₀) (h : Sync P sid id c eps)
    (hon : OnSchedule P Q r₀ k₀ eps) (hmem : msg ∈ c.sent) {other : UInt32} {e : Bytes}
    {t : DecryptedTransition} (ht : c.tryOpen P msg other e = .ok (.prepared t))
    (hQ : ∀ q ∈ rootInputs P (c.state msg.sender.peer) t.state, q ∈ Q) :
    msg.chain = (c.state msg.sender.peer).remoteRatchetPublic ∨
      ∃ top eps', eps = top :: eps' ∧ msg.chain = top.pub := by
  rw [or_iff_not_imp_left]
  intro hne
  obtain ⟨ep, hep, hs⟩ := h.msgs msg hmem
  obtain ⟨k, header, ct, hk, hparse, hseal⟩ := hs.payload
  obtain ⟨-, -, dhr, hdr, h32, pub, dhs, hpub, hds, hdec, m, token, hm, hstate⟩ :=
    opened_newer hparse (hs.pub ▸ hne) ht
  rw [← (h.ids msg.sender.peer).localId] at hseal
  have hopen := hseal.opens hP (.regular ⟨sid, ep.pub, ep.prev, msg.number⟩)
  have hkey : k = chainOf P ((c.state msg.sender.peer).rootKey, dhr) :=
    messageKeyAt_inj hinj (same_messageKey hbind hinj hopen hdec)
  have hin : ((c.state msg.sender.peer).rootKey, dhr) ∈ Q := by
    refine hQ _ ?_
    rw [rootInputs_ratcheted (by rw [hstate]; exact hs.pub ▸ hne) (by rw [hstate]; exact hdr)
      (by rw [hstate]; exact hds)]
    exact List.mem_cons_self
  have hphase := h.phase
  cases hphase with
  | first owner base sends below idle belowBase hsec hpub root silent count receives =>
    -- both ends hold the first root, from which no epoch was derived yet
    rename_i e1 e0
    obtain ⟨k1, hk1, -⟩ := sends.chain
    have hroot : (c.state msg.sender.peer).rootKey = e1.root := by
      cases msg.sender with
      | initiator => exact root
      | responder => exact sends.root
    rw [OnSchedule, schedule_cons hk1] at hon
    have hmem' := mem_schedule hep hk
    rw [schedule_cons hk1, hkey, hroot] at hmem'
    exact absurd hmem' (hon.newLeaf hcol (hroot ▸ hin) _)
  | later owner sends below receives sendsPeer belowMid receivesPeer belowLow opened openedPeer =>
    rename_i x top mid low rest
    obtain ⟨kt, hkt, -⟩ := sends.chain
    obtain ⟨km, hkm, -⟩ := sendsPeer.chain
    rw [OnSchedule, schedule_cons hkt, schedule_cons hkm] at hon
    rcases msg.sender.peer.eq_or_eq_peer x with hx | hx
    · have hroot : (c.state msg.sender.peer).rootKey = top.root := hx ▸ sends.root
      have hmem' := mem_schedule hep hk
      rw [schedule_cons hkt, schedule_cons hkm, hkey, hroot] at hmem'
      exact absurd hmem' (hon.newLeaf hcol (hroot ▸ hin) _)
    · -- the receiver holds the second root: it derives the newest epoch
      have hroot := hx ▸ sendsPeer.root
      rcases List.mem_cons.mp hep with rfl | hep
      · exact ⟨_, _, rfl, hs.pub⟩
      · have hmem' := mem_schedule hep hk
        rw [schedule_cons hkm, hkey, hroot] at hmem'
        exact absurd hmem' (hon.tail.newLeaf hcol (hroot ▸ hin) _)

theorem agreement_inductive (hP : Correct P) (hbind : AeadBinding P) (hinj : KeysInjective P)
    (h : HonestSetup P) (hQ : Collisionless P Q h.session) :
    (sessionWithin P h Q).Inductive fun c => ∃ sid id eps k₀,
      NoCollision (rootOf P) (chainOf P) Q h.session.rootKey k₀ ∧ Sync P sid id c eps ∧
        OnSchedule P Q h.session.rootKey k₀ eps where
  init c := by
    rintro rfl
    obtain ⟨sid, id, e1, e0, k, hsync, h0, h1, hroot, hk⟩ := sync_start hP h
    refine ⟨sid, id, [e1, e0], k, hQ.noCollision (.inl hk), hsync, ?_⟩
    rw [OnSchedule, schedule_cons h1, hroot]
    have hnil : schedule [e0] = [] := by simp [schedule, h0]
    rw [hnil]
    exact .start
  step c c' := by
    rintro ⟨sid, id, eps, k₀, hcol, hsync, hon⟩ ⟨hstep, hin⟩
    cases hstep with
    | send side inner e other t fresh ht =>
      obtain ⟨eps', hsync', hg⟩ := hsync.send fresh ht
      have hin := hin side
      rw [Conv.afterSend_state, Conv.put_self] at hin
      exact ⟨sid, id, eps', k₀, hcol, hsync', hg.onSchedule hsync.phase hin hon⟩
    | deliver before msg after e other t hsent allowed fresh ht =>
      have hin := hin msg.sender.peer
      rw [Conv.afterOpen_state, Conv.put_self] at hin
      have hcases := opened_on_schedule hP hbind hinj hcol hsync hon (by rw [hsent]; simp) ht hin
      obtain ⟨eps', hsync', hg⟩ := hsync.open hP hsent hcases fresh ht
      exact ⟨sid, id, eps', k₀, hcol, hsync', hg.onSchedule hsync.phase hin hon⟩

end Agreement

/-! ## Agreement -/

/-- In every state of every run, if one end receives under the ratchet key the other seals with,
both hold the same chain, the sender's advanced by its send count and the receiver's by its
receive count, which is not ahead; and the keys stored under that ratchet key are keys of that
chain. -/
theorem key_schedule_agreement (P : CryptoProvider) (hP : Correct P) (hbind : AeadBinding P)
    (hinj : KeysInjective P) (h : HonestSetup P) (Q : Set (Key × Key))
    (hQ : Collisionless P Q h.session) (c : Conv) (hc : (sessionWithin P h Q).Reachable c)
    (side : Side)
    (hremote : (c.state side.peer).remoteRatchetPublic = (c.state side).localRatchetPublic)
    (hsending : (c.state side).sendingChain ≠ none) :
    ∃ k, (c.state side).sendingChain = some (advance P k (c.state side).sendCount.toNat) ∧
      (c.state side.peer).receivingChain =
        some (advance P k (c.state side.peer).receiveCount.toNat) ∧
      (c.state side.peer).receiveCount ≤ (c.state side).sendCount ∧
      ∀ key ∈ (c.state side.peer).skipped,
        key.ratchetPublic = (c.state side).localRatchetPublic →
          key.messageKey = messageKeyAt P k key.messageNumber.toNat := by
  obtain ⟨sid, id, eps, k₀, -, hsync, -⟩ := (agreement_inductive hP hbind hinj h hQ).reachable hc
  obtain ⟨e, he, hs, hr⟩ := hsync.phase.matched hsync.nodup hsending hremote
  obtain ⟨k, hk, hchain⟩ := hs.chain
  refine ⟨k, hchain, by rw [hr.chain, hk]; rfl, UInt32.le_iff_toNat_le.mpr hr.count, ?_⟩
  intro key hkey hpub
  obtain ⟨e', he', hp, k', hk', hmk⟩ := hsync.sound _ key hkey
  cases hsync.unique he' he (hp.symm.trans (hpub.trans hs.pub))
  rw [hk] at hk'; cases hk'
  exact hmk

def Conv.performsWithin (P : CryptoProvider) (qs : List (Key × Key)) (c : Conv) (acts : List Act) :
    Option Conv :=
  acts.foldlM (fun c a => (c.perform P a).filter fun c' =>
    [Side.initiator, .responder].all fun side =>
      (rootInputs P (c.state side) (c'.state side)).all (· ∈ qs)) c

theorem Conv.reachable_of_performsWithin {P : CryptoProvider} {h : HonestSetup P}
    {qs : List (Key × Key)} {c c' : Conv} {acts : List Act}
    (hc : (sessionWithin P h fun q => q ∈ qs).Reachable c)
    (hrun : c.performsWithin P qs acts = some c') :
    (sessionWithin P h fun q => q ∈ qs).Reachable c' := by
  induction acts generalizing c with
  | nil => cases hrun; exact hc
  | cons a acts ih =>
    simp only [performsWithin, List.foldlM_cons, some_steps, Option.filter_eq_some_iff,
      List.all_eq_true, decide_eq_true_eq] at hrun
    obtain ⟨c1, ⟨h1, hin⟩, h2⟩ := hrun
    refine ih (.step hc ⟨step_of_perform (fun _ _ _ _ _ _ => trivial) h1, fun side => ?_⟩) h2
    exact hin side (by cases side <;> simp)

def sumInputs : List (Key × Key) :=
  [(Block.fill 32 8, Block.fill 32 12), (Block.fill 32 21, Block.fill 32 15),
    (Block.fill 32 37, Block.fill 32 19)]

theorem sumInputs_collisionless :
    Collisionless sumProvider (fun q => q ∈ sumInputs) sumInitiated := by
  have hroots : ∀ a ∈ sumInputs, ∀ b ∈ sumInputs,
      rootOf sumProvider a = rootOf sumProvider b → a = b := by decide +kernel
  have hchains : ∀ a ∈ sumInputs, ∀ b ∈ sumInputs,
      chainOf sumProvider a = chainOf sumProvider b → a = b := by decide +kernel
  have hnew : ∀ q ∈ sumInputs, rootOf sumProvider q ≠ sumInitiated.rootKey ∧
      sumInitiated.sendingChain ≠ some (nextChainOf sumProvider (chainOf sumProvider q)) := by
    decide +kernel
  exact ⟨fun a ha b hb => hroots a ha b hb, fun a ha b hb => hchains a ha b hb,
    fun q hq => (hnew q hq).1, fun q hq => (hnew q hq).2, fun q _ hq => nomatch hq⟩

/-- Device 2 answers, device 1 opens the answer and seals twice on its next chain; the second
envelope is opened first. -/
def sumAgreed : Option Conv :=
  sumConv.performsWithin sumProvider sumInputs
    [.send .responder [2] (List.replicate 1024 7), .deliver 0 (List.replicate 32 8),
      .send .initiator [3] (List.replicate 1024 9), .send .initiator [4] (List.replicate 1024 9),
      .deliver 2 (List.replicate 32 11)]

theorem sumAgreed_passed : sumAgreed.any (fun c =>
    (c.state .responder).remoteRatchetPublic = (c.state .initiator).localRatchetPublic &&
    (c.state .initiator).sendingChain.isSome && (c.state .initiator).sendCount = 2 &&
    (c.state .responder).receiveCount = 2 && (c.state .responder).skipped.any fun key =>
      key.ratchetPublic = (c.state .initiator).localRatchetPublic &&
        key.messageNumber = 0) = true := by
  decide +kernel

/-- After that run both ends are on one chain and the key of the passed envelope is stored. -/
theorem key_schedule_agreement_sumAgreed : ∃ c k, sumAgreed = some c ∧
    (c.state .initiator).sendingChain = some (advance sumProvider k 2) ∧
    (c.state .responder).receivingChain = some (advance sumProvider k 2) ∧
    ∃ key ∈ (c.state .responder).skipped, key.messageNumber = 0 ∧
      key.messageKey = messageKeyAt sumProvider k 0 := by
  have hrun := sumAgreed_passed
  cases hc : sumAgreed with
  | none => rw [hc] at hrun; cases hrun
  | some c =>
    simp only [hc, Option.any_some, Bool.and_eq_true, decide_eq_true_eq, List.any_eq_true] at hrun
    obtain ⟨⟨⟨⟨hremote, hsome⟩, hsend⟩, hrecv⟩, key, hkey, hpub, hnum⟩ := hrun
    obtain ⟨h, hstart⟩ := sumConv_init fun _ _ => True
    have hsession : h.session = sumInitiated := congrArg (fun c => c.state .initiator) hstart.symm
    have hreach := Conv.reachable_of_performsWithin (h := h) (.init hstart) hc
    obtain ⟨k, hs, hr, -, hkeys⟩ := key_schedule_agreement sumProvider sumProvider_correct
      sumProvider_binding sumProvider_injective h _ (hsession ▸ sumInputs_collisionless) c hreach
      .initiator hremote (by intro hn; rw [hn] at hsome; cases hsome)
    have hmk := hkeys key hkey hpub
    rw [hsend] at hs
    rw [Side.peer, hrecv] at hr
    rw [hnum] at hmk
    exact ⟨c, k, rfl, hs, hr, key, hkey, hnum, hmk⟩

end CommPlatform.L3
