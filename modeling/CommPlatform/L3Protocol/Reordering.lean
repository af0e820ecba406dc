import CommPlatform.L3Protocol.Opening

/-!
# Envelopes out of order

Which deliveries a session survives. `ratchet_decrypt` looks a stored key up
only for a number behind the counter of the chain it is on; an envelope of a
chain it has left has another ratchet key, and is taken for a new one
(`pairwise.rs:1468-1542`). So the order within a chain does not matter, and
an envelope of a later chain may come before the last ones of the chain
before; but after it those are lost, although `skip_receiving_keys` stored
their keys.
-/
namespace CommPlatform.L3

open CommPlatform.Core L1 L2

/-! ## Conditions on a delivery -/

/-- Of two keys of the history (newest first), `new` came after `old`. -/
def Later (publics : List Key) (new old : Key) : Prop :=
  ∃ l₁ l₂, publics = l₁ ++ new :: l₂ ∧ old ∈ l₂

/-- An envelope of a later chain of the same sender was already opened. -/
def Conv.Overtaken (c : Conv) (msg : Sent) : Prop :=
  ∃ m ∈ c.sent, m.delivered = true ∧ m.sender = msg.sender ∧ Later c.publics m.chain msg.chain

/-- Not opened before, and not overtaken. -/
def Conv.Timely (c : Conv) (msg : Sent) : Prop := msg.delivered = false ∧ ¬ c.Overtaken msg

/-- The skipped-key bounds are not crossed by opening `msg`: the tests `ratchet_decrypt` makes.
mirrors pairwise.rs:1493-1507, 1533-1542 -/
def Conv.WithinBounds (c : Conv) (msg : Sent) (other : UInt32) : Prop :=
  if msg.chain = (c.state msg.sender.peer).remoteRatchetPublic then
    msg.number < (c.state msg.sender.peer).receiveCount ∨
      projectedSkipWithinBounds (c.state msg.sender.peer)
        (msg.number.toNat - (c.state msg.sender.peer).receiveCount.toNat) other = true
  else
    projectedSkipWithinBounds (c.state msg.sender.peer)
      (msg.previous.toNat - (c.state msg.sender.peer).receiveCount.toNat + msg.number.toNat) other =
      true

/-- The payload passes `inspect_repair_control`: it does not begin like a repair control, or it is
one for this session and the first. -/
def Conv.PassesControl (c : Conv) (msg : Sent) : Prop :=
  ∃ r, inspectRepairControl (c.state msg.sender.peer) msg.inner = .ok r

section Reordering

variable {P : CryptoProvider} {sid : Block 16} {id : Side → Block 16} {c : Conv}
  {eps : List Epoch} {msg : Sent}

/-! ## A timely envelope is of the current chain or of the newest epoch -/

theorem timely_cases (h : Sync P sid id c eps) (hmem : msg ∈ c.sent) (ht : ¬ c.Overtaken msg) :
    msg.chain = (c.state msg.sender.peer).remoteRatchetPublic ∨
      ∃ top eps', eps = top :: eps' ∧ msg.chain = top.pub := by
  obtain ⟨e, he, hs⟩ := h.msgs msg hmem
  obtain ⟨k, _, _, hk, -⟩ := hs.payload
  have hphase := h.phase
  cases hphase with
  | first owner base sends below idle belowBase hsec hpub root silent count receives =>
    rename_i e1 e0
    have hne : e ≠ e0 := by
      rintro rfl
      rw [base] at hk; cases hk
    obtain rfl : e = e1 := by simpa [hne] using he
    rw [hs.owner, owner]
    exact .inl (hs.pub.trans receives.remote.symm)
  | later owner sends below receives sendsPeer belowMid receivesPeer belowLow opened openedPeer =>
    rename_i x top mid low rest
    have hmid : mid.owner = x.peer := by
      rw [← owner, (List.isChain_cons_cons.mp h.linked).1.owner, Side.peer_peer]
    have hlow : low.owner = x := by
      have := (List.isChain_cons_cons.mp (List.isChain_cons_cons.mp h.linked).2).1.owner
      rw [hmid] at this
      rw [← Side.peer_peer low.owner, ← this, Side.peer_peer]
    have hpublics := h.publics
    simp only [List.mem_cons] at he
    rcases he with rfl | rfl | rfl | he
    · exact .inr ⟨_, _, rfl, hs.pub⟩
    · rw [hs.owner, hmid, Side.peer_peer]
      exact .inl (hs.pub.trans receives.remote.symm)
    · rw [hs.owner, hlow]
      exact .inl (hs.pub.trans receivesPeer.remote.symm)
    · -- an older epoch: an envelope of the chain the receiver is on was opened
      refine absurd ?_ ht
      rcases e.owner.eq_or_eq_peer x with hx | hx
      · obtain ⟨m, hm, hd, hms, hmc⟩ := openedPeer ⟨e, he, hx.trans hlow.symm, by simp [hk]⟩
        refine ⟨m, hm, hd, by rw [hms, hlow, hs.owner, hx], [top.pub, mid.pub],
          rest.map (·.pub), by rw [hpublics, hmc]; rfl, ?_⟩
        rw [hs.pub]; exact List.mem_map_of_mem he
      · obtain ⟨m, hm, hd, hms, hmc⟩ :=
          opened ⟨e, List.mem_cons_of_mem _ he, hx.trans hmid.symm, by simp [hk]⟩
        refine ⟨m, hm, hd, by rw [hms, hmid, hs.owner, hx], [top.pub],
          (low :: rest).map (·.pub), by rw [hpublics, hmc]; rfl, ?_⟩
        rw [hs.pub]; exact List.mem_map_of_mem (List.mem_cons_of_mem _ he)

theorem Sync.open (hP : Correct P) (h : Sync P sid id c eps) {before after : List Sent}
    (hsent : c.sent = before ++ msg :: after)
    (htimely : msg.chain = (c.state msg.sender.peer).remoteRatchetPublic ∨
      ∃ top eps', eps = top :: eps' ∧ msg.chain = top.pub)
    {e : Bytes} {other : UInt32} {t : DecryptedTransition}
    (hfresh : msg.chain ≠ (c.state msg.sender.peer).remoteRatchetPublic → c.Fresh P e)
    (ht : c.tryOpen P msg other e = .ok (.prepared t)) :
    ∃ eps', Sync P sid id (c.afterOpen before msg after t) eps' ∧
      Grows P (c.state msg.sender.peer) t.state eps eps' := by
  by_cases hcur : msg.chain = (c.state msg.sender.peer).remoteRatchetPublic
  · exact ⟨eps, h.openCurrent hsent hcur ht, .same eps⟩
  · obtain ⟨top, eps', rfl, htop⟩ := htimely.resolve_left hcur
    exact h.openNewest hP hsent htop hcur (hfresh hcur) ht

theorem sync_inductive (hP : Correct P) :
    (sessionOf P Conv.Timely).Inductive fun c => ∃ sid id eps, Sync P sid id c eps where
  init c := by
    rintro ⟨h, rfl⟩
    obtain ⟨sid, id, e1, e0, k, hsync, -⟩ := sync_start hP h
    exact ⟨sid, id, [e1, e0], hsync⟩
  step c c' := by
    rintro ⟨sid, id, eps, h⟩ hstep
    cases hstep with
    | send side inner e other t fresh ht =>
      obtain ⟨eps', h', -⟩ := h.send fresh ht
      exact ⟨sid, id, eps', h'⟩
    | deliver before msg after e other t hsent allowed fresh ht =>
      have hcases := timely_cases h (by rw [hsent]; simp) allowed.2
      obtain ⟨eps', h', -⟩ := h.open hP hsent hcases fresh ht
      exact ⟨sid, id, eps', h'⟩

/-! ## A timely envelope is opened -/

variable {other : UInt32} {e : Bytes}
  (h : Sync P sid id c eps) (hmem : msg ∈ c.sent) (hd : msg.delivered = false)
  (hcur : msg.chain = (c.state msg.sender.peer).remoteRatchetPublic)
include h hmem hd hcur

theorem stored_key (hlt : msg.number < (c.state msg.sender.peer).receiveCount) {ep : Epoch}
    (hep : ep ∈ eps) (hpub : msg.chain = ep.pub) {k : Key} (hk : ep.chain = some k) :
    ∃ key, (c.state msg.sender.peer).skipped.find?
        (·.matches ⟨sid, ep.pub, ep.prev, msg.number⟩) = some key ∧
      key.messageKey = messageKeyAt P k msg.number.toNat := by
  obtain ⟨key, hkey, hkp, hkn⟩ := h.complete msg hmem hd hcur hlt
  obtain ⟨found, hfound⟩ := Option.isSome_iff_exists.mp (List.find?_isSome
    (p := (·.matches ⟨sid, ep.pub, ep.prev, msg.number⟩)) |>.mpr
    ⟨key, hkey, by simp [SkippedKey.matches, hkp, hkn, hpub]⟩)
  have hmatch := List.find?_some hfound
  simp only [SkippedKey.matches, decide_eq_true_eq] at hmatch
  obtain ⟨e', he', hp', k', hk', hmk⟩ := h.sound _ found (List.mem_of_find?_eq_some hfound)
  cases h.unique he' hep (hp'.symm.trans hmatch.1)
  rw [hk] at hk'; cases hk'
  exact ⟨found, hfound, by rw [hmk, hmatch.2]⟩

theorem opens_current (hP : Correct P) (hb : c.WithinBounds msg other) (hctl : c.PassesControl msg) :
    ∃ t, c.tryOpen P msg other e = .ok (.prepared t) ∧ t.inner = msg.inner := by
  obtain ⟨ep, hep, hs⟩ := h.msgs msg hmem
  obtain ⟨k, header, ct, hk, hparse, hseal⟩ := hs.payload
  have hid := h.ids msg.sender.peer
  have hlen := length_le_of_mem_buckets hs.bucket
  rw [Conv.WithinBounds, if_pos hcur] at hb
  rw [← hid.localId] at hseal
  have hopen := hseal.opens hP (.regular ⟨sid, ep.pub, ep.prev, msg.number⟩)
  by_cases hlt : msg.number < (c.state msg.sender.peer).receiveCount
  · obtain ⟨key, hfind, hmk⟩ := stored_key h hmem hd hcur hlt hep hs.pub hk
    have hctl' : ∃ r, inspectRepairControl { c.state msg.sender.peer with
        skipped := (c.state msg.sender.peer).skipped.eraseP
          (·.matches ⟨sid, ep.pub, ep.prev, msg.number⟩) } msg.inner = .ok r :=
      inspectRepairControl_congr hctl rfl rfl
    obtain ⟨t, hti, htf⟩ := finishOpen_total hP hctl' hlen
    refine ⟨t, ratchetDecrypt_eq_prepared.mpr ⟨rfl, _, _, hparse, rfl, hid.session.symm, .inl
      ⟨hs.pub.symm.trans hcur, hlt, openSkipped_eq_ok.mpr ⟨key, hfind, ?_, ?_⟩⟩⟩, hti⟩
    · rw [hmk, hti]; exact hopen
    · rw [hti]; exact htf
  · have hle := UInt32.not_lt.mp hlt
    obtain ⟨e', he', limit, hr, -⟩ := h.phase.receiver msg.sender.peer
    cases h.unique he' hep (hr.remote.symm.trans (hcur.symm.trans hs.pub))
    obtain ⟨m, hm, hmn⟩ := checkedSucc_of_lt hs.number
    have hc := hr.chain
    rw [hk] at hc
    have hkey : messageKeyAt P (advance P k (c.state msg.sender.peer).receiveCount.toNat)
        (msg.number.toNat - (c.state msg.sender.peer).receiveCount.toNat) =
        messageKeyAt P k msg.number.toNat := by
      rw [messageKeyAt_advance]
      congr 1
      have := UInt32.le_iff_toNat_le.mp hle
      omega
    have hctl' : ∃ r, inspectRepairControl ((c.state msg.sender.peer).openedNext P (advance P k
        (c.state msg.sender.peer).receiveCount.toNat) msg.number m) msg.inner = .ok r :=
      inspectRepairControl_congr hctl rfl rfl
    obtain ⟨t, hti, htf⟩ := finishOpen_total hP hctl' hlen
    refine ⟨t, ratchetDecrypt_eq_prepared.mpr ⟨rfl, _, _, hparse, rfl, hid.session.symm, .inr (.inr
      ⟨hs.pub.symm.trans hcur, hle, hb.resolve_left hlt, openNext_eq_ok.mpr
        ⟨hle, _, m, hc, hs.number, hmn, ?_, ?_⟩⟩)⟩, hti⟩
    · rw [hkey, hti]; exact hopen
    · rw [hti]; exact htf

omit h hmem hd hcur

theorem opens_newest (hP : Correct P) {top : Epoch} {eps : List Epoch}
    (h : Sync P sid id c (top :: eps)) (hmem : msg ∈ c.sent) (htop : msg.chain = top.pub)
    (hne : msg.chain ≠ (c.state msg.sender.peer).remoteRatchetPublic)
    (hb : c.WithinBounds msg other) (hctl : c.PassesControl msg) (h32 : 32 ≤ e.length) :
    ∃ t, c.tryOpen P msg other e = .ok (.prepared t) ∧ t.inner = msg.inner := by
  obtain ⟨ep, hep, hs⟩ := h.msgs msg hmem
  cases h.unique hep List.mem_cons_self (hs.pub.symm.trans htop)
  obtain ⟨k, header, ct, hk, hparse, hseal⟩ := hs.payload
  have hid := h.ids msg.sender.peer
  have hlen := length_le_of_mem_buckets hs.bucket
  rw [Conv.WithinBounds, if_neg hne, hs.prev] at hb
  rw [← hid.localId] at hseal
  have hopen := hseal.opens hP (.regular ⟨sid, top.pub, top.prev, msg.number⟩)
  have hphase := h.phase
  cases hphase with
  | first owner base sends below idle belowBase hsec hpub root silent count receives =>
    rw [hs.owner, owner] at hne
    exact absurd (htop.trans receives.remote.symm) hne
  | later owner sends below receives sendsPeer belowMid receivesPeer belowLow opened openedPeer =>
    rename_i x mid low rest
    obtain rfl : x = msg.sender := owner.symm.trans hs.owner.symm
    obtain ⟨-, dh, hdh, -, hchain⟩ := (List.isChain_cons_cons.mp h.linked).1
    have hkt := h.keys top (by simp)
    have hcomm := hP.shared_comm hkt (h.keys mid (by simp)) hdh
    rw [← sendsPeer.secret] at hcomm
    obtain ⟨pub, hpub⟩ := hP.x25519_public (Block.ofTake 32 e h32)
    obtain ⟨dhs, hds, -⟩ := hP.x25519_symm _ _ _ _ hpub hkt
    rw [hchain] at hk; cases hk
    have hle : (c.state msg.sender.peer).receiveCount ≤ top.prev :=
      UInt32.le_iff_toNat_le.mpr receivesPeer.count
    have hnone : (c.state msg.sender.peer).receivingChain = none →
        top.prev = (c.state msg.sender.peer).receiveCount := by
      intro hn
      rw [receivesPeer.chain, Option.map_eq_none_iff] at hn
      have h0 := receivesPeer.idle hn
      have := receivesPeer.count
      exact UInt32.toNat_inj.mp (by omega)
    obtain ⟨m, hm, hmn⟩ := checkedSucc_of_lt hs.number
    let s1 := (c.state msg.sender.peer).ratcheted P ⟨sid, top.pub, top.prev, msg.number⟩ dh
      (Block.ofTake 32 e h32) pub dhs
    have hctl' : ∃ r, inspectRepairControl (s1.openedNext P (chainStart P
        (c.state msg.sender.peer).rootKey dh) msg.number m) msg.inner = .ok r :=
      inspectRepairControl_congr hctl rfl rfl
    obtain ⟨t, hti, htf⟩ := finishOpen_total hP hctl' hlen
    have hnext : (openNext P s1 (c.state msg.sender.peer).localDeviceId
        ⟨header, .regular ⟨sid, top.pub, top.prev, msg.number⟩, ct⟩
        ⟨sid, top.pub, top.prev, msg.number⟩ msg.envelope).result = .ok t := by
      refine openNext_eq_ok.mpr ⟨UInt32.zero_le, _, m, rfl, hs.number, hmn, ?_, ?_⟩
      · rw [hti, sendsPeer.root]; exact hopen
      · rw [hti]; exact htf
    exact ⟨t, ratchetDecrypt_eq_prepared.mpr ⟨rfl, _, _, hparse, rfl, hid.session.symm, .inr (.inl
      ⟨htop ▸ hne, hle, hb, s1, ratchetReceive_eq_ok.mpr ⟨hle, hnone, dh, hcomm, h32, pub, dhs, hpub,
        hds, rfl⟩, hnext⟩)⟩, hti⟩

end Reordering

/-- In every run of a session between honest devices whose deliveries are timely, each timely
envelope is opened to exactly what was sealed, as long as its skipped keys stay within bounds and
its payload is no refused repair control. -/
theorem timely_opened (P : CryptoProvider) (hP : Correct P) (c : Conv)
    (hr : (sessionOf P Conv.Timely).Reachable c) (msg : Sent) (hmem : msg ∈ c.sent)
    (htimely : c.Timely msg) (other : UInt32) (hb : c.WithinBounds msg other)
    (hctl : c.PassesControl msg) (e : Bytes) (h32 : 32 ≤ e.length) :
    ∃ t, c.tryOpen P msg other e = .ok (.prepared t) ∧ t.inner = msg.inner := by
  obtain ⟨sid, id, eps, h⟩ := (sync_inductive hP).reachable hr
  by_cases hcur : msg.chain = (c.state msg.sender.peer).remoteRatchetPublic
  · exact opens_current h hmem htimely.1 hcur hP hb hctl
  · obtain ⟨top, eps', rfl, htop⟩ := (timely_cases h hmem htimely.2).resolve_left hcur
    exact opens_newest hP h hmem htop hcur hb hctl h32

/-! ## The sum devices -/

theorem Later.ne {publics : List Key} (hn : publics.Nodup) {new old : Key}
    (h : Later publics new old) : new ≠ old := by
  obtain ⟨l₁, l₂, rfl, hm⟩ := h
  rintro rfl
  exact (List.nodup_cons.mp (List.nodup_append.mp hn).2.1).1 hm

theorem timely_of_unopened {c : Conv} (h : ∀ m ∈ c.sent, m.delivered = false) {msg : Sent}
    (hd : msg.delivered = false) : c.Timely msg := by
  refine ⟨hd, ?_⟩
  rintro ⟨m, hm, hmd, -⟩
  rw [h m hm] at hmd; cases hmd

def sumTwoSent : Option Conv :=
  sumConv.performs sumProvider [.send .initiator [1] (List.replicate 1024 6),
    .send .initiator [2] (List.replicate 1024 6)]

theorem sumTwoSent_passed : sumTwoSent.any (fun c₂ =>
    c₂.sent.all (fun m => m.delivered = false) &&
    (c₂.perform sumProvider (.deliver 1 (List.replicate 32 6))).any fun c =>
      c.publics.Nodup && c.sent.any fun msg => msg.inner = [1] && msg.delivered = false &&
        c.sent.all (fun m => m.chain = msg.chain) &&
        msg.chain = (c.state msg.sender.peer).remoteRatchetPublic &&
        msg.number < (c.state msg.sender.peer).receiveCount &&
        (inspectRepairControl (c.state msg.sender.peer) msg.inner).toOption.isSome) = true := by
  decide +kernel

/-- The second envelope is opened first; the first is then opened with the key stored for it. -/
theorem timely_opened_sumConv : ∃ c₂ c msg t, sumTwoSent = some c₂ ∧
    c₂.perform sumProvider (.deliver 1 (List.replicate 32 6)) = some c ∧ msg ∈ c.sent ∧
    msg.inner = [1] ∧ c.tryOpen sumProvider msg 0 (List.replicate 32 6) = .ok (.prepared t) ∧
    t.inner = [1] := by
  have hrun := sumTwoSent_passed
  cases h2 : sumTwoSent with
  | none => rw [h2] at hrun; cases hrun
  | some c₂ =>
    rw [h2, Option.any_some, Bool.and_eq_true] at hrun
    obtain ⟨hnone, hrun⟩ := hrun
    cases h3 : c₂.perform sumProvider (.deliver 1 (List.replicate 32 6)) with
    | none => rw [h3] at hrun; cases hrun
    | some c =>
      rw [h3, Option.any_some, Bool.and_eq_true, List.any_eq_true] at hrun
      obtain ⟨hnodup, msg, hmem, hmsg⟩ := hrun
      simp only [Bool.and_eq_true, decide_eq_true_eq, List.all_eq_true] at hnone hnodup hmsg
      obtain ⟨⟨⟨⟨⟨hinner, hd⟩, hchain⟩, hcur⟩, hlt⟩, hctl⟩ := hmsg
      have hreach : (sessionOf sumProvider Conv.Timely).Reachable c := by
        simp only [sumTwoSent, Conv.performs, List.foldlM_cons, List.foldlM_nil, some_steps] at h2
        obtain ⟨c₁, h1, c₂', h2, rfl⟩ := h2
        refine .step (.step (.step (.init (sumConv_init _)) (Conv.step_of_perform ?_ h1))
          (Conv.step_of_perform ?_ h2)) (Conv.step_of_perform ?_ h3)
        · intro _ _ h; cases h
        · intro _ _ h; cases h
        · exact fun _ _ _ msg _ hd => timely_of_unopened hnone hd
      have htimely : c.Timely msg := by
        refine ⟨hd, ?_⟩
        rintro ⟨m, hm, -, -, hl⟩
        exact hl.ne hnodup (hchain m hm)
      have hbound : c.WithinBounds msg 0 := by
        rw [Conv.WithinBounds, if_pos hcur]; exact .inl hlt
      obtain ⟨t, ht, hti⟩ := timely_opened sumProvider sumProvider_correct c hreach msg hmem htimely 0
        hbound (exists_ok_of_isSome hctl) (List.replicate 32 6) (by decide)
      exact ⟨c₂, c, msg, t, rfl, h3, hmem, hinner, ht, hti.trans hinner⟩

/-- Device 1 seals one envelope; device 2 answers, device 1 opens the answer and seals on its next
chain, and that envelope is opened first. -/
def sumOvertaken : Option Conv :=
  sumConv.performs sumProvider [.send .initiator [1] (List.replicate 1024 6),
    .send .responder [2] (List.replicate 1024 7), .deliver 1 (List.replicate 32 8),
    .send .initiator [3] (List.replicate 1024 9), .deliver 2 (List.replicate 32 11)]

theorem sumOvertaken_refused : sumOvertaken.any (fun c => c.sent.any fun msg =>
    msg.delivered = false &&
    (c.state msg.sender.peer).skipped.any (fun key => key.ratchetPublic = msg.chain ∧
      key.messageNumber = msg.number) &&
    msg.chain ≠ (c.state msg.sender.peer).remoteRatchetPublic &&
    projectedSkipWithinBounds (c.state msg.sender.peer) (msg.previous.toNat -
      (c.state msg.sender.peer).receiveCount.toNat + msg.number.toNat) 0 &&
    (inspectRepairControl (c.state msg.sender.peer) msg.inner).toOption.isSome &&
    c.tryOpen sumProvider msg 0 (List.replicate 32 12) = .error .stateViolation) = true := by
  decide +kernel

/-- The overtaken envelope is within the bounds, its key is stored, and it is refused. -/
theorem overtaken_lost : ∃ c msg,
    (sessionOf sumProvider fun _ msg => msg.delivered = false).Reachable c ∧ msg ∈ c.sent ∧
      msg.delivered = false ∧ c.WithinBounds msg 0 ∧ c.PassesControl msg ∧
      (∃ key ∈ (c.state msg.sender.peer).skipped, key.ratchetPublic = msg.chain ∧
        key.messageNumber = msg.number) ∧
      c.tryOpen sumProvider msg 0 (List.replicate 32 12) = .error .stateViolation := by
  have hrun := sumOvertaken_refused
  cases hc : sumOvertaken with
  | none => rw [hc] at hrun; cases hrun
  | some c =>
    rw [hc, Option.any_some, List.any_eq_true] at hrun
    obtain ⟨msg, hmem, hmsg⟩ := hrun
    simp only [Bool.and_eq_true, decide_eq_true_eq, List.any_eq_true] at hmsg
    obtain ⟨⟨⟨⟨⟨hd, hkey⟩, hne⟩, hb⟩, hctl⟩, hrefused⟩ := hmsg
    have hreach := Conv.reachable_of_performs (.init (sumConv_init _)) hc
    have hbound : c.WithinBounds msg 0 := by rw [Conv.WithinBounds, if_neg hne]; exact hb
    exact ⟨c, msg, hreach, hmem, hd, hbound, exists_ok_of_isSome hctl, hkey, hrefused⟩

end CommPlatform.L3
