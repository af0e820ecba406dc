import CommPlatform.L3Protocol.KeySchedule

/-!
# Opening keeps the two ends in sync

An envelope of the chain the receiver is on moves only that chain
(`Sync.openCurrent`); one of the newest epoch makes the receiver draw the
next key, so a new epoch begins (`Sync.openNewest`). `Sync.open` is the two
together: what can be opened is timely, or it is of an epoch the receiver
has left, which is the business of the modules that use this one.
-/
namespace CommPlatform.L3

open CommPlatform.Core L1 L2

section Open

variable {P : CryptoProvider} {sid : Block 16} {id : Side → Block 16} {c : Conv}
  {eps : List Epoch} {before after : List Sent} {msg : Sent} {t : DecryptedTransition}

/-! ## Marking an envelope as opened -/

variable {m : Sent}

theorem mem_mark (h : m ∈ before ++ { msg with delivered := true } :: after) :
    m = { msg with delivered := true } ∨ m ∈ before ++ after := by
  simp only [List.mem_append, List.mem_cons] at h ⊢
  tauto

theorem mem_of_mem_rest (h : m ∈ before ++ after) : m ∈ before ++ msg :: after := by
  simp only [List.mem_append, List.mem_cons] at h ⊢
  tauto

theorem mem_mark_of_delivered (h : m ∈ before ++ msg :: after)
    (hd : m.delivered = true) : m ∈ before ++ { msg with delivered := true } :: after := by
  simp only [List.mem_append, List.mem_cons] at h ⊢
  rcases h with h | rfl | h
  · exact .inl h
  · exact .inr (.inl (by rw [← hd]))
  · exact .inr (.inr h)

variable {e : Epoch}

theorem forall_mark {Q : Sent → Prop} (hQ : Q msg → Q { msg with delivered := true })
    (h : ∀ m ∈ before ++ msg :: after, Q m) :
    ∀ m ∈ before ++ { msg with delivered := true } :: after, Q m := by
  intro m hm
  rcases mem_mark hm with rfl | hm
  · exact hQ (h msg (by simp))
  · exact h m (mem_of_mem_rest hm)

theorem Below.mark {n : Nat} (h : Below (before ++ msg :: after) e n) :
    Below (before ++ { msg with delivered := true } :: after) e n :=
  forall_mark (fun hm => hm) h

theorem Opened.mark {older : List Epoch} (h : Opened (before ++ msg :: after) e older) :
    Opened (before ++ { msg with delivered := true } :: after) e older :=
  h.mono fun _ hm hd => mem_mark_of_delivered hm hd

theorem Sealed.mark (h : Sealed P sid id e msg) :
    Sealed P sid id e { msg with delivered := true } :=
  ⟨h.owner, h.pub, h.prev, h.number, h.bucket, h.payload⟩

/-! ## The receiver's position -/

structure SameSending (s s' : RatchetState) : Prop where
  secret : s'.localRatchetSecret = s.localRatchetSecret
  pub : s'.localRatchetPublic = s.localRatchetPublic
  root : s'.rootKey = s.rootKey
  prev : s'.previousSendCount = s.previousSendCount
  chain : s'.sendingChain = s.sendingChain
  count : s'.sendCount = s.sendCount

theorem Sends.congr {s s' : RatchetState} (h : Sends P s e) (hs : SameSending s s') :
    Sends P s' e := by
  refine ⟨hs.secret.trans h.secret, hs.pub.trans h.pub, hs.root.trans h.root,
    hs.prev.trans h.prev, ?_⟩
  rw [hs.chain, hs.count]
  exact h.chain

theorem Phase.receive {c' : Conv} {r : Side} {s' : RatchetState} (h : Phase P c eps)
    (hstate : c'.state = (c.put r s').state)
    (hbelow : ∀ e n, Below c.sent e n → Below c'.sent e n)
    (hopened : ∀ e older, Opened c.sent e older → Opened c'.sent e older)
    (hsame : SameSending (c.state r) s')
    (hrec : ∀ e n, Receives P (c.state r) e n → Below c.sent e n → Receives P s' e n) :
    Phase P c' eps := by
  have hs : ∀ s, SameSending (c.state s) (c'.state s) := by
    rw [hstate]
    exact Conv.put_forall (Q := fun s => SameSending (c.state s))
      (fun _ => ⟨rfl, rfl, rfl, rfl, rfl, rfl⟩)
      hsame
  have hr : ∀ s e n, Receives P (c.state s) e n → Below c.sent e n → Receives P (c'.state s) e n := by
    rw [hstate]
    exact Conv.put_forall (Q := fun s st => ∀ e n, Receives P (c.state s) e n → Below c.sent e n →
      Receives P st e n) (fun _ _ _ h _ => h) hrec
  cases h with
  | first owner base sends below idle belowBase secret pub root silent count receives =>
    refine .first owner base (sends.congr (hs _)) ?_ (hr _ _ _ idle belowBase) (hbelow _ _ belowBase)
      ?_ ?_ ?_ ?_ ?_ ?_
    · rw [(hs _).count]; exact hbelow _ _ below
    · rw [(hs _).secret]; exact secret
    · rw [(hs _).pub]; exact pub
    · rw [(hs _).root]; exact root
    · rw [(hs _).chain]; exact silent
    · rw [(hs _).count]; exact count
    · rw [(hs _).count]; exact hr _ _ _ receives below
  | later owner sends below receives sendsPeer belowMid receivesPeer belowLow opened openedPeer =>
    refine .later owner (sends.congr (hs _)) ?_ ?_ (sendsPeer.congr (hs _)) ?_
      (hr _ _ _ receivesPeer belowLow) (hbelow _ _ belowLow) (hopened _ _ opened)
      (hopened _ _ openedPeer)
    · rw [(hs _).count]; exact hbelow _ _ below
    · rw [(hs _).count]; exact hr _ _ _ receives belowMid
    · rw [(hs _).count]; exact hbelow _ _ belowMid

theorem Phase.receiver (h : Phase P c eps) (r : Side) :
    ∃ e ∈ eps, ∃ limit, Receives P (c.state r) e limit ∧ Below c.sent e limit := by
  cases h with
  | first owner base sends below idle belowBase secret pub root silent count receives =>
    cases r with
    | initiator => exact ⟨_, by simp, 0, idle, belowBase⟩
    | responder => exact ⟨_, List.mem_cons_self, _, receives, below⟩
  | later owner sends below receives sendsPeer belowMid receivesPeer belowLow opened openedPeer =>
    rename_i x top mid low rest
    rcases r.eq_or_eq_peer x with rfl | rfl
    · exact ⟨mid, by simp, _, receives, belowMid⟩
    · exact ⟨low, by simp, _, receivesPeer, belowLow⟩

/-! ## Stored keys -/

section Skipped

variable {s : RatchetState} {u : UInt32} {key : SkippedKey}

theorem mem_skippedTo_of_mem (h : key ∈ s.skipped) : key ∈ (s.skippedTo P u).skipped := by
  simp [RatchetState.skippedTo, h]

variable {limit : Nat}

theorem skippedTo_sound (hr : Receives P s e limit)
    (h : key ∈ (s.skippedTo P u).skipped) : key ∈ s.skipped ∨ KeyOf P e key := by
  simp only [RatchetState.skippedTo, mem_sortSkipped, List.mem_append] at h
  refine h.imp_right fun h => ?_
  cases hc : e.chain with
  | none => simp [hr.chain, hc] at h
  | some k =>
    simp only [hr.chain, hc, Option.map_some, Option.elim_some, mem_passedKeys] at h
    obtain ⟨i, hi, rfl⟩ := h
    have hu := u.toNat_lt
    have hn : (UInt32.ofNat (s.receiveCount.toNat + i)).toNat = s.receiveCount.toNat + i := by
      rw [UInt32.toNat_ofNat']; omega
    exact ⟨hr.remote, k, hc, by rw [hn, messageKeyAt_advance]⟩

theorem skippedTo_complete {k : Key} (hk : s.receivingChain = some k) {n : UInt32}
    (h1 : s.receiveCount ≤ n) (h2 : n < u) : ∃ key ∈ (s.skippedTo P u).skipped,
      key.ratchetPublic = s.remoteRatchetPublic ∧ key.messageNumber = n := by
  rw [UInt32.le_iff_toNat_le] at h1
  rw [UInt32.lt_iff_toNat_lt] at h2
  have hn : s.receiveCount.toNat + (n.toNat - s.receiveCount.toNat) = n.toNat := by omega
  refine ⟨⟨s.remoteRatchetPublic, UInt32.ofNat (s.receiveCount.toNat +
    (n.toNat - s.receiveCount.toNat)), messageKeyAt P k (n.toNat - s.receiveCount.toNat)⟩, ?_, rfl, ?_⟩
  · simp only [RatchetState.skippedTo, mem_sortSkipped, List.mem_append, hk, Option.elim_some,
      mem_passedKeys]
    exact .inr ⟨_, by omega, rfl⟩
  · simp only [hn, UInt32.ofNat_toNat]

theorem Receives.openedNext (hr : Receives P s e limit) {k : Key}
    (hk : s.receivingChain = some k) {n m : UInt32} (hle : s.receiveCount ≤ n)
    (hm : m.toNat = n.toNat + 1) (hn : n.toNat < limit) :
    Receives P (s.openedNext P k n m) e limit := by
  rw [UInt32.le_iff_toNat_le] at hle
  have hc := hr.chain
  rw [hk, eq_comm, Option.map_eq_some_iff] at hc
  obtain ⟨k0, hk0, rfl⟩ := hc
  refine ⟨hr.remote, ?_, by simp only [RatchetState.openedNext, hm]; omega, by simp [hk0]⟩
  simp only [RatchetState.openedNext, hk0, Option.map_some, advance_advance, hm]
  congr 2
  omega

end Skipped

/-! ## An envelope of the current chain -/

/-- The unopened envelopes other than `msg` that one end may still have to look up. -/
def Covers (s : RatchetState) (sender : Side) (rest : List Sent) : Prop :=
  ∀ m ∈ rest, m.delivered = false → m.sender = sender → m.chain = s.remoteRatchetPublic →
    m.number < s.receiveCount →
    ∃ key ∈ s.skipped, key.ratchetPublic = m.chain ∧ key.messageNumber = m.number

variable (h : Sync P sid id c eps)
include h

theorem complete_afterOpen (hsent : c.sent = before ++ msg :: after)
    (hcov : Covers t.state msg.sender (before ++ after)) :
    ∀ m ∈ before ++ { msg with delivered := true } :: after, m.delivered = false →
      m.chain = ((c.put msg.sender.peer t.state).state m.sender.peer).remoteRatchetPublic →
      m.number < ((c.put msg.sender.peer t.state).state m.sender.peer).receiveCount →
      ∃ key ∈ ((c.put msg.sender.peer t.state).state m.sender.peer).skipped,
        key.ratchetPublic = m.chain ∧ key.messageNumber = m.number := by
  intro m hm hd hchain hlt
  rcases mem_mark hm with rfl | hm
  · cases hd
  rcases m.sender.eq_or_eq_peer msg.sender with hs | hs
  · rw [hs, Conv.put_self] at hchain hlt ⊢
    exact hcov m hm hd hs hchain hlt
  · have hmem : m ∈ c.sent := hsent ▸ mem_of_mem_rest hm
    rw [hs, Side.peer_peer, Conv.put_of_peer] at hchain hlt ⊢
    have := h.complete m hmem hd
    rw [hs, Side.peer_peer] at this
    exact this hchain hlt

theorem Sync.receiveOn (hsent : c.sent = before ++ msg :: after)
    (hids : Identifies sid id msg.sender.peer t.state)
    (hsame : SameSending (c.state msg.sender.peer) t.state)
    (hsound : ∀ key ∈ t.state.skipped, ∃ e ∈ eps, KeyOf P e key)
    (hcov : Covers t.state msg.sender (before ++ after))
    (hrec : ∀ e n, Receives P (c.state msg.sender.peer) e n → Below c.sent e n →
      Receives P t.state e n) : Sync P sid id (c.afterOpen before msg after t) eps := by
  have hmsgs := h.msgs
  have hdistinct := h.distinct
  rw [hsent] at hmsgs hdistinct
  refine ⟨h.session_ne, Conv.put_forall (Q := Identifies sid id) h.ids hids, h.keys, ?_, h.nodup,
    h.linked, ?_, ?_, Conv.put_forall (Q := fun _ s => ∀ key ∈ s.skipped, ∃ e ∈ eps, KeyOf P e key)
      h.sound hsound, complete_afterOpen h hsent hcov, ?_⟩
  · exact (if_pos hsame.pub).trans h.publics
  · exact forall_mark (fun ⟨e, he, hs⟩ => ⟨e, he, hs.mark⟩) hmsgs
  · simpa [Conv.afterOpen] using hdistinct
  · refine h.phase.receive rfl (fun e n hb => ?_) (fun e older ho => ?_) hsame hrec
    · rw [hsent] at hb; exact hb.mark
    · rw [hsent] at ho; exact ho.mark

theorem Sync.number_ne (hsent : c.sent = before ++ msg :: after)
    (hm : m ∈ before ++ after) (hc : m.chain = msg.chain) : m.number ≠ msg.number := by
  intro hn
  have hd := h.distinct
  rw [hsent, List.map_append, List.map_cons, List.nodup_middle, List.nodup_cons, ← List.map_append]
    at hd
  refine hd.1 (List.mem_map.mpr ⟨m, hm, ?_⟩)
  rw [hc, hn]

omit h

theorem number_lt_of_ne {n m next : UInt32} (hlt : n < next) (hne : n ≠ m)
    (hnext : next.toNat = m.toNat + 1) : n < m := by
  have h1 := UInt32.lt_iff_toNat_lt.mp hlt
  have h2 : n.toNat ≠ m.toNat := fun heq => hne (UInt32.toNat_inj.mp heq)
  exact UInt32.lt_iff_toNat_lt.mpr (by omega)

theorem Sync.covers (h : Sync P sid id c eps) (hsent : c.sent = before ++ msg :: after) :
    Covers (c.state msg.sender.peer) msg.sender (before ++ after) := by
  intro m hm hd hs hchain hlt
  have := h.complete m (hsent ▸ mem_of_mem_rest hm) hd
  rw [hs] at this
  exact this hchain hlt

variable {other : UInt32}

theorem Sync.openCurrent (h : Sync P sid id c eps) (hsent : c.sent = before ++ msg :: after)
    (hcur : msg.chain = (c.state msg.sender.peer).remoteRatchetPublic) {e : Bytes}
    (ht : c.tryOpen P msg other e = .ok (.prepared t)) :
    Sync P sid id (c.afterOpen before msg after t) eps := by
  have hmem : msg ∈ c.sent := by rw [hsent]; simp
  obtain ⟨ep, hep, hs⟩ := h.msgs msg hmem
  obtain ⟨k0, header, ct, hk0, hparse, -⟩ := hs.payload
  obtain ⟨token, hcase⟩ := opened_current hparse (hs.pub.symm.trans hcur) ht
  have hid := h.ids msg.sender.peer
  rcases hcase with ⟨hlt, hstate⟩ | ⟨hle, k, m, hk, hm, hstate⟩
  · refine h.receiveOn hsent ?_ ?_ ?_ ?_ ?_
    · rw [hstate]; exact ⟨hid.session, hid.localId, hid.remoteId⟩
    · rw [hstate]; exact ⟨rfl, rfl, rfl, rfl, rfl, rfl⟩
    · rw [hstate]; exact fun key hkey => h.sound _ key (List.mem_of_mem_eraseP hkey)
    · intro m hm hd hsender hchain hnum
      rw [hstate] at hchain hnum ⊢
      obtain ⟨key, hkey, hkp, hkn⟩ := h.covers hsent m hm hd hsender hchain hnum
      -- the key used up has another number
      have hne := h.number_ne hsent hm (hchain.trans hcur.symm)
      exact ⟨key, (List.mem_eraseP_of_neg (by simp [SkippedKey.matches, hkn, hne])).mpr hkey, hkp,
        hkn⟩
    · rw [hstate]; exact fun _ _ hr _ => ⟨hr.remote, hr.chain, hr.count, hr.idle⟩
  · obtain ⟨e', he', limit, hr, -⟩ := h.phase.receiver msg.sender.peer
    refine h.receiveOn hsent ?_ ?_ ?_ ?_ ?_
    · rw [hstate]; exact ⟨hid.session, hid.localId, hid.remoteId⟩
    · rw [hstate]; exact ⟨rfl, rfl, rfl, rfl, rfl, rfl⟩
    · rw [hstate]
      intro key hkey
      rcases skippedTo_sound hr hkey with hkey | hkey
      · exact h.sound _ key hkey
      · exact ⟨e', he', hkey⟩
    · intro m' hm' hd hsender hchain hnum
      rw [hstate] at hchain hnum ⊢
      have hne := h.number_ne hsent hm' (hchain.trans hcur.symm)
      have hlt := number_lt_of_ne hnum hne hm
      by_cases hold : m'.number < (c.state msg.sender.peer).receiveCount
      · obtain ⟨key, hkey, hkk⟩ := h.covers hsent m' hm' hd hsender hchain hold
        exact ⟨key, mem_skippedTo_of_mem hkey, hkk⟩
      · obtain ⟨key, hkey, hkp, hkn⟩ := skippedTo_complete (P := P) hk (UInt32.not_lt.mp hold) hlt
        exact ⟨key, hkey, hkp.trans hchain.symm, hkn⟩
    · intro e' n hr hbelow
      have hn := hbelow msg hmem (hcur.trans hr.remote)
      rw [hstate]
      have := hr.openedNext hk hle hm hn
      exact ⟨this.remote, this.chain, this.count, this.idle⟩

/-! ## An envelope of the newest epoch -/

theorem Sync.openNewest (hP : Correct P) {top : Epoch} {eps : List Epoch}
    (h : Sync P sid id c (top :: eps)) (hsent : c.sent = before ++ msg :: after)
    (htop : msg.chain = top.pub)
    (hne : msg.chain ≠ (c.state msg.sender.peer).remoteRatchetPublic) {e : Bytes}
    (hfresh : c.Fresh P e) (ht : c.tryOpen P msg other e = .ok (.prepared t)) :
    ∃ eps', Sync P sid id (c.afterOpen before msg after t) eps' ∧
      Grows P (c.state msg.sender.peer) t.state (top :: eps) eps' := by
  have hmem : msg ∈ c.sent := by rw [hsent]; simp
  obtain ⟨ep, hep, hs⟩ := h.msgs msg hmem
  cases h.unique hep List.mem_cons_self (hs.pub.symm.trans htop)
  obtain ⟨k0, hbytes, ct, hk0, hparse, -⟩ := hs.payload
  have hphase := h.phase
  cases hphase with
  | first owner base sends below idle belowBase hsec hpub root silent count receives =>
    rw [hs.owner, owner] at hne
    exact absurd (htop.trans receives.remote.symm) hne
  | later owner sends below receives sendsPeer belowMid receivesPeer belowLow opened openedPeer =>
    rename_i x mid low rest
    obtain rfl : x = msg.sender := owner.symm.trans hs.owner.symm
    obtain ⟨-, -, dhr, hdr, h32, pub, dhs, hpub, hds, -, m, token, hm, hstate⟩ :=
      opened_newer hparse (htop ▸ hne) ht
    obtain ⟨-, dh, hdh, hroot, hchain⟩ := (List.isChain_cons_cons.mp h.linked).1
    have hcomm := hP.shared_comm (h.keys top (by simp)) (h.keys mid (by simp)) hdh
    obtain rfl : dhr = dh := by
      rw [sendsPeer.secret] at hdr
      exact Except.ok.inj (hdr.symm.trans hcomm)
    have hfp : pub ∉ c.publics := hfresh h32 pub hpub
    let new : Epoch := ⟨msg.sender.peer, Block.ofTake 32 e h32, pub, nextRoot P top.root dhs,
      some (chainStart P top.root dhs), (c.state msg.sender.peer).sendCount⟩
    have hr1 : ∀ limit, Receives P ((c.state msg.sender.peer).ratcheted P
        ⟨sid, top.pub, top.prev, msg.number⟩ dhr (Block.ofTake 32 e h32) pub dhs) top limit :=
      fun limit => ⟨rfl, by simp [RatchetState.ratcheted, hchain, sendsPeer.root], Nat.zero_le _,
        by simp [hchain]⟩
    have hx : (c.afterOpen before msg after t).state msg.sender = c.state msg.sender :=
      Conv.put_of_peer _ _ _
    have hy : (c.afterOpen before msg after t).state msg.sender.peer = t.state := Conv.put_self _ _ _
    have hmsgs := h.msgs
    have hdistinct := h.distinct
    rw [hsent] at hmsgs hdistinct
    have hgrows : Grows P (c.state msg.sender.peer) t.state (top :: mid :: low :: rest)
        (new :: top :: mid :: low :: rest) := by
      have hin : rootInputs P (c.state msg.sender.peer) t.state =
          [((c.state msg.sender.peer).rootKey, dhr), (top.root, dhs)] := by
        rw [hroot, ← sendsPeer.root]
        exact rootInputs_ratcheted (by rw [hstate]; exact htop ▸ hne) (by rw [hstate]; exact hdr)
          (by rw [hstate]; exact hds)
      exact .next (by rw [hin]; simp) rfl rfl
    refine ⟨new :: top :: mid :: low :: rest, ⟨h.session_ne, ?_, ?_, ?_, ?_, ?_, ?_, ?_, ?_, ?_, ?_⟩,
      hgrows⟩
    · have hid := h.ids msg.sender.peer
      refine Conv.put_forall (Q := Identifies sid id) h.ids ?_
      rw [hstate]; exact ⟨hid.session, hid.localId, hid.remoteId⟩
    · intro e' he'
      rcases List.mem_cons.mp he' with rfl | he'
      · exact hpub
      · exact h.keys e' he'
    · have hold : t.state.localRatchetPublic ≠ (c.state msg.sender.peer).localRatchetPublic := by
        rw [hstate, sendsPeer.pub]
        intro (heq : pub = mid.pub)
        exact hfp (h.publics ▸ heq ▸ List.mem_map_of_mem (by simp))
      exact (if_neg hold).trans (by rw [hstate, h.publics]; rfl)
    · exact List.nodup_cons.mpr ⟨h.publics ▸ hfp, h.nodup⟩
    · exact .cons_cons ⟨by rw [← hs.owner], dhs, hds, rfl, rfl⟩ h.linked
    · refine forall_mark (fun h => ?_) fun m' hm' =>
        List.exists_mem_cons_of_exists (hmsgs m' hm')
      obtain ⟨e', he', hs'⟩ := h
      exact ⟨e', he', hs'.mark⟩
    · simpa [Conv.afterOpen] using hdistinct
    · refine Conv.put_forall (Q := fun _ s => ∀ key ∈ s.skipped, ∃ e' ∈ new :: top :: mid :: low ::
        rest, KeyOf P e' key) (fun s' key hkey => ?_) ?_
      · exact List.exists_mem_cons_of_exists (h.sound s' key hkey)
      · intro key hkey
        rw [hstate] at hkey
        rcases skippedTo_sound (hr1 0) hkey with hkey | hkey
        · rcases skippedTo_sound receivesPeer hkey with hkey | hkey
          · exact List.exists_mem_cons_of_exists (h.sound _ key hkey)
          · exact ⟨low, by simp, hkey⟩
        · exact ⟨top, by simp, hkey⟩
    · refine complete_afterOpen h hsent fun m' hm' hd hsender hc hnum => ?_
      rw [hstate] at hc hnum ⊢
      have hne' := h.number_ne hsent hm' (hc.trans htop.symm)
      have hlt := number_lt_of_ne hnum hne' hm
      obtain ⟨key, hkey, hkp, hkn⟩ := skippedTo_complete (P := P) (s := (c.state
        msg.sender.peer).ratcheted P ⟨sid, top.pub, top.prev, msg.number⟩ dhr
        (Block.ofTake 32 e h32) pub dhs) rfl (UInt32.zero_le) hlt
      exact ⟨key, hkey, hkp.trans hc.symm, hkn⟩
    · have hb : ∀ e' n, Below c.sent e' n → Below (c.afterOpen before msg after t).sent e' n :=
        fun e' n hb => by rw [hsent] at hb; exact hb.mark
      have hlt := below msg hmem htop
      refine .later (x := msg.sender.peer) rfl ?_ ?_ ?_ ?_ ?_ ?_ ?_ ?_ ?_
      · rw [hy, hstate]
        exact ⟨rfl, rfl, by simp [RatchetState.openedNext, RatchetState.ratcheted,
          RatchetState.skippedTo, new, hroot, sendsPeer.root], rfl, _, rfl,
          by simp [RatchetState.openedNext, RatchetState.ratcheted, RatchetState.skippedTo, hroot,
            sendsPeer.root]⟩
      · -- no envelope carries the new key yet
        intro m' hm' (hc : m'.chain = pub)
        have hmem' : m'.chain ∈ c.publics :=
          forall_mark (Q := fun m => m.chain ∈ c.publics) (fun hm => hm)
            (fun m hm => h.pub_mem (hsent ▸ hm)) m' hm'
        exact absurd (hc ▸ hmem') hfp
      · rw [Side.peer_peer, hx, hy, hstate]
        have := (hr1 _).openedNext rfl UInt32.zero_le hm hlt
        exact ⟨this.remote, this.chain, this.count, this.idle⟩
      · rw [Side.peer_peer, hx]; exact sends
      · rw [Side.peer_peer, hx]; exact hb _ _ below
      · rw [Side.peer_peer, hx]; exact receives
      · exact hb _ _ belowMid
      · exact fun _ => ⟨{ msg with delivered := true }, by simp [Conv.afterOpen], rfl, hs.owner, htop⟩
      · rw [hsent] at opened; exact opened.mark

end Open

end CommPlatform.L3
