import CommPlatform.L3Protocol.Ratchet

/-!
# What one ratchet operation does

Inversion lemmas for `Ratchet`: each says everything a successful call
implies about its inputs and its result, guards included, so proofs about
runs never unfold the operations.

* `ratchetEncrypt_inv`, `startSendingChain_cases`: a send either extends the
  sending chain or starts one with a fresh key.
-/
namespace CommPlatform.L3

open CommPlatform.Core L1 L2
open Counted (result_steps)

/-! ## Chains -/

def advance (P : CryptoProvider) (c : Key) (n : Nat) : Key := (nextChainOf P)^[n] c

def messageKeyAt (P : CryptoProvider) (c : Key) (n : Nat) : Key := messageKeyOf P (advance P c n)

@[simp] theorem advance_zero (P : CryptoProvider) (c : Key) : advance P c 0 = c := rfl

theorem advance_succ (P : CryptoProvider) (c : Key) (n : Nat) :
    advance P c (n + 1) = nextChainOf P (advance P c n) := Function.iterate_succ_apply' _ _ _

theorem advance_next (P : CryptoProvider) (c : Key) (n : Nat) :
    advance P (nextChainOf P c) n = advance P c (n + 1) := (Function.iterate_succ_apply _ _ _).symm

theorem advance_advance (P : CryptoProvider) (c : Key) (m n : Nat) :
    advance P (advance P c m) n = advance P c (m + n) := by
  unfold advance
  rw [Nat.add_comm, Function.iterate_add_apply]

theorem messageKeyAt_advance (P : CryptoProvider) (c : Key) (m n : Nat) :
    messageKeyAt P (advance P c m) n = messageKeyAt P c (m + n) := by
  unfold messageKeyAt; rw [advance_advance]

/-! ## Counters -/

variable {n m : UInt32}

theorem checkedSucc_eq_ok :
    checkedSucc n = .ok m ↔ n.toNat + 1 < 2 ^ 32 ∧ m.toNat = n.toNat + 1 := by
  unfold checkedSucc
  split <;> rename_i h
  · have hs : (n + 1).toNat = n.toNat + 1 := by
      rw [UInt32.toNat_add]; simp; omega
    simp only [Except.ok.injEq, h, true_and]
    constructor
    · rintro rfl; exact hs
    · intro hm; exact UInt32.toNat_inj.mp (hs.trans hm.symm)
  · simp only [reduceCtorEq, h, false_and]

theorem checkedSucc_of_lt {n : UInt32} (h : n.toNat + 1 < 2 ^ 32) :
    ∃ m, checkedSucc n = .ok m ∧ m.toNat = n.toNat + 1 := by
  refine ⟨n + 1, if_pos h, ?_⟩
  rw [UInt32.toNat_add]; simp; omega

theorem sub_one_of_succ (h : m.toNat = n.toNat + 1) : m - 1 = n := by
  have h1 : (1 : UInt32) ≤ m := UInt32.le_iff_toNat_le.mpr (by simp [h])
  rw [← UInt32.toNat_inj, UInt32.toNat_sub_of_le _ _ h1, h]; rfl

/-! ## Skipped keys -/

/-- The keys the skip loop stores: messages `start, …, start + k - 1` of the chain at `c`. -/
def passedKeys (P : CryptoProvider) (ratchetPublic : Key) (start : Nat) (c : Key) (k : Nat) :
    List SkippedKey :=
  (List.range k).map fun i => ⟨ratchetPublic, UInt32.ofNat (start + i), messageKeyAt P c i⟩

variable {P : CryptoProvider}

theorem passedKeys_succ (P : CryptoProvider) (pub : Key) (start : Nat) (c : Key) (k : Nat) :
    passedKeys P pub start c (k + 1) =
      ⟨pub, UInt32.ofNat start, messageKeyOf P c⟩ ::
        passedKeys P pub (start + 1) (nextChainOf P c) k := by
  unfold passedKeys
  rw [List.range_succ_eq_map, List.map_cons, List.map_map]
  congr 1
  apply List.map_congr_left
  intro i _
  simp only [Function.comp_apply, messageKeyAt, ← advance_next]
  congr 2
  omega

variable {key : SkippedKey}

theorem mem_passedKeys {pub : Key} {start : Nat} {c : Key} {k : Nat} :
    key ∈ passedKeys P pub start c k ↔
      ∃ i, i < k ∧ key = ⟨pub, UInt32.ofNat (start + i), messageKeyAt P c i⟩ := by
  simp [passedKeys, eq_comm]

theorem sortSkipped_perm (keys : List SkippedKey) : (sortSkipped keys).Perm keys :=
  List.perm_insertionSort _ keys

@[simp] theorem mem_sortSkipped {keys : List SkippedKey} :
    key ∈ sortSkipped keys ↔ key ∈ keys := (sortSkipped_perm keys).mem_iff

/-- The state after the receiving chain was moved on to message `u`, keeping the passed keys. -/
def RatchetState.skippedTo (P : CryptoProvider) (s : RatchetState) (u : UInt32) : RatchetState :=
  { s with
    skipped := sortSkipped (s.skipped ++ s.receivingChain.elim [] fun c =>
      passedKeys P s.remoteRatchetPublic s.receiveCount.toNat c
        (u.toNat - s.receiveCount.toNat))
    receivingChain := s.receivingChain.map fun c => advance P c (u.toNat - s.receiveCount.toNat)
    receiveCount := u }

theorem skipLoop_eq (P : CryptoProvider) (k : Nat) (s : RatchetState) (c : Key)
    (hc : s.receivingChain = some c) (hk : s.receiveCount.toNat + k < 2 ^ 32) :
    (skipLoop P k s).result = .ok { s with
      skipped := s.skipped ++ passedKeys P s.remoteRatchetPublic s.receiveCount.toNat c k
      receivingChain := some (advance P c k)
      receiveCount := UInt32.ofNat (s.receiveCount.toNat + k) } := by
  induction k generalizing s c with
  | zero => simp [skipLoop, result_steps, passedKeys, ← hc]
  | succ k ih =>
    obtain ⟨m, hm, hmn⟩ := checkedSucc_of_lt (n := s.receiveCount) (by omega)
    simp only [skipLoop, result_steps, hc, okOr_some, ok_bind, chainStep_eq, hm]
    rw [ih _ _ rfl]
    · simp only [hmn, passedKeys_succ, advance_next, List.append_assoc, List.cons_append,
        List.nil_append, UInt32.ofNat_toNat]
      congr 3
      omega
    · simp only [hmn]; omega

theorem skipLoop_none (P : CryptoProvider) (k : Nat) (s : RatchetState)
    (hc : s.receivingChain = none) (s' : RatchetState) :
    (skipLoop P k s).result = .ok s' ↔ k = 0 ∧ s' = s := by
  cases k with
  | zero => simp [skipLoop, result_steps, eq_comm]
  | succ k => simp [skipLoop, result_steps, hc]

variable {s s' : RatchetState}

/-- `skip_receiving_keys` succeeds exactly when the target is not behind the counter and there is
a chain to move (or nothing to move). -/
theorem skipReceivingKeys_eq_ok {u : UInt32} : (skipReceivingKeys P s u).result = .ok s' ↔
      s.receiveCount ≤ u ∧ (s.receivingChain = none → u = s.receiveCount) ∧
        s' = s.skippedTo P u := by
  have hu := u.toNat_lt
  unfold skipReceivingKeys
  simp only [result_steps, ok_steps, UInt32.not_lt, exists_const]
  refine and_congr_right fun hle => ?_
  have hle' := UInt32.le_iff_toNat_le.mp hle
  cases hc : s.receivingChain with
  | none =>
    have hk : u.toNat - s.receiveCount.toNat = 0 ↔ u = s.receiveCount := by
      rw [← UInt32.toNat_inj]; omega
    simp only [skipLoop_none P _ s hc, hk, RatchetState.skippedTo, hc, Option.elim_none,
      List.append_nil, Option.map_none, forall_const]
    constructor
    · rintro ⟨a, ⟨rfl, rfl⟩, rfl⟩
      exact ⟨rfl, by rw [← hc]⟩
    · rintro ⟨rfl, rfl⟩
      exact ⟨s, ⟨rfl, rfl⟩, by rw [← hc]⟩
  | some c =>
    have hr : s.receiveCount.toNat + (u.toNat - s.receiveCount.toNat) = u.toNat := by omega
    rw [skipLoop_eq P _ s c hc (by omega)]
    simp only [Except.ok.injEq, hr, UInt32.ofNat_toNat, RatchetState.skippedTo, hc,
      Option.elim_some, Option.map_some, reduceCtorEq, false_implies, true_and, exists_eq_left']
    exact eq_comm

/-! ## Sealing -/

/-- The state after a party drew the ratchet key `secret` for its next sending chain. -/
def RatchetState.withSendingKey (P : CryptoProvider) (s : RatchetState) (secret pub dh : Key) :
    RatchetState :=
  { s with
    rootKey := nextRoot P s.rootKey dh
    sendingChain := some (chainStart P s.rootKey dh)
    localRatchetSecret := secret
    localRatchetPublic := pub
    previousSendCount := s.sendCount
    sendCount := 0 }

theorem startSendingChain_cases {e rest : Bytes} (h : startSendingChain P s e = .ok (s', rest)) :
    (s.sendingChain.isSome ∧ s' = s ∧ rest = e) ∨
      (s.sendingChain = none ∧ ∃ (h32 : 32 ≤ e.length) (pub dh : Key),
        P.x25519Public (Block.ofTake 32 e h32) = .ok pub ∧
        P.x25519Shared (Block.ofTake 32 e h32) s.remoteRatchetPublic = .ok dh ∧
        s' = s.withSendingKey P (Block.ofTake 32 e h32) pub dh ∧ rest = e.drop 32) := by
  unfold startSendingChain at h
  cases hc : s.sendingChain with
  | some c =>
    simp only [hc, Except.ok.injEq, Prod.mk.injEq] at h
    exact .inl ⟨rfl, h.1.symm, h.2.symm⟩
  | none =>
    simp only [hc, ok_steps, kdfRoot_eq, Prod.mk.injEq] at h
    obtain ⟨⟨secret, rest'⟩, hr, pub, hp, dh, hd, _, rfl, rfl, rfl⟩ := h
    obtain ⟨h32, rfl, rfl⟩ := randomArray_eq_ok.mp hr
    exact .inr ⟨rfl, h32, pub, dh, hp, hd, rfl, rfl⟩

variable {s : RatchetState} {recipient : Block 16} {other : UInt32}

/-- Everything a successful `ratchet_encrypt` does: start a chain if there is none, seal under its
next key, move the chain on. -/
theorem ratchetEncrypt_inv {inner e : Bytes} {t : EncryptedTransition}
    (h : ratchetEncrypt P s recipient inner other e = .ok t) :
    s.receiveOnly = false ∧ s.remoteDeviceId = recipient ∧
      ∃ s1 rest c m, startSendingChain P s e = .ok (s1, rest) ∧ s1.sendingChain = some c ∧
        encryptEnvelope P recipient (regularHeaderBytes s1) (messageKeyOf P c) inner rest =
          .ok t.envelope ∧
        m.toNat = s1.sendCount.toNat + 1 ∧
        t.state = { s1 with sendingChain := some (nextChainOf P c), sendCount := m } := by
  unfold ratchetEncrypt at h
  simp only [ok_steps, okOr_eq_ok, chainStep_eq, checkedSucc_eq_ok, not_or, not_not] at h
  obtain ⟨_, ⟨hro, hrem, -⟩, ⟨s1, rest⟩, hs, c, hc, _, rfl, env, he, m, ⟨-, hm⟩, rfl⟩ := h
  exact ⟨by simpa using hro, hrem, s1, rest, c, m, hs, hc, he, hm, rfl⟩

/-! ## Opening -/

variable {inner : Bytes} {kind : UInt8} (h : inspectRepairControl s inner = .ok (s', kind))
include h

/-- A payload without the control magic passes unchanged; a control for this session stores its
token, if none was held. -/
theorem inspectRepairControl_cases :
    (s' = s ∧ kind = 0) ∨ (s.receivedRepairToken = none ∧ kind = 1 ∧
      repairControlMagic.isPrefixOf inner = true ∧
      ∃ token, s' = { s with receivedRepairToken := some token }) := by
  unfold inspectRepairControl at h
  split at h
  · simp only [Except.ok.injEq, Prod.mk.injEq] at h
    exact .inl ⟨h.1.symm, h.2.symm⟩
  · rename_i hp
    simp only [ok_steps, Prod.mk.injEq, not_or, not_not, Option.not_isSome_iff_eq_none] at h
    obtain ⟨_, -, control, -, _, ⟨-, hnone⟩, rfl, rfl⟩ := h
    exact .inr ⟨hnone, rfl, not_not.mp hp, control.2, rfl⟩

theorem inspectRepairControl_frame :
    ∃ token, s' = { s with receivedRepairToken := token } := by
  rcases inspectRepairControl_cases h with ⟨rfl, -⟩ | ⟨-, -, -, token, rfl⟩
  · exact ⟨_, rfl⟩
  · exact ⟨_, rfl⟩

omit h

theorem inspectRepairControl_congr {s t : RatchetState}
    (h : ∃ r, inspectRepairControl s inner = .ok r) (hid : s.sessionId = t.sessionId)
    (htok : s.receivedRepairToken = t.receivedRepairToken) :
    ∃ r, inspectRepairControl t inner = .ok r := by
  obtain ⟨r, h⟩ := h
  unfold inspectRepairControl at h ⊢
  split
  · exact ⟨_, rfl⟩
  · rename_i hp
    rw [if_neg hp] at h
    simp only [ok_steps] at h ⊢
    obtain ⟨_, h1, control, h2, _, h3, -⟩ := h
    exact ⟨_, (), h1, control, h2, (), hid ▸ htok ▸ h3, rfl⟩

variable {t : DecryptedTransition}

theorem finishOpen_eq_ok {inner bytes : Bytes} : finishOpen P s inner bytes = .ok t ↔
      t.inner = inner ∧ P.sha256 bytes = .ok t.replayMarker ∧
        inspectRepairControl s inner = .ok (t.state, t.payloadKind) := by
  unfold finishOpen
  simp only [ok_steps]
  constructor
  · rintro ⟨⟨s', k⟩, hi, m, hm, rfl⟩
    exact ⟨rfl, hm, hi⟩
  · rintro ⟨rfl, hm, hi⟩
    exact ⟨_, hi, _, hm, rfl⟩

theorem finishOpen_total (hP : Correct P)
    {inner bytes : Bytes} (hi : ∃ r, inspectRepairControl s inner = .ok r)
    (hb : bytes.length ≤ maxInputBytes) :
    ∃ t, t.inner = inner ∧ finishOpen P s inner bytes = .ok t := by
  obtain ⟨⟨s', kind⟩, hi⟩ := hi
  obtain ⟨marker, hm⟩ := hP.sha256_total bytes hb
  exact ⟨⟨s', inner, marker, kind⟩, rfl, finishOpen_eq_ok.mpr ⟨rfl, hm, hi⟩⟩

/-- The state after message `n` of the receiving chain at `c` was opened. -/
def RatchetState.openedNext (P : CryptoProvider) (s : RatchetState) (c : Key) (n m : UInt32) :
    RatchetState :=
  { s.skippedTo P n with
    receivingChain := some (advance P c (n.toNat - s.receiveCount.toNat + 1))
    receiveCount := m }

variable {env : Envelope} {header : RegularHeader} {bytes : Bytes}

theorem openNext_eq_ok : (openNext P s recipient env header bytes).result = .ok t ↔
      s.receiveCount ≤ header.messageNumber ∧ ∃ c m, s.receivingChain = some c ∧
        header.messageNumber.toNat + 1 < 2 ^ 32 ∧ m.toNat = header.messageNumber.toNat + 1 ∧
        decryptEnvelope P recipient env (messageKeyAt P c
          (header.messageNumber.toNat - s.receiveCount.toNat)) = .ok t.inner ∧
        finishOpen P (s.openedNext P c header.messageNumber m) t.inner bytes = .ok t := by
  unfold openNext
  simp only [result_steps, ok_steps, skipReceivingKeys_eq_ok, okOr_eq_ok, chainStep_eq,
    checkedSucc_eq_ok]
  constructor
  · rintro ⟨_, ⟨hle, -, rfl⟩, c', hc', _, rfl, inner, hd, m, ⟨hlt, hm⟩, hf⟩
    obtain ⟨c, hc, rfl⟩ := Option.map_eq_some_iff.mp hc'
    have hi : t.inner = inner := (finishOpen_eq_ok.mp hf).1
    rw [← hi] at hd hf
    rw [← advance_succ] at hf
    exact ⟨hle, c, m, hc, hlt, hm, hd, hf⟩
  · rintro ⟨hle, c, m, hc, hlt, hm, hd, hf⟩
    refine ⟨_, ⟨hle, by simp [hc], rfl⟩, _, Option.map_eq_some_iff.mpr ⟨c, hc, rfl⟩, _, rfl, _, hd,
      m, ⟨hlt, hm⟩, ?_⟩
    rw [← advance_succ]; exact hf

/-- The state after the Diffie-Hellman ratchet of a receive: `dhReceive` with the old local key,
then the fresh key `secret` and `dhSend`. -/
def RatchetState.ratcheted (P : CryptoProvider) (s : RatchetState) (header : RegularHeader)
    (dhReceive secret pub dhSend : Key) : RatchetState :=
  { s.skippedTo P header.previousChainLength with
    previousSendCount := s.sendCount
    sendCount := 0
    receiveCount := 0
    remoteRatchetPublic := header.ratchetPublic
    rootKey := nextRoot P (nextRoot P s.rootKey dhReceive) dhSend
    receivingChain := some (chainStart P s.rootKey dhReceive)
    sendingChain := some (chainStart P (nextRoot P s.rootKey dhReceive) dhSend)
    localRatchetSecret := secret
    localRatchetPublic := pub }

theorem ratchetReceive_eq_ok {e : Bytes} : (ratchetReceive P s header e).result = .ok s' ↔
      s.receiveCount ≤ header.previousChainLength ∧
      (s.receivingChain = none → header.previousChainLength = s.receiveCount) ∧
      ∃ dhReceive, P.x25519Shared s.localRatchetSecret header.ratchetPublic = .ok dhReceive ∧
      ∃ (h32 : 32 ≤ e.length) (pub dhSend : Key),
        P.x25519Public (Block.ofTake 32 e h32) = .ok pub ∧
        P.x25519Shared (Block.ofTake 32 e h32) header.ratchetPublic = .ok dhSend ∧
        s' = s.ratcheted P header dhReceive (Block.ofTake 32 e h32) pub dhSend := by
  unfold ratchetReceive
  simp only [result_steps, ok_steps, skipReceivingKeys_eq_ok, kdfRoot_eq]
  constructor
  · rintro ⟨_, ⟨hle, hn, rfl⟩, dhr, hr, _, rfl, ⟨secret, rest⟩, he, pub, hp, dhs, hs, _, rfl, rfl⟩
    obtain ⟨h32, rfl, -⟩ := randomArray_eq_ok.mp he
    exact ⟨hle, hn, dhr, hr, h32, pub, dhs, hp, hs, rfl⟩
  · rintro ⟨hle, hn, dhr, hr, h32, pub, dhs, hp, hs, rfl⟩
    exact ⟨_, ⟨hle, hn, rfl⟩, dhr, hr, _, rfl, _, randomArray_of_le h32, pub, hp, dhs, hs, _, rfl,
      rfl⟩

theorem openSkipped_eq_ok :
    openSkipped P s recipient env header bytes = .ok t ↔
      ∃ key, s.skipped.find? (·.matches header) = some key ∧
        decryptEnvelope P recipient env key.messageKey = .ok t.inner ∧
        finishOpen P { s with skipped := s.skipped.eraseP (·.matches header) } t.inner bytes =
          .ok t := by
  unfold openSkipped
  simp only [bind_eq_ok, okOr_eq_ok]
  constructor
  · rintro ⟨key, hk, inner, hd, hf⟩
    have hi : t.inner = inner := (finishOpen_eq_ok.mp hf).1
    rw [← hi] at hd hf
    exact ⟨key, hk, hd, hf⟩
  · rintro ⟨key, hk, hd, hf⟩
    exact ⟨key, hk, _, hd, hf⟩

/-- The three ways `ratchet_decrypt` opens an envelope. -/
theorem ratchetDecrypt_eq_prepared {bytes e : Bytes} :
    ratchetDecrypt P s recipient bytes other e = .ok (.prepared t) ↔
      s.localDeviceId = recipient ∧ ∃ env header, Envelope.parse bytes = .ok env ∧
        env.header = .regular header ∧ header.sessionId = s.sessionId ∧
        ((header.ratchetPublic = s.remoteRatchetPublic ∧ header.messageNumber < s.receiveCount ∧
            openSkipped P s recipient env header bytes = .ok t) ∨
          (header.ratchetPublic ≠ s.remoteRatchetPublic ∧
            s.receiveCount ≤ header.previousChainLength ∧
            projectedSkipWithinBounds s (header.previousChainLength.toNat - s.receiveCount.toNat +
              header.messageNumber.toNat) other = true ∧
            ∃ s1, (ratchetReceive P s header e).result = .ok s1 ∧
              (openNext P s1 recipient env header bytes).result = .ok t) ∨
          (header.ratchetPublic = s.remoteRatchetPublic ∧ s.receiveCount ≤ header.messageNumber ∧
            projectedSkipWithinBounds s (header.messageNumber.toNat - s.receiveCount.toNat) other =
              true ∧
            (openNext P s recipient env header bytes).result = .ok t)) := by
  unfold ratchetDecrypt countedDecrypt
  simp only [result_steps, ok_steps, not_not, exists_const]
  refine and_congr_right fun _ => exists_congr fun env => ?_
  cases hh : env.header with
  | initial _ => simp [result_steps]
  | regular header =>
    simp only [result_steps, ok_steps, not_not, exists_const, receiveRegular]
    by_cases hpub : header.ratchetPublic = s.remoteRatchetPublic
    · by_cases hlt : header.messageNumber < s.receiveCount
      · simp [hpub, hlt, ok_steps, ← UInt32.not_lt]
      · cases hb : projectedSkipWithinBounds s
          (header.messageNumber.toNat - s.receiveCount.toNat) other <;>
          simp [hpub, hlt, hb, ok_steps, ← UInt32.not_lt]
    · cases hb : projectedSkipWithinBounds s (header.previousChainLength.toNat -
          s.receiveCount.toNat + header.messageNumber.toNat) other <;>
        simp [hpub, hb, ok_steps, ← UInt32.not_lt]

/-! ## The state after an opening -/

theorem ratchetDecrypt_opens {bytes e : Bytes}
    (h : ratchetDecrypt P s recipient bytes other e = .ok (.prepared t)) :
    ∃ s₁ chain count skipped, (s₁ = s ∨ ∃ header dhReceive secret pub dhSend,
        s₁ = s.ratcheted P header dhReceive secret pub dhSend) ∧
      inspectRepairControl { s₁ with receivingChain := chain, receiveCount := count, skipped }
        t.inner = .ok (t.state, t.payloadKind) := by
  obtain ⟨-, env, header, -, -, -, hcase⟩ := ratchetDecrypt_eq_prepared.mp h
  rcases hcase with ⟨-, -, ho⟩ | ⟨-, -, -, s1, hr, ho⟩ | ⟨-, -, -, ho⟩
  · obtain ⟨key, -, -, hf⟩ := openSkipped_eq_ok.mp ho
    exact ⟨s, s.receivingChain, s.receiveCount, _, .inl rfl, (finishOpen_eq_ok.mp hf).2.2⟩
  · obtain ⟨-, _, _, -, _, _, _, -, -, rfl⟩ := ratchetReceive_eq_ok.mp hr
    obtain ⟨-, k, m, -, -, -, -, hf⟩ := openNext_eq_ok.mp ho
    exact ⟨_, _, _, _, .inr ⟨_, _, _, _, _, rfl⟩, (finishOpen_eq_ok.mp hf).2.2⟩
  · obtain ⟨-, k, m, -, -, -, -, hf⟩ := openNext_eq_ok.mp ho
    exact ⟨s, _, _, _, .inl rfl, (finishOpen_eq_ok.mp hf).2.2⟩

section Opened

variable {P : CryptoProvider} {s : RatchetState} {recipient : Block 16} {bytes e : Bytes}
  {other : UInt32} {t : DecryptedTransition} {headerBytes ct : Bytes} {header : RegularHeader}
  (hp : Envelope.parse bytes = .ok ⟨headerBytes, .regular header, ct⟩)
include hp

theorem opened_current (hpub : header.ratchetPublic = s.remoteRatchetPublic)
    (h : ratchetDecrypt P s recipient bytes other e = .ok (.prepared t)) :
    ∃ token, (header.messageNumber < s.receiveCount ∧
        t.state = { s with
          skipped := s.skipped.eraseP (·.matches header), receivedRepairToken := token }) ∨
      (s.receiveCount ≤ header.messageNumber ∧ ∃ k m, s.receivingChain = some k ∧
        m.toNat = header.messageNumber.toNat + 1 ∧
        t.state = { s.openedNext P k header.messageNumber m with receivedRepairToken := token }) := by
  obtain ⟨-, env, header', hp', hh, -, hcase⟩ := ratchetDecrypt_eq_prepared.mp h
  rw [hp] at hp'; cases hp'
  cases hh
  rcases hcase with ⟨-, hlt, ho⟩ | ⟨hne, -⟩ | ⟨-, hle, -, ho⟩
  · obtain ⟨key, -, -, hf⟩ := openSkipped_eq_ok.mp ho
    obtain ⟨token, ht⟩ := inspectRepairControl_frame (finishOpen_eq_ok.mp hf).2.2
    exact ⟨token, .inl ⟨hlt, ht⟩⟩
  · exact absurd hpub hne
  · obtain ⟨-, k, m, hk, -, hm, -, hf⟩ := openNext_eq_ok.mp ho
    obtain ⟨token, ht⟩ := inspectRepairControl_frame (finishOpen_eq_ok.mp hf).2.2
    exact ⟨token, .inr ⟨hle, k, m, hk, hm, ht⟩⟩

/-- Opening an envelope with another ratchet key closes the current chain, derives the two next
roots and takes the message key from the chain between them. -/
theorem opened_newer (hpub : header.ratchetPublic ≠ s.remoteRatchetPublic)
    (h : ratchetDecrypt P s recipient bytes other e = .ok (.prepared t)) :
    s.receiveCount ≤ header.previousChainLength ∧
      (s.receivingChain = none → header.previousChainLength = s.receiveCount) ∧
      ∃ dhReceive, P.x25519Shared s.localRatchetSecret header.ratchetPublic = .ok dhReceive ∧
      ∃ (h32 : 32 ≤ e.length) (pub dhSend : Key),
        P.x25519Public (Block.ofTake 32 e h32) = .ok pub ∧
        P.x25519Shared (Block.ofTake 32 e h32) header.ratchetPublic = .ok dhSend ∧
        decryptEnvelope P recipient ⟨headerBytes, .regular header, ct⟩
          (messageKeyAt P (chainStart P s.rootKey dhReceive) header.messageNumber.toNat) =
          .ok t.inner ∧
        ∃ m token, m.toNat = header.messageNumber.toNat + 1 ∧
          t.state = { (s.ratcheted P header dhReceive (Block.ofTake 32 e h32) pub dhSend).openedNext
            P (chainStart P s.rootKey dhReceive) header.messageNumber m with
            receivedRepairToken := token } := by
  obtain ⟨-, env, header', hp', hh, -, hcase⟩ := ratchetDecrypt_eq_prepared.mp h
  rw [hp] at hp'; cases hp'
  cases hh
  rcases hcase with ⟨heq, -⟩ | ⟨-, hle, -, s1, hr, ho⟩ | ⟨heq, -⟩
  · exact absurd heq hpub
  · obtain ⟨-, hnone, dhr, hdr, h32, pub, dhs, hpub, hds, rfl⟩ := ratchetReceive_eq_ok.mp hr
    obtain ⟨-, k, m, hk, -, hm, hdec, hf⟩ := openNext_eq_ok.mp ho
    obtain ⟨token, ht⟩ := inspectRepairControl_frame (finishOpen_eq_ok.mp hf).2.2
    cases hk
    exact ⟨hle, hnone, dhr, hdr, h32, pub, dhs, hpub, hds, hdec, m, token, hm, ht⟩
  · exact absurd heq hpub

end Opened

end CommPlatform.L3
