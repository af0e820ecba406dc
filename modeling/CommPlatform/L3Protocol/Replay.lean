import CommPlatform.Core.KeyStore
import CommPlatform.L3Protocol.KeyAgreement

/-!
# No replay inside a session

One end of a session, from `initiate` or `accept_initial` on, against any
envelopes at all. What it can open is a `KeyStore`: the root, the receiving
chain with its counter, and the skipped keys. Every operation on the session
is a sequence of store steps, and opening an envelope uses one key of the
store, so the general fact that a used key is spent applies.
-/
namespace CommPlatform.L3

open CommPlatform.Core L1 L2

/-! ## Runs of one end -/

/-- The session as `initiate` or `accept_initial` first stores it. -/
inductive SetUp (P : CryptoProvider) (s : RatchetState) : Prop
  | initiated {device : DeviceState} {sid rid : Block 16} {peer : PeerBundle}
      {classical : Option OptionalClassicalPrekey} {pq : Option OptionalPqPrekey}
      {authorization inner e envelope : Bytes} {other : UInt32}
      (h : initiate P device sid rid peer classical pq authorization inner other e =
        .ok (s, envelope))
  | accepted {device : DeviceState} {rid : Block 16} {envelope existing replaced : Bytes}
      {token : Key} {sender : AuthenticatedSenderProjection} {acc : AcceptedInitial}
      (h : acceptInitial P device rid envelope token sender existing replaced = .ok acc)
      (session : acc.session = s)

/-- Everything that can happen to a stored session. -/
inductive SessionStep (P : CryptoProvider) (s : RatchetState) : RatchetState → Prop
  | encrypt {rid : Block 16} {inner e : Bytes} {other : UInt32} {t : EncryptedTransition}
      (h : ratchetEncrypt P s rid inner other e = .ok t) : SessionStep P s t.state
  | decrypt {rid : Block 16} {bytes e : Bytes} {other : UInt32} {t : DecryptedTransition}
      (h : ratchetDecrypt P s rid bytes other e = .ok (.prepared t)) : SessionStep P s t.state
  | createRepair {rid : Block 16} {e : Bytes} {other : UInt32} {t : EncryptedTransition}
      (h : createRepair P s rid other e = .ok t) : SessionStep P s t.state
  | consumeRepair {device : DeviceState} {r : RatchetState × Bytes}
      (h : consumeRepairAuthorization P device s = .ok r) : SessionStep P s r.1
  | demote : SessionStep P s s.demoted

/-- Runs of the session `s₀` whose `kdf_root` inputs are in `Q`. -/
def sessionRun (P : CryptoProvider) (s₀ : RatchetState) (Q : Set (Key × Key)) :
    System RatchetState where
  init s := s = s₀
  step s s' := SessionStep P s s' ∧ ∀ q ∈ rootInputs P s s', q ∈ Q

/-! ## The store of a session -/

def storedKey (key : SkippedKey) : Nat × Key := (key.messageNumber.toNat, key.messageKey)

/-- What a session can open. -/
def RatchetState.store (s : RatchetState) : KeyStore Key Key Key :=
  ⟨s.rootKey, s.receivingChain, s.receiveCount.toNat, s.skipped.map storedKey⟩

def StoreSteps (P : CryptoProvider) (Q : Set (Key × Key)) :
    KeyStore Key Key Key → KeyStore Key Key Key → Prop :=
  Relation.ReflTransGen (KeyStore.Step (rootOf P) (chainOf P) (nextChainOf P) (messageKeyOf P) Q)

section Store

variable {P : CryptoProvider} {Q : Set (Key × Key)} {s : RatchetState}

/-- Moving a chain on by `n` messages sets their keys aside. -/
theorem steps_skip (r c : Key) (count n : Nat) (keys : List (Nat × Key)) :
    StoreSteps P Q ⟨r, some c, count, keys⟩ ⟨r, some (advance P c n), count + n,
      ((List.range n).map fun i => (count + i, messageKeyAt P c i)).reverse ++ keys⟩ := by
  induction n with
  | zero => exact .refl
  | succ n ih =>
    refine ih.tail ?_
    rw [advance_succ, List.range_succ, List.map_append, List.reverse_append]
    exact .skip rfl

theorem store_passedKeys (pub : Key) {c : Key} {start k : Nat} (h : start + k ≤ 2 ^ 32) :
    (passedKeys P pub start c k).map storedKey =
      (List.range k).map fun i => (start + i, messageKeyAt P c i) := by
  simp only [passedKeys, List.map_map]
  refine List.map_congr_left fun i hi => ?_
  have hi := List.mem_range.mp hi
  simp only [Function.comp_apply, storedKey, UInt32.toNat_ofNat', Prod.mk.injEq, and_true]
  omega

variable {S : KeyStore Key Key Key}

theorem steps_forget {keys : List (Nat × Key)}
    (h : keys.Subperm S.keys) : StoreSteps P Q S { S with keys := keys } := .single (.forget h)

theorem steps_skippedTo {u : UInt32} (hle : s.receiveCount ≤ u)
    (hnone : s.receivingChain = none → u = s.receiveCount) :
    StoreSteps P Q s.store (s.skippedTo P u).store := by
  have hle' := UInt32.le_iff_toNat_le.mp hle
  have hu := u.toNat_lt
  cases hc : s.receivingChain with
  | none =>
    cases hnone hc
    have heq : (s.skippedTo P s.receiveCount).store =
        { s.store with keys := (sortSkipped s.skipped).map storedKey } := by
      simp [RatchetState.store, RatchetState.skippedTo, hc]
    rw [heq]
    exact steps_forget ((sortSkipped_perm _).map storedKey).subperm
  | some c =>
    have hstart : s.store = ⟨s.rootKey, some c, s.receiveCount.toNat, s.skipped.map storedKey⟩ := by
      rw [RatchetState.store, hc]
    have hskip := steps_skip (P := P) (Q := Q) s.rootKey c s.receiveCount.toNat
      (u.toNat - s.receiveCount.toNat) (s.skipped.map storedKey)
    rw [← hstart, Nat.add_sub_cancel' hle', ← store_passedKeys s.remoteRatchetPublic
      (by omega)] at hskip
    refine hskip.trans ?_
    have heq : (s.skippedTo P u).store = ⟨s.rootKey,
        some (advance P c (u.toNat - s.receiveCount.toNat)), u.toNat, (sortSkipped (s.skipped ++
          passedKeys P s.remoteRatchetPublic s.receiveCount.toNat c
            (u.toNat - s.receiveCount.toNat))).map storedKey⟩ := by
      simp [RatchetState.store, RatchetState.skippedTo, hc]
    rw [heq]
    refine steps_forget (List.Perm.subperm ?_)
    refine ((sortSkipped_perm _).map storedKey).trans ?_
    rw [List.map_append]
    exact List.perm_append_comm.trans ((List.reverse_perm _).symm.append_right _)

/-! ## Operations refine store steps -/

variable {rid : Block 16} {other : UInt32}

theorem steps_encrypt {inner e : Bytes} {t : EncryptedTransition}
    (h : ratchetEncrypt P s rid inner other e = .ok t) (hQ : ∀ q ∈ rootInputs P s t.state, q ∈ Q) :
    StoreSteps P Q s.store t.state.store ∧ t.state.localDeviceId = s.localDeviceId := by
  obtain ⟨-, -, s1, rest, c, m, hs, hc, -, hm, hstate⟩ := ratchetEncrypt_inv h
  rcases startSendingChain_cases hs with ⟨-, rfl, -⟩ | ⟨hnone, _, _, dh, -, hd, rfl, -⟩
  · rw [hstate]; exact ⟨.refl, rfl⟩
  · have hin : (s.rootKey, dh) ∈ Q := by
      refine hQ _ ?_
      rw [rootInputs_started (by rw [hstate]; rfl) hnone (by rw [hstate]; rfl)
        (by rw [hstate]; exact hd)]
      exact List.mem_cons_self
    rw [hstate]
    exact ⟨.single (.derive hin), rfl⟩

theorem perm_eraseP_of_find? {α : Type} {p : α → Bool} {a : α} {l : List α}
    (h : l.find? p = some a) : l.Perm (a :: l.eraseP p) := by
  induction l with
  | nil => cases h
  | cons b l ih =>
    by_cases hb : p b
    · rw [List.find?_cons_of_pos hb] at h
      cases h
      rw [List.eraseP_cons_of_pos hb]
    · rw [List.find?_cons_of_neg hb] at h
      rw [List.eraseP_cons_of_neg hb]
      exact ((ih h).cons b).trans (.swap _ _ _)

variable {t : DecryptedTransition}

theorem opens_next {env : Envelope} {header : RegularHeader} {bytes : Bytes}
    (hS : StoreSteps P Q S s.store) (h : (openNext P s rid env header bytes).result = .ok t) :
    ∃ mk, decryptEnvelope P rid env mk = .ok t.inner ∧
      KeyStore.Opens (rootOf P) (chainOf P) (nextChainOf P) (messageKeyOf P) Q S
        header.messageNumber.toNat mk t.state.store ∧ t.state.localDeviceId = s.localDeviceId := by
  obtain ⟨hle, c, m, hc, -, hm, hdec, hf⟩ := openNext_eq_ok.mp h
  obtain ⟨token, ht⟩ := inspectRepairControl_frame (finishOpen_eq_ok.mp hf).2.2
  have hsteps := hS.trans (steps_skippedTo (P := P) (Q := Q) hle (by simp [hc]))
  have hchain : (s.skippedTo P header.messageNumber).store.chain =
      some (advance P c (header.messageNumber.toNat - s.receiveCount.toNat)) := by
    simp [RatchetState.store, RatchetState.skippedTo, hc]
  have hstore : t.state.store = { (s.skippedTo P header.messageNumber).store with
      chain := some (nextChainOf P (advance P c
        (header.messageNumber.toNat - s.receiveCount.toNat)))
      count := header.messageNumber.toNat + 1 } := by
    rw [ht, ← hm, ← advance_succ]; rfl
  rw [hstore]
  exact ⟨_, hdec, .next hsteps hchain, by rw [ht]; rfl⟩

theorem opens_store {bytes e : Bytes} (h : ratchetDecrypt P s rid bytes other e = .ok (.prepared t))
    (hQ : ∀ q ∈ rootInputs P s t.state, q ∈ Q) :
    ∃ env header mk, Envelope.parse bytes = .ok env ∧ env.header = .regular header ∧
      decryptEnvelope P s.localDeviceId env mk = .ok t.inner ∧
      KeyStore.Opens (rootOf P) (chainOf P) (nextChainOf P) (messageKeyOf P) Q s.store
        header.messageNumber.toNat mk t.state.store ∧ t.state.localDeviceId = s.localDeviceId := by
  obtain ⟨rfl, env, header, hp, hh, -, hcase⟩ := ratchetDecrypt_eq_prepared.mp h
  rcases hcase with ⟨-, -, ho⟩ | ⟨hne, -, -, s1, hr, ho⟩ | ⟨-, -, -, ho⟩
  · obtain ⟨key, hfind, hdec, hf⟩ := openSkipped_eq_ok.mp ho
    obtain ⟨token, ht⟩ := inspectRepairControl_frame (finishOpen_eq_ok.mp hf).2.2
    have hmatch := List.find?_some hfind
    simp only [SkippedKey.matches, decide_eq_true_eq] at hmatch
    refine ⟨env, header, key.messageKey, hp, hh, hdec, ?_, by rw [ht]⟩
    have hperm := (perm_eraseP_of_find? hfind).map storedKey
    rw [List.map_cons, storedKey, hmatch.2] at hperm
    rw [ht]
    exact .stored hperm
  · obtain ⟨hle, hnone, dhr, hdr, h32, pub, dhs, -, hds, rfl⟩ := ratchetReceive_eq_ok.mp hr
    obtain ⟨-, c, m, -, -, -, -, hf⟩ := openNext_eq_ok.mp ho
    obtain ⟨token, ht⟩ := inspectRepairControl_frame (finishOpen_eq_ok.mp hf).2.2
    have hin : rootInputs P s t.state = _ := rootInputs_ratcheted (by rw [ht]; exact hne)
      (by rw [ht]; exact hdr) (by rw [ht]; exact hds)
    rw [hin] at hQ
    have hclosed := steps_skippedTo (P := P) (Q := Q) hle hnone
    have hreceive := hclosed.tail (.receive (hQ (s.rootKey, dhr) (by simp)))
    have hstart := hreceive.tail (.derive (hQ (nextRoot P s.rootKey dhr, dhs) (by simp)))
    obtain ⟨mk, hdec, hopens, hid⟩ := opens_next (s := s.ratcheted P header dhr
      (Block.ofTake 32 e h32) pub dhs) hstart ho
    exact ⟨env, header, mk, hp, hh, hdec, hopens, hid⟩
  · obtain ⟨mk, hdec, hopens, hid⟩ := opens_next .refl ho
    exact ⟨env, header, mk, hp, hh, hdec, hopens, hid⟩

variable {s' : RatchetState}

theorem SessionStep.refines (h : SessionStep P s s') (hQ : ∀ q ∈ rootInputs P s s', q ∈ Q) :
    StoreSteps P Q s.store s'.store ∧ s'.localDeviceId = s.localDeviceId := by
  cases h with
  | encrypt h => exact steps_encrypt h hQ
  | decrypt h =>
    obtain ⟨_, _, _, -, -, -, hopens, hid⟩ := opens_store h hQ
    exact ⟨hopens.steps, hid⟩
  | createRepair h =>
    unfold L3.createRepair at h
    simp only [bind_eq_ok] at h
    obtain ⟨_, -, token, -, h⟩ := h
    exact steps_encrypt (s := { s with issuedRepairToken := some token.1 }) h hQ
  | consumeRepair h =>
    unfold consumeRepairAuthorization at h
    simp only [ok_steps] at h
    obtain ⟨_, -, _, -, _, -, rfl⟩ := h
    exact ⟨.refl, rfl⟩
  | demote => exact ⟨.refl, rfl⟩

/-! ## The invariant -/

abbrev StoreLedger (P : CryptoProvider) (Q : Set (Key × Key)) (r₀ k₀ : Key) :
    KeyStore Key Key Key → List (Key × Key) → Prop :=
  KeyStore.Ledger (rootOf P) (chainOf P) (nextChainOf P) (messageKeyOf P) Q r₀ k₀

theorem SetUp.ledger (h : SetUp P s) : ∃ k,
    (s.sendingChain = some (nextChainOf P k) ∨ s.receivingChain = some (nextChainOf P k)) ∧
      StoreLedger P Q s.rootKey k s.store [(s.rootKey, k)] := by
  cases h with
  | initiated h =>
    obtain ⟨-, -, repair, keys, _, shared, header, dh, transcript, -, -, -, -, -, -, -, rfl⟩ :=
      initiate_inv h
    exact ⟨chainStart P shared dh, .inl rfl, .start, ⟨_, _, rfl⟩, (fun c hc => nomatch hc),
      (fun e he => absurd he List.not_mem_nil), List.nodup_nil,
      (fun e he => absurd he List.not_mem_nil)⟩
  | accepted h hs =>
    obtain ⟨-, probe, header, th, root, k, spk, ex, -, -, -, -, -, -, -, hacc, -⟩ :=
      acceptInitial_inv h
    obtain rfl := hs.symm.trans hacc
    refine ⟨k, .inr rfl, .start, ⟨_, _, rfl⟩, ?_, (fun e he => absurd he List.not_mem_nil),
      List.nodup_nil, (fun e he => absurd he List.not_mem_nil)⟩
    rintro c ⟨⟩
    exact ⟨_, k, List.mem_cons_self, rfl⟩

variable {s₀ : RatchetState} {k₀ : Key}

theorem ledger_inductive (hinj : KeysInjective P)
    (hcol : NoCollision (rootOf P) (chainOf P) Q s₀.rootKey k₀)
    (hstart : StoreLedger P Q s₀.rootKey k₀ s₀.store [(s₀.rootKey, k₀)]) :
    (sessionRun P s₀ Q).Inductive fun s => ∃ l, StoreLedger P Q s₀.rootKey k₀ s.store l where
  init s := by
    rintro rfl
    exact ⟨_, hstart⟩
  step s s' := by
    rintro ⟨l, hl⟩ ⟨hstep, hQ⟩
    obtain ⟨l', hl', -⟩ :=
      KeyStore.keeps_of_steps hinj.nextChain hinj.messageKey hcol (hstep.refines hQ).1 hl
    exact ⟨l', hl'⟩

theorem spent_of_steps (hinj : KeysInjective P)
    (hcol : NoCollision (rootOf P) (chainOf P) Q s₀.rootKey k₀)
    (hrun : Relation.ReflTransGen (sessionRun P s₀ Q).step s s') {l : List (Key × Key)} {k : Key}
    {n : Nat} (hl : StoreLedger P Q s₀.rootKey k₀ s.store l)
    (hs : KeyStore.Spent (nextChainOf P) (messageKeyOf P) s.store l k n) :
    s'.localDeviceId = s.localDeviceId ∧ ∃ l', StoreLedger P Q s₀.rootKey k₀ s'.store l' ∧
      KeyStore.Spent (nextChainOf P) (messageKeyOf P) s'.store l' k n := by
  induction hrun with
  | refl => exact ⟨rfl, l, hl, hs⟩
  | tail _ hstep ih =>
    obtain ⟨hid, l₁, hl₁, hs₁⟩ := ih
    obtain ⟨hsteps, hid'⟩ := hstep.1.refines hstep.2
    obtain ⟨l₂, hl₂, hkeep⟩ :=
      KeyStore.keeps_of_steps hinj.nextChain hinj.messageKey hcol hsteps hl₁
    exact ⟨hid'.trans hid, l₂, hl₂, hkeep k n hs₁⟩

end Store

/-- An envelope that was opened in some state of a session is not opened again, in the state this
leaves or in any later one. -/
theorem no_replay (P : CryptoProvider) (hbind : AeadBinding P) (hinj : KeysInjective P)
    (s₀ : RatchetState) (hsetup : SetUp P s₀) (Q : Set (Key × Key)) (hQ : Collisionless P Q s₀)
    (s : RatchetState) (hs : (sessionRun P s₀ Q).Reachable s) (rid : Block 16) (bytes e : Bytes)
    (other : UInt32) (t : DecryptedTransition)
    (hopen : ratchetDecrypt P s rid bytes other e = .ok (.prepared t))
    (hin : ∀ q ∈ rootInputs P s t.state, q ∈ Q) (s' : RatchetState)
    (hrun : Relation.ReflTransGen (sessionRun P s₀ Q).step t.state s') (rid' : Block 16)
    (e' : Bytes) (other' : UInt32) (t' : DecryptedTransition)
    (hin' : ∀ q ∈ rootInputs P s' t'.state, q ∈ Q) :
    ratchetDecrypt P s' rid' bytes other' e' ≠ .ok (.prepared t') := by
  intro hagain
  obtain ⟨k₀, hk₀, hstart⟩ := hsetup.ledger (Q := Q)
  have hcol := hQ.noCollision hk₀
  obtain ⟨l, hl⟩ := (ledger_inductive hinj hcol hstart).reachable hs
  obtain ⟨env, header, mk, hp, hh, hdec, hopens, hid⟩ := opens_store hopen hin
  obtain ⟨l₁, k, hl₁, hmk, hspent⟩ := hopens.spends hinj.nextChain hinj.messageKey hcol hl
  obtain ⟨hid', l₂, hl₂, hspent₂⟩ := spent_of_steps hinj hcol hrun hl₁ hspent
  obtain ⟨env', header', mk', hp', hh', hdec', hopens', -⟩ := opens_store hagain hin'
  rw [hp] at hp'; cases hp'
  rw [hh] at hh'; cases hh'
  rw [hid', hid] at hdec'
  cases (same_messageKey hbind hinj hdec' hdec).trans hmk
  exact hspent₂.not_opens hinj.nextChain hinj.messageKey hcol hl₂ hopens'

theorem sumInitiated_setUp : SetUp sumProvider sumInitiated := by
  have h := sumHandshake
  simp only [ok_steps, Prod.mk.injEq] at h
  obtain ⟨⟨session, envelope⟩, hinit, _, -, _, -, rfl, -⟩ := h
  exact .initiated hinit

def sumAnswered : CryptoResult (EncryptedTransition × DecryptedTransition × EncryptedTransition) := do
  let answer ← ratchetEncrypt sumProvider sumAccepted (Block.fill 16 1) [2] 0
    (List.replicate 1024 7)
  match ← ratchetDecrypt sumProvider sumInitiated (Block.fill 16 1) answer.envelope 0
    (List.replicate 32 8) with
  | .repairRequired => .error .stateViolation
  | .prepared t => do
    let later ← ratchetEncrypt sumProvider t.state (Block.fill 16 2) [3] 0 (List.replicate 1024 9)
    return (answer, t, later)

theorem sumAnswered_bounded : sumAnswered.toOption.any (fun r =>
    (rootInputs sumProvider sumInitiated r.2.1.state).all (· ∈ sumInputs) &&
    (rootInputs sumProvider r.2.1.state r.2.2.state).all (· ∈ sumInputs)) = true := by
  decide +kernel

/-- The answer does not open again. -/
theorem no_replay_sumAnswered : ∃ answer t later, sumAnswered = .ok (answer, t, later) ∧
    ∀ e other t', (∀ q ∈ rootInputs sumProvider later.state t'.state, q ∈ sumInputs) →
      ratchetDecrypt sumProvider later.state (Block.fill 16 1) answer.envelope other e ≠
        .ok (.prepared t') := by
  obtain ⟨⟨answer, t, later⟩, hok, hin⟩ := exists_ok_of_any sumAnswered_bounded
  simp only [Bool.and_eq_true, List.all_eq_true, decide_eq_true_eq] at hin
  have h := hok
  simp only [sumAnswered, bind_eq_ok] at h
  obtain ⟨answer', -, outcome, hopen, h⟩ := h
  cases outcome with
  | repairRequired => cases h
  | prepared t' =>
    simp only [ok_steps, Prod.mk.injEq] at h
    obtain ⟨later', hlater, rfl, rfl, rfl⟩ := h
    refine ⟨answer', t', later', hok, fun e other t'' hin' => ?_⟩
    exact no_replay sumProvider sumProvider_binding sumProvider_injective sumInitiated
      sumInitiated_setUp (fun q => q ∈ sumInputs) sumInputs_collisionless sumInitiated (.init rfl) _
      answer'.envelope _ 0 t' hopen hin.1 later'.state (.single ⟨.encrypt hlater, hin.2⟩) _ e other
      t'' hin'

end CommPlatform.L3
