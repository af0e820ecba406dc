import CommPlatform.Core.Derivation
import CommPlatform.L3Protocol.RatchetStep

/-!
# Which keys a session can derive

What the results about duplicates and replays ask of the key derivation:
the two HMAC steps of a chain and the AEAD material are injective in their
key, and `kdf_root` has no collisions on the inputs a run gives it. Its
output is shorter than its input, so it cannot be injective on everything;
`rootInputs` says which inputs one operation adds.

* `messageKeyAt_inj`: two chains with the same key at one number are one
  chain.
* `rootInputs_started`, `rootInputs_ratcheted`: the inputs of a chain start
  and of the ratchet of a receive.
-/
namespace CommPlatform.L3

open CommPlatform.Core L1 L2

/-! ## Injective steps -/

structure KeysInjective (P : CryptoProvider) : Prop where
  messageKey : Function.Injective (messageKeyOf P)
  nextChain : Function.Injective (nextChainOf P)
  aead : Function.Injective (aeadOf P)

variable {P : CryptoProvider}

theorem messageKeyAt_inj (hP : KeysInjective P) {c c' : Key} {n : Nat}
    (h : messageKeyAt P c n = messageKeyAt P c' n) : c = c' :=
  hP.nextChain.iterate n (hP.messageKey h)

variable {recipient : Block 16} {env : Envelope}

theorem decryptEnvelope_opens
    {key : Key} {inner : Bytes} (h : decryptEnvelope P recipient env key = .ok inner) :
    ∃ aad p, envelopeAad recipient env.headerBytes = .ok aad ∧
      P.xchacha20poly1305Decrypt (aeadOf P key).1 (aeadOf P key).2 env.ciphertext aad = .ok p := by
  unfold decryptEnvelope at h
  simp only [ok_steps, aeadMaterial_eq] at h
  obtain ⟨_, rfl, aad, ha, p, hp, -⟩ := h
  exact ⟨aad, p, ha, hp⟩

/-- An envelope opens for its recipient under one message key only. -/
theorem same_messageKey (hbind : AeadBinding P) (hinj : KeysInjective P)
    {key key' : Key} {inner inner' : Bytes}
    (h : decryptEnvelope P recipient env key = .ok inner)
    (h' : decryptEnvelope P recipient env key' = .ok inner') : key = key' := by
  obtain ⟨aad, p, ha, hp⟩ := decryptEnvelope_opens h
  obtain ⟨aad', p', ha', hp'⟩ := decryptEnvelope_opens h'
  rw [ha] at ha'; cases ha'
  obtain ⟨hk, hn⟩ := hbind _ _ _ _ _ _ _ _ hp hp'
  exact hinj.aead (Prod.ext hk hn)

/-! ## The inputs of `kdf_root` -/

def rootOf (P : CryptoProvider) (q : Key × Key) : Key := nextRoot P q.1 q.2

def chainOf (P : CryptoProvider) (q : Key × Key) : Key := chainStart P q.1 q.2

/-- What `kdf_root` is called on when a session goes from `s` to `s'`: twice for a new remote
ratchet key, once when a sending chain was started, otherwise not at all. -/
def rootInputs (P : CryptoProvider) (s s' : RatchetState) : List (Key × Key) :=
  if s'.remoteRatchetPublic = s.remoteRatchetPublic then
    if s.sendingChain.isNone ∧ s'.sendingChain.isSome then
      match P.x25519Shared s'.localRatchetSecret s.remoteRatchetPublic with
      | .ok dh => [(s.rootKey, dh)]
      | .error _ => []
    else []
  else
    match P.x25519Shared s.localRatchetSecret s'.remoteRatchetPublic,
      P.x25519Shared s'.localRatchetSecret s'.remoteRatchetPublic with
    | .ok dhReceive, .ok dhSend => [(s.rootKey, dhReceive), (nextRoot P s.rootKey dhReceive, dhSend)]
    | _, _ => []

section Inputs

variable {P : CryptoProvider} {s s' : RatchetState} {dh dhReceive dhSend : Key}

theorem rootInputs_started (hr : s'.remoteRatchetPublic = s.remoteRatchetPublic)
    (hn : s.sendingChain = none) (hs : s'.sendingChain.isSome)
    (hdh : P.x25519Shared s'.localRatchetSecret s.remoteRatchetPublic = .ok dh) :
    rootInputs P s s' = [(s.rootKey, dh)] := by
  rw [rootInputs, if_pos hr, if_pos ⟨by simp [hn], hs⟩, hdh]

theorem rootInputs_ratcheted (hr : s'.remoteRatchetPublic ≠ s.remoteRatchetPublic)
    (h1 : P.x25519Shared s.localRatchetSecret s'.remoteRatchetPublic = .ok dhReceive)
    (h2 : P.x25519Shared s'.localRatchetSecret s'.remoteRatchetPublic = .ok dhSend) :
    rootInputs P s s' = [(s.rootKey, dhReceive), (nextRoot P s.rootKey dhReceive, dhSend)] := by
  rw [rootInputs, if_neg hr, h1, h2]

end Inputs

/-- On the inputs `Q`, `kdf_root` repeats neither a root nor a chain, nor those the session `s`
was set up with. -/
structure Collisionless (P : CryptoProvider) (Q : Set (Key × Key)) (s : RatchetState) : Prop where
  roots : Set.InjOn (rootOf P) Q
  chains : Set.InjOn (chainOf P) Q
  newRoot : ∀ q ∈ Q, rootOf P q ≠ s.rootKey
  newSending : ∀ q ∈ Q, s.sendingChain ≠ some (nextChainOf P (chainOf P q))
  newReceiving : ∀ q ∈ Q, s.receivingChain ≠ some (nextChainOf P (chainOf P q))

theorem Collisionless.noCollision {Q : Set (Key × Key)} {s : RatchetState}
    (h : Collisionless P Q s) {k : Key}
    (hk : s.sendingChain = some (nextChainOf P k) ∨ s.receivingChain = some (nextChainOf P k)) :
    NoCollision (rootOf P) (chainOf P) Q s.rootKey k where
  nodeInj := h.roots
  leafInj := h.chains
  newNode := h.newRoot
  newLeaf q hq := by
    rintro rfl
    exact hk.elim (h.newSending q hq) (h.newReceiving q hq)

/-! ## The sum provider meets the laws -/

theorem padTo_bytes {n : Nat} {b : Bytes} (h : b.length = n) : (padTo n b).bytes = b := by
  simp [padTo, Block.ofTake, ← h]

theorem sumHmac_injective (b : UInt8) :
    Function.Injective fun k : Key => sumProvider.hmac k.bytes [b] := by
  intro k k' h
  have h := congrArg Block.bytes h
  simp only [sumProvider, List.headD_cons] at h
  rw [padTo_bytes (by simp), padTo_bytes (by simp)] at h
  exact Block.bytes_inj.mp (List.map_injective_iff.mpr (fun x y hxy => by simpa using hxy) h)

theorem sumStream_zero (b : Key) :
    sumStream (List.replicate 32 0) b.bytes = b.bytes.map (1 + ·) := by
  have hz : ∀ (n : Nat) (l : Bytes), l.length = n →
      sumStream (List.replicate n 0) l = l.map (1 + ·) := by
    intro n l hl
    induction l generalizing n with
    | nil => cases hl; rfl
    | cons x l ih =>
      cases hl
      simpa [sumStream, List.replicate_succ] using ih _ rfl
  exact hz 32 b.bytes (by simp)

theorem sumProvider_injective : KeysInjective sumProvider where
  messageKey := sumHmac_injective 1
  nextChain := sumHmac_injective 2
  aead := by
    intro k k' h
    have h := congrArg (fun m => m.1.bytes) h
    simp only [aeadOf, sumProvider, sumStream_zero, padTo, Block.ofTake, Block.bytes_slice,
      List.drop_zero, List.take_take, List.append_assoc] at h
    rw [List.take_append_of_le_length (by simp), List.take_append_of_le_length (by simp),
      List.take_of_length_le (by simp), List.take_of_length_le (by simp)] at h
    exact Block.bytes_inj.mp (List.map_injective_iff.mpr (fun x y hxy => by simpa using hxy) h)

end CommPlatform.L3
