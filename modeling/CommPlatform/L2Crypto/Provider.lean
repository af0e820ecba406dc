import CommPlatform.L1Encoding.Protocol

/-!
# The cryptographic provider and the keyed derivations

`CryptoProvider` is the trait of `provider.rs` restricted to the methods
the pairwise code calls, together with the `hkdf` and `hmac` crates that
`protocol.rs` wraps. The primitives themselves live outside the repository,
so they are the fields of a structure; what the code relies on is stated as
named properties of a provider and never built in.

Randomness is a tape: each call that draws takes the bytes the operating
system will hand out, as the test provider of `random.rs` does.
-/
namespace CommPlatform.L2

open CommPlatform.Core L1

abbrev Key := Block 32

/-- mirrors provider.rs:90-163. `hkdf` is extract followed by
expand of the `hkdf` crate, `hmac` the tag of the `hmac` crate; ML-KEM encapsulation takes the 32
coins the provider draws for it. -/
structure CryptoProvider where
  ed25519Sign : Key → Bytes → CryptoResult (Block 64)
  ed25519Verify : Key → Bytes → Block 64 → CryptoResult Unit
  x25519Public : Key → CryptoResult Key
  x25519Shared : Key → Key → CryptoResult Key
  mlkem768Encapsulate : Block 1184 → Key → CryptoResult (Block 1088 × Key)
  mlkem768Decapsulate : Block 2400 → Block 1088 → CryptoResult Key
  xchacha20poly1305Encrypt : Key → Block 24 → Bytes → Bytes → CryptoResult Bytes
  xchacha20poly1305Decrypt : Key → Block 24 → Bytes → Bytes → CryptoResult Bytes
  sha256 : Bytes → CryptoResult (Block 32)
  hkdf : (salt ikm info : Bytes) → (len : Nat) → Block len
  hmac : (key input : Bytes) → Block 32

/-! ## Randomness -/

/-- mirrors random.rs:33-44: the next `n` bytes of the tape, and
what is left of it. -/
def randomBytes (n : Nat) (entropy : Bytes) : CryptoResult (Bytes × Bytes) :=
  if n ≤ entropy.length then .ok (entropy.take n, entropy.drop n) else .error .entropyUnavailable

/-- `random_bytes` into a fixed-size buffer. -/
def randomArray (n : Nat) (entropy : Bytes) : CryptoResult (Block n × Bytes) :=
  if h : n ≤ entropy.length then .ok (Block.ofTake n entropy h, entropy.drop n)
  else .error .entropyUnavailable

theorem randomArray_of_le {n : Nat} {entropy : Bytes} (h : n ≤ entropy.length) :
    randomArray n entropy = .ok (Block.ofTake n entropy h, entropy.drop n) := dif_pos h

theorem randomArray_eq_ok {n : Nat} {entropy rest : Bytes} {b : Block n} :
    randomArray n entropy = .ok (b, rest) ↔
      ∃ h : n ≤ entropy.length, b = Block.ofTake n entropy h ∧ rest = entropy.drop n := by
  unfold randomArray
  split
  · rename_i h
    simp only [Except.ok.injEq, Prod.mk.injEq]
    exact ⟨fun e => ⟨h, e.1.symm, e.2.symm⟩, fun e => ⟨e.2.1.symm, e.2.2.symm⟩⟩
  · rename_i h
    simp [h]

/-! ## Keyed derivations -/

/-- mirrors protocol.rs:129-151 (`expand` refuses more than
`255` hash blocks). -/
def hkdfSha256 (P : CryptoProvider) (salt ikm info : Bytes) (len : Nat) :
    CryptoResult (Block len) := do
  failIf (salt.length > maxInputBytes ∨ ikm.length > maxInputBytes ∨
    info.length > maxInputBytes ∨ len > maxInputBytes) .inputTooLarge
  failIf (len > 255 * 32) .outputTooSmall
  return P.hkdf salt ikm info len

/-- mirrors protocol.rs:153-163 -/
def hmacSha256 (P : CryptoProvider) (key input : Bytes) : CryptoResult Key := do
  failIf (key.length > maxInputBytes ∨ input.length > maxInputBytes) .inputTooLarge
  return P.hmac key input

/-- `SecretVec::input`: a copy of at most `MAX_INPUT_BYTES` bytes.
mirrors secret.rs:49-63 -/
def secretVecInput (bytes : Bytes) : CryptoResult Bytes := do
  failIf (bytes.length > maxInputBytes) .inputTooLarge
  return bytes

theorem hkdfSha256_eq (P : CryptoProvider) {salt ikm info : Bytes} {len : Nat}
    (hs : salt.length ≤ maxInputBytes) (hi : ikm.length ≤ maxInputBytes)
    (hf : info.length ≤ maxInputBytes) (hl : len ≤ 255 * 32) :
    hkdfSha256 P salt ikm info len = .ok (P.hkdf salt ikm info len) := by
  have hm : len ≤ maxInputBytes := hl.trans (by decide)
  unfold hkdfSha256
  rw [failIf_neg (by omega), failIf_neg (by omega)]; rfl

theorem hmacSha256_eq (P : CryptoProvider) {key input : Bytes}
    (hk : key.length ≤ maxInputBytes) (hi : input.length ≤ maxInputBytes) :
    hmacSha256 P key input = .ok (P.hmac key input) := by
  unfold hmacSha256
  rw [failIf_neg (by omega)]; rfl

theorem secretVecInput_eq_ok {b b' : Bytes} :
    secretVecInput b = .ok b' ↔ b.length ≤ maxInputBytes ∧ b' = b := by
  unfold secretVecInput
  simp only [ok_steps, not_lt, exists_const]
  exact and_congr_right fun _ => eq_comm

/-! ## What the code relies on -/

/-- `p` verifies what `s` signs. -/
def SigningPair (P : CryptoProvider) (s p : Key) : Prop :=
  ∀ m sig, P.ed25519Sign s m = .ok sig → P.ed25519Verify p m sig = .ok ()

/-- `s` decapsulates what is encapsulated to `p`. -/
def KemPair (P : CryptoProvider) (s : Block 2400) (p : Block 1184) : Prop :=
  ∀ coins ct ss, P.mlkem768Encapsulate p coins = .ok (ct, ss) → P.mlkem768Decapsulate s ct = .ok ss

/-- Correctness of the primitives: X25519 public keys exist and the two sides of an exchange
between derived keys agree, AEAD opening undoes sealing, and SHA-256 is defined on every input of
admissible size. -/
structure Correct (P : CryptoProvider) : Prop where
  x25519_public : ∀ s, ∃ p, P.x25519Public s = .ok p
  x25519_symm : ∀ a b pa pb, P.x25519Public a = .ok pa → P.x25519Public b = .ok pb →
    ∃ k, P.x25519Shared a pb = .ok k ∧ P.x25519Shared b pa = .ok k
  aead_opens : ∀ k n p aad c, P.xchacha20poly1305Encrypt k n p aad = .ok c →
    P.xchacha20poly1305Decrypt k n c aad = .ok p
  sha256_total : ∀ b : Bytes, b.length ≤ maxInputBytes → ∃ h, P.sha256 b = .ok h

theorem Correct.shared_comm {P : CryptoProvider} (hP : Correct P) {a b pa pb k : Key}
    (ha : P.x25519Public a = .ok pa) (hb : P.x25519Public b = .ok pb)
    (hk : P.x25519Shared a pb = .ok k) : P.x25519Shared b pa = .ok k := by
  obtain ⟨k', h1, h2⟩ := hP.x25519_symm a b pa pb ha hb
  rw [hk] at h1; cases h1; exact h2

/-- An AEAD opens only what was sealed under the same key and nonce: no ciphertext opens under two,
with the same associated data. -/
def AeadBinding (P : CryptoProvider) : Prop :=
  ∀ k n k' n' c aad p p', P.xchacha20poly1305Decrypt k n c aad = .ok p →
    P.xchacha20poly1305Decrypt k' n' c aad = .ok p' → k = k' ∧ n = n'

/-! ## A provider that meets the laws

Byte-wise sums in place of the primitives. It is no cipher; it shows that the laws above can be met
together and it evaluates, so the theorems that assume them can be run on concrete devices. Its
AEAD takes keys and nonces of one repeated byte, which the tag shows: a tag of 16 bytes can bind no
more of them. -/

/-- The first `n` bytes, with zeros behind a shorter string. -/
def padTo (n : Nat) (b : Bytes) : Block n :=
  Block.ofTake n (b ++ List.replicate n 0) (by simp)

def sumKeys (a b : Key) : Key :=
  ⟨List.zipWith (· + ·) a.bytes b.bytes, by simp⟩

theorem sumKeys_comm (a b : Key) : sumKeys a b = sumKeys b a := by
  ext1
  exact List.zipWith_comm_of_comm fun x y => UInt8.add_comm x y

/-- One period of key stream: salt and key material summed, the salt shifted by one. -/
def sumStream (salt ikm : Bytes) : Bytes := List.zipWith (fun x y => x + 1 + y) salt ikm

/-- Key and nonce repeat the byte `b`. -/
def Repeats (k : Key) (n : Block 24) (b : UInt8) : Prop := k = Block.fill 32 b ∧ n = Block.fill 24 b

instance (k : Key) (n : Block 24) (b : UInt8) : Decidable (Repeats k n b) :=
  inferInstanceAs (Decidable (_ ∧ _))

def sumSeal (k : Key) (n : Block 24) (p : Bytes) : CryptoResult Bytes :=
  if Repeats k n (k.bytes.headD 0) then .ok (p ++ List.replicate 16 (k.bytes.headD 0))
  else .error .internalFailure

def sumOpen (k : Key) (n : Block 24) (c : Bytes) : CryptoResult Bytes :=
  if Repeats k n (k.bytes.headD 0) ∧
      c.drop (c.length - 16) = List.replicate 16 (k.bytes.headD 0) then
    .ok (c.take (c.length - 16))
  else .error .authenticationFailed

def sumProvider : CryptoProvider where
  ed25519Sign _ _ := .ok (Block.fill 64 0)
  ed25519Verify _ _ _ := .ok ()
  x25519Public s := .ok s
  x25519Shared a b := .ok (sumKeys a b)
  mlkem768Encapsulate _ _ := .ok (Block.fill 1088 0, Block.fill 32 0)
  mlkem768Decapsulate _ _ := .ok (Block.fill 32 0)
  xchacha20poly1305Encrypt k n p _ := sumSeal k n p
  xchacha20poly1305Decrypt k n c _ := sumOpen k n c
  sha256 _ := .ok (Block.fill 32 0)
  hkdf salt ikm _ len := padTo len (sumStream salt ikm ++ sumStream salt ikm)
  hmac key input := padTo 32 (key.map (· + input.headD 0))

theorem sumProvider_correct : Correct sumProvider where
  x25519_public s := ⟨s, rfl⟩
  x25519_symm a b pa pb ha hb := by
    cases ha; cases hb
    exact ⟨sumKeys a b, rfl, congrArg Except.ok (sumKeys_comm b a)⟩
  aead_opens k n p aad c h := by
    simp only [sumProvider, sumSeal] at h
    split at h
    · rename_i hr
      cases h
      exact (if_pos ⟨hr, by simp⟩).trans (by simp)
    · cases h
  sha256_total _ _ := ⟨_, rfl⟩

theorem sumOpen_eq_ok {k : Key} {n : Block 24} {c p : Bytes} (h : sumOpen k n c = .ok p) :
    Repeats k n (k.bytes.headD 0) ∧
      c.drop (c.length - 16) = List.replicate 16 (k.bytes.headD 0) := by
  unfold sumOpen at h
  split at h
  · assumption
  · cases h

theorem sumProvider_binding : AeadBinding sumProvider := by
  intro k n k' n' c aad p p' h h'
  obtain ⟨⟨hk, hn⟩, ht⟩ := sumOpen_eq_ok h
  obtain ⟨⟨hk', hn'⟩, ht'⟩ := sumOpen_eq_ok h'
  have hb : k.bytes.headD 0 = k'.bytes.headD 0 := by
    have := ht.symm.trans ht'
    simpa [List.replicate_succ] using this
  rw [hk, hk', hn, hn', hb]
  exact ⟨rfl, rfl⟩

end CommPlatform.L2
