import CommPlatform.L3Protocol.Conversation

/-!
# Envelope framing

Builder and parser of an envelope agree on its three length fields, for both
shapes of a header and at every bucket.
-/
namespace CommPlatform.L3

open CommPlatform.Core L1 L2

/-- The AEAD seals what fits with its tag of 16 bytes, as `provider.rs:346-353` takes it. -/
def AeadSeals (P : CryptoProvider) : Prop :=
  ∀ k n p aad, p.length + xchachaAbytes ≤ maxInputBytes → aad.length ≤ maxInputBytes →
    ∃ c, P.xchacha20poly1305Encrypt k n p aad = .ok c ∧ c.length = p.length + xchachaAbytes

/-- A header that `regular_header_bytes` or `initiate` builds, what it says, and for an initial
header the prefix that is signed and bound in the associated data of the seal. A session has an id
that is not zero. -/
inductive BuiltHeader (P : CryptoProvider) : Bytes → RatchetHeader → Option Bytes → Prop
  | regular (s : RatchetState) (hz : isZero s.sessionId.bytes = false) :
      BuiltHeader P (regularHeaderBytes s)
        (.regular ⟨s.sessionId, s.localRatchetPublic, s.previousSendCount, s.sendCount⟩) none
  | initial {device : DeviceState} {sid rid : Block 16} {peer : PeerBundle}
      {cl : Option OptionalClassicalPrekey} {pq : Option OptionalPqPrekey}
      {repair : Option (Block 16 × Key)} {k : InitiatorSecrets} {e header senderSeal : Bytes}
      (hk : initiatorSecrets P device peer cl pq e = .ok k)
      (hheader : initialHeader P device sid rid (initiatorHeaderPrefix peer cl pq repair k) repair
        k.anonymousIkm = .ok header)
      (hseal : header = initiatorHeaderPrefix peer cl pq repair k ++
        pushU16 (UInt16.ofNat senderSeal.length) ++ senderSeal) :
      BuiltHeader P header (.initial (initiatorHeader peer cl pq repair k senderSeal))
        (some (initiatorHeaderPrefix peer cl pq repair k))

variable {P : CryptoProvider} {recipient : Block 16} {header inner entropy out : Bytes}
  {messageKey : Key} {hdr : RatchetHeader} {signed : Option Bytes}

theorem chooseBucket_iff {headerLen innerLen bucket : Nat} :
    chooseBucket headerLen innerLen = .ok bucket ↔
      allowedBuckets.find? (4 + headerLen + 20 + innerLen ≤ ·) = some bucket := by
  rw [chooseBucket, okOr_eq_ok]
  rfl

theorem find_bucket (n : Nat) : ((∃ b, allowedBuckets.find? (n ≤ ·) = some b) ↔ n ≤ 262144) ∧
    ∀ b, allowedBuckets.find? (n ≤ ·) = some b →
      b ∈ allowedBuckets ∧ n ≤ b ∧ ∀ b' ∈ allowedBuckets, n ≤ b' → b ≤ b' := by
  refine ⟨?_, fun b h => ?_⟩
  · rw [← Option.isSome_iff_exists]
    simp [allowedBuckets]
    omega
  · obtain ⟨hb, as, bs, hl, has⟩ := List.find?_eq_some_iff_append.mp h
    have hsorted : allowedBuckets.Pairwise (· ≤ ·) := by decide
    rw [hl] at hsorted ⊢
    refine ⟨List.mem_append_right _ List.mem_cons_self, of_decide_eq_true hb, fun b' hb' hn => ?_⟩
    obtain hb' | hb' := List.mem_append.mp hb'
    · have := has b' hb'
      simp only [Bool.not_eq_eq_eq_not, Bool.not_true, decide_eq_false_iff_not] at this
      omega
    · obtain rfl | hb' := List.mem_cons.mp hb'
      · exact le_rfl
      · exact (List.pairwise_cons.mp (List.pairwise_append.mp hsorted).2.1).1 b' hb'

theorem exists_envelopeAad (recipient : Block 16) (h16 : header.length < 2 ^ 16) :
    ∃ aad, envelopeAad recipient header = .ok aad ∧ aad.length ≤ maxInputBytes := by
  have hpurpose : purpose.length = 21 := by decide
  rw [envelopeAad, reserve, failIf_neg (by unfold maxInputBytes; omega), ok_bind,
    tryU16_of_lt h16, ok_bind]
  refine ⟨_, rfl, ?_⟩
  simp only [List.length_append, hpurpose, Block.length_bytes, length_pushU16, List.length_cons,
    List.length_nil, maxInputBytes]
  omega

/-- Sealing succeeds whenever a bucket fits, and fills it. -/
theorem encryptEnvelope_total (hP : AeadSeals P) (h16 : header.length < 2 ^ 16)
    (he : 262144 ≤ entropy.length) {bucket : Nat}
    (hb : allowedBuckets.find? (4 + header.length + 20 + inner.length ≤ ·) = some bucket) :
    ∃ out, encryptEnvelope P recipient header messageKey inner entropy = .ok out ∧
      out.length = bucket := by
  obtain ⟨hmem, hle, -⟩ := (find_bucket _).2 bucket hb
  have hmax : bucket ≤ 262144 := by
    simp only [allowedBuckets, List.mem_cons, List.not_mem_nil, or_false] at hmem
    omega
  obtain ⟨aad, haad, haadlen⟩ := exists_envelopeAad recipient h16
  -- the padding takes what is left of the bucket
  have hrandom : randomBytes (bucket - (4 + header.length + xchachaAbytes) - (4 + inner.length))
      entropy = .ok (_, _) := if_pos (by omega)
  have hlen : (pushU32 (UInt32.ofNat inner.length) ++ inner ++ entropy.take
      (bucket - (4 + header.length + xchachaAbytes) - (4 + inner.length))).length =
      bucket - (4 + header.length + xchachaAbytes) := by
    simp only [List.length_append, length_pushU32, List.length_take, xchachaAbytes]
    omega
  have hfits : bucket - (4 + header.length + xchachaAbytes) + xchachaAbytes ≤ maxInputBytes := by
    unfold xchachaAbytes maxInputBytes
    omega
  obtain ⟨c, hc, hclen⟩ := hP (aeadOf P messageKey).1 (aeadOf P messageKey).2 _ aad
    (by rwa [hlen]) haadlen
  have hout : (envelopeBytes header c).length = bucket := by
    rw [length_envelopeBytes, hclen, hlen]
    unfold xchachaAbytes
    omega
  refine ⟨envelopeBytes header c, ?_, hout⟩
  simp only [encryptEnvelope, ok_steps, aeadMaterial_eq, tryU32_eq_ok, tryU16_eq_ok,
    secretVecInput_eq_ok]
  exact ⟨bucket, chooseBucket_iff.mpr hb, _, ⟨by omega, rfl⟩, _, hrandom, _, rfl, aad, haad, _,
    ⟨hlen.trans_le (Nat.le_of_add_right_le hfits), rfl⟩, c, hc, _, ⟨h16, rfl⟩, (),
    not_not.mpr hout, rfl⟩

theorem encryptEnvelope_bucket (hP : AeadSeals P) (h16 : header.length < 2 ^ 16)
    (he : 262144 ≤ entropy.length)
    (h : encryptEnvelope P recipient header messageKey inner entropy = .ok out) :
    allowedBuckets.find? (4 + header.length + 20 + inner.length ≤ ·) = some out.length := by
  obtain ⟨bucket, hb, -⟩ := bind_eq_ok.mp h
  rw [chooseBucket_iff] at hb
  obtain ⟨out', h', hlen⟩ : ∃ out, encryptEnvelope P recipient header messageKey inner entropy =
      .ok out ∧ out.length = bucket := encryptEnvelope_total hP h16 he hb
  cases h.symm.trans h'
  rw [hb, hlen]

theorem BuiltHeader.reads (h : BuiltHeader P header hdr signed) :
    58 ≤ header.length ∧ header.length < 2 ^ 16 ∧ RatchetHeader.parse header = .ok hdr ∧
      ∀ initial, hdr = .initial initial → ∃ pre, signed = some pre ∧
        headerPrefixOf header initial = .ok pre := by
  cases h with
  | regular s hz =>
    have hlen : (regularHeaderBytes s).length = 58 := by
      simp [regularHeaderBytes, RegularHeader.encode]
    exact ⟨hlen.ge, by omega, parse_regularHeader _ hz, by simp⟩
  | @initial device sid rid peer cl pq repair k e _ senderSeal hk hheader hseal =>
    obtain ⟨ephemeral, ha⟩ := initiatorSecrets_inv hk
    obtain ⟨_, _, _, _, senderSeal', -, -, -, -, -, hlen, hheader'⟩ := initialHeader_inv hheader
    have hsame : senderSeal = senderSeal' := by
      rw [hseal, List.append_assoc, List.append_assoc] at hheader'
      exact List.append_inj_right (List.append_cancel_left hheader') (by simp)
    obtain ⟨hparse, hprefix, h58, h16⟩ := initialHeader_reads ha (hsame ▸ hlen) hseal
    exact ⟨h58, h16, hparse, fun initial h => by cases h; exact ⟨_, rfl, hprefix⟩⟩

/-- For every header the code builds, sealing succeeds exactly when the smallest frame fits the
largest bucket; the output has the length of the smallest bucket that fits; it parses to the same
header bytes and fields, and opens to the inner bytes whatever the padding was. From an initial
header the receiver recovers the prefix that was signed and bound in the seal. -/
theorem envelope_framing (P : CryptoProvider) (hP : Correct P) (hseals : AeadSeals P)
    (header : Bytes) (hdr : RatchetHeader) (signed : Option Bytes)
    (hbuilt : BuiltHeader P header hdr signed) (recipient : Block 16) (messageKey : Key)
    (inner entropy : Bytes) (he : 262144 ≤ entropy.length) :
    ((∃ out, encryptEnvelope P recipient header messageKey inner entropy = .ok out) ↔
      4 + header.length + 16 + 4 + inner.length ≤ 262144) ∧
    (∀ out, encryptEnvelope P recipient header messageKey inner entropy = .ok out →
      (out.length ∈ allowedBuckets ∧ 4 + header.length + 16 + 4 + inner.length ≤ out.length ∧
        ∀ b ∈ allowedBuckets, 4 + header.length + 16 + 4 + inner.length ≤ b → out.length ≤ b) ∧
      ∃ ct, Envelope.parse out = .ok ⟨header, hdr, ct⟩ ∧
        decryptEnvelope P recipient ⟨header, hdr, ct⟩ messageKey = .ok inner) ∧
    ∀ initial, hdr = .initial initial → ∃ pre, signed = some pre ∧
      headerPrefixOf header initial = .ok pre := by
  obtain ⟨h58, h16, hparse, hprefix⟩ := hbuilt.reads
  obtain ⟨hexists, hleast⟩ := find_bucket (4 + header.length + 20 + inner.length)
  refine ⟨⟨fun ⟨out, h⟩ => ?_, fun hfits => ?_⟩, fun out h => ⟨?_, ?_⟩, hprefix⟩
  · have := hexists.mp ⟨_, encryptEnvelope_bucket hseals h16 he h⟩
    omega
  · obtain ⟨bucket, hb⟩ := hexists.mpr (by omega)
    obtain ⟨out, hout, -⟩ := encryptEnvelope_total hseals h16 he hb
    exact ⟨out, hout⟩
  · obtain ⟨hmem, hle, hmin⟩ := hleast _ (encryptEnvelope_bucket hseals h16 he h)
    exact ⟨hmem, by omega, fun b hb hn => hmin b hb (by omega)⟩
  · obtain ⟨ct, hpe, hsealed, -⟩ := encryptEnvelope_parse h h58 hparse
    exact ⟨ct, hpe, hsealed.opens hP hdr⟩

def openProvider : CryptoProvider :=
  { sumProvider with
    xchacha20poly1305Encrypt := fun _ _ p _ =>
      if p.length + xchachaAbytes ≤ maxInputBytes then .ok (p ++ List.replicate 16 0)
      else .error .inputTooLarge
    xchacha20poly1305Decrypt := fun _ _ c _ => .ok (c.take (c.length - 16)) }

/-- A payload of 1000 bytes does not fit the first bucket beside a regular header of 58 bytes; it
takes the second, and is read back from it. -/
theorem envelope_framing_sumAccepted : ∃ out, encryptEnvelope openProvider (Block.fill 16 1)
      (regularHeaderBytes sumAccepted) (Block.fill 32 0) (List.replicate 1000 7)
      (List.replicate 262144 0) = .ok out ∧ out.length = 4096 ∧
    ∃ parsed, Envelope.parse out = .ok parsed ∧
      decryptEnvelope openProvider (Block.fill 16 1) parsed (Block.fill 32 0) =
        .ok (List.replicate 1000 7) := by
  have hP : Correct openProvider :=
    { sumProvider_correct with
      aead_opens := by
        intro _ _ p _ c hc
        unfold openProvider at hc
        dsimp only at hc
        split at hc
        · cases hc
          simp [openProvider]
        · cases hc }
  have hseals : AeadSeals openProvider := fun _ _ _ _ hp _ =>
    ⟨_, if_pos hp, by simp [xchachaAbytes]⟩
  have hlen : (regularHeaderBytes sumAccepted).length = 58 := by
    simp [regularHeaderBytes, RegularHeader.encode]
  obtain ⟨hexists, hout, -⟩ := envelope_framing _ hP hseals _ _ _
    (.regular sumAccepted (by decide)) (Block.fill 16 1) (Block.fill 32 0) (List.replicate 1000 7)
    (List.replicate 262144 0) (by rw [List.length_replicate])
  rw [hlen, List.length_replicate] at hexists hout
  obtain ⟨out, h⟩ := hexists.mpr (by decide)
  obtain ⟨⟨hmem, hle, hleast⟩, ct, hparse, hopen⟩ := hout out h
  have hleast := hleast 4096 (by decide) (by decide)
  simp only [allowedBuckets, List.mem_cons, List.not_mem_nil, or_false] at hmem
  exact ⟨out, h, by omega, _, hparse, hopen⟩

end CommPlatform.L3
