import CommPlatform.L3Protocol.HandshakeAgreement
import CommPlatform.L3Protocol.RatchetStep

/-!
# Where a session stands in its sending chain

An envelope shows in its header which key it is sealed under: the session
id, the ratchet public key and the message number. A session stands at the
key it would use next.

* `ratchetEncrypt_seals`, `createRepair_seals`, `initiate_seals`: an
  envelope is sealed under the key the session stood at, or under the first
  key of a chain it begins, and the session is then past it.
-/
namespace CommPlatform.L3

open CommPlatform.Core L1 L2

/-- A sending chain of a session: its id and the ratchet public key. -/
abbrev SendingChain := Block 16 × Key

/-- The chain and the message number in the header of an envelope.
mirrors pairwise.rs:238-262 -/
def sealKey (ciphertext : Bytes) : Option (SendingChain × Nat) :=
  (Reader.parse (do
    let _protocolVersion ← Reader.u8
    let _suite ← Reader.u8
    let _headerLength ← Reader.u16
    let _headerVersion ← Reader.u8
    let _flags ← Reader.u8
    let sessionId ← Reader.array 16
    let ratchetPublic ← Reader.array 32
    let _previousChainLength ← Reader.u32
    let messageNumber ← Reader.u32
    return ((sessionId, ratchetPublic), messageNumber.toNat)) ciphertext).toOption

theorem sealKey_envelopeBytes (flags : UInt8) (sessionId : Block 16) (ratchetPublic : Key)
    (previous number : UInt32) (rest ciphertext : Bytes) :
    sealKey (envelopeBytes ([headerVersion, flags] ++ sessionId.bytes ++ ratchetPublic.bytes ++
      pushU32 previous ++ pushU32 number ++ rest) ciphertext) =
        some ((sessionId, ratchetPublic), number.toNat) := by
  simp [sealKey, Reader.parse, envelopeBytes, Except.toOption]

/-- The next key of a session that has a sending chain. -/
def RatchetState.position (s : RatchetState) : Option (SendingChain × Nat) :=
  s.sendingChain.map fun _ => ((s.sessionId, s.localRatchetPublic), s.sendCount.toNat)

/-! ## What the calls do to it -/

section Calls

variable {P : CryptoProvider} {s : RatchetState} {other : UInt32}

/-- The key an envelope is sealed under is the next one of the session, or the first one of a chain
that starts with it; the session is then past it. -/
structure Seals (before : Option (SendingChain × Nat)) (after : RatchetState) (ciphertext : Bytes)
    (k : SendingChain) (n : Nat) : Prop where
  key : sealKey ciphertext = some (k, n)
  after : after.position = some (k, n + 1)
  before : before = some (k, n) ∨ n = 0

variable {rid : Block 16} {t : EncryptedTransition}

theorem ratchetEncrypt_seals {inner e : Bytes} (h : ratchetEncrypt P s rid inner other e = .ok t) :
    ∃ k n, Seals s.position t.state t.envelope k n := by
  obtain ⟨-, -, s1, rest, c, m, hs, hc, henv, hm, hstate⟩ := ratchetEncrypt_inv h
  obtain ⟨ct, hout, -⟩ := encryptEnvelope_inv henv
  refine ⟨(s1.sessionId, s1.localRatchetPublic), s1.sendCount.toNat, ?_, ?_, ?_⟩
  · rw [hout]
    have := sealKey_envelopeBytes 0 s1.sessionId s1.localRatchetPublic s1.previousSendCount
      s1.sendCount [] ct
    rwa [List.append_nil] at this
  · simp [hstate, RatchetState.position, hm]
  · rcases startSendingChain_cases hs with ⟨hsome, rfl, -⟩ | ⟨-, _, _, _, -, -, rfl, -⟩
    · exact .inl (by simp [RatchetState.position, hc])
    · exact .inr rfl

theorem createRepair_seals {e : Bytes}
    (h : createRepair P s rid other e = .ok t) : ∃ k n, Seals s.position t.state t.envelope k n := by
  unfold createRepair at h
  simp only [ok_steps] at h
  obtain ⟨-, -, token, -, h⟩ := h
  have hseals := ratchetEncrypt_seals h
  exact hseals

theorem initiate_seals {device : DeviceState} {sid rid : Block 16} {peer : PeerBundle}
    {cl : Option OptionalClassicalPrekey} {pq : Option OptionalPqPrekey}
    {auth inner e envelope : Bytes}
    (h : initiate P device sid rid peer cl pq auth inner other e = .ok (s, envelope)) :
    ∃ k, Seals none s envelope k 0 := by
  obtain ⟨-, -, repair, keys, _, _, header, _, _, -, -, -, hheader, -, henv, -, rfl⟩ := initiate_inv h
  obtain ⟨ct, rfl, -⟩ := encryptEnvelope_inv henv
  simp only [initialHeader, ok_steps] at hheader
  obtain ⟨_, -, _, -, _, -, _, -, _, -, senderSeal, -, len, -, -, -, rfl⟩ := hheader
  refine ⟨(keys.sessionId, keys.ratchetPublic), ?_, rfl, .inr rfl⟩
  have hkey := sealKey_envelopeBytes (initiatorFlags cl.isSome pq.isSome repair.isSome)
    keys.sessionId keys.ratchetPublic 0 0 (pushU32 peer.signedPrekeyId ++
      pushU32 (cl.elim absentPrekeyId (·.id)) ++ pushU32 peer.pqSignedPrekeyId ++
      pushU32 (pq.elim absentPrekeyId (·.id)) ++ keys.ephemeralPublic.bytes ++
      keys.pqSignedCiphertext.bytes ++ optionBytes keys.pqOneTimeCiphertext ++ pushU16 len ++
      senderSeal) ct
  have hzero : (0 : UInt32).toNat = 0 := rfl
  simpa only [initiatorHeaderPrefix, initialHeaderPrefix, List.append_assoc, hzero] using hkey

theorem ratchetDecrypt_position {bytes e : Bytes}
    {t : DecryptedTransition} (h : ratchetDecrypt P s rid bytes other e = .ok (.prepared t)) :
    t.state.position = s.position ∨ ∃ k, t.state.position = some (k, 0) := by
  obtain ⟨s₁, _, _, _, hs₁, hi⟩ := ratchetDecrypt_opens h
  obtain ⟨token, hs⟩ := inspectRepairControl_frame hi
  rw [hs]
  rcases hs₁ with rfl | ⟨_, _, _, _, _, rfl⟩
  · exact .inl rfl
  · exact .inr ⟨_, rfl⟩

theorem consumeRepairAuthorization_position {d : DeviceState} {r : RatchetState × Bytes}
    (h : consumeRepairAuthorization P d s = .ok r) : r.1.position = s.position := by
  unfold consumeRepairAuthorization at h
  simp only [ok_steps] at h
  obtain ⟨token, -, key, -, tag, -, rfl⟩ := h
  rfl

end Calls

end CommPlatform.L3
