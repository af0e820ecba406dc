import CommPlatform.L3Protocol.Handshake

/-!
# The two sides of a handshake agree

An initial envelope that `initiate` returns is followed through the
responder: the header parses back, the responder derives the initiator's
secrets, the sealed sender block opens, the signature verifies, and
`accept_initial` starts the session with the initiator's root key and chain.

* `parse_initialHeader`, `senderBlock_parse`: the two byte formats, for each
  combination of the optional parts.
* `responder_secrets`, `responder_agreement`: the derived keys agree.
* `probe_of_initiate`, `accept_of_initiate`: probing and accepting succeed.
-/
namespace CommPlatform.L3

open CommPlatform.Core L1 L2

/-! ## Flags -/

theorem initiatorFlags_spec (a b r : Bool) :
    initiatorFlags a b r &&& ~~~knownHeaderFlags = 0 ∧ initiatorFlags a b r ≠ 0 ∧
      initiatorFlags a b r &&& flagInitial ≠ 0 ∧
      (!decide (initiatorFlags a b r &&& flagClassicalOneTime = 0)) = a ∧
      (!decide (initiatorFlags a b r &&& flagPqOneTime = 0)) = b ∧
      (!decide (initiatorFlags a b r &&& flagRepairReplacement = 0)) = r := by
  cases a <;> cases b <;> cases r <;> decide

/-! ## The initial header -/

def initiatorHeader (peer : PeerBundle) (classicalOneTime : Option OptionalClassicalPrekey)
    (pqOneTime : Option OptionalPqPrekey) (repair : Option (Block 16 × Key))
    (k : InitiatorSecrets) (senderSeal : Bytes) : InitialHeader :=
  ⟨initiatorFlags classicalOneTime.isSome pqOneTime.isSome repair.isSome, k.sessionId,
    k.ratchetPublic, peer.signedPrekeyId, classicalOneTime.elim absentPrekeyId (·.id),
    peer.pqSignedPrekeyId, pqOneTime.elim absentPrekeyId (·.id), k.ephemeralPublic,
    k.pqSignedCiphertext, k.pqOneTimeCiphertext, senderSeal⟩

theorem validKeyId_of_le {id : UInt32} (h : id ≤ keyIdMax) : validKeyId id = .ok id :=
  if_neg (UInt32.not_lt.mpr h)

theorem validateOptionalId_classical (o : Option OptionalClassicalPrekey) :
    validateOptionalId o.isSome (o.elim absentPrekeyId (·.id)) = .ok () := by
  cases o with
  | none => exact failIf_neg (by simp)
  | some k => exact failIf_neg (by simpa using k.id_le)

theorem validateOptionalId_pq (o : Option OptionalPqPrekey) :
    validateOptionalId o.isSome (o.elim absentPrekeyId (·.id)) = .ok () := by
  cases o with
  | none => exact failIf_neg (by simp)
  | some k => exact failIf_neg (by simpa using k.id_le)

def sealLength (repair : Bool) : Nat :=
  (if repair then senderBlockRepairBytes else senderBlockWithoutRepairBytes) + xchachaAbytes

theorem parse_initialHeader (peer : PeerBundle) (cl : Option OptionalClassicalPrekey)
    (pq : Option OptionalPqPrekey) (repair : Option (Block 16 × Key)) (k : InitiatorSecrets)
    (senderSeal : Bytes) (hz : isZero k.sessionId.bytes = false)
    (hct : k.pqOneTimeCiphertext.isSome = pq.isSome)
    (hlen : senderSeal.length = sealLength repair.isSome) :
    RatchetHeader.parse (initiatorHeaderPrefix peer cl pq repair k ++
        pushU16 (UInt16.ofNat senderSeal.length) ++ senderSeal) =
      .ok (.initial (initiatorHeader peer cl pq repair k senderSeal)) := by
  obtain ⟨hknown, hne, hini, hcl, hpq, hrep⟩ :=
    initiatorFlags_spec cl.isSome pq.isSome repair.isSome
  have hsmall : senderSeal.length < 2 ^ 16 := by
    rw [hlen, sealLength]; split <;> decide
  have hseal : (UInt16.ofNat senderSeal.length).toNat = senderSeal.length := by simp; omega
  have htake : (Reader.take senderSeal.length).run senderSeal = .ok (senderSeal, []) := by
    simp
  have hv1 := validateOptionalId_classical cl
  have hv2 := validateOptionalId_pq pq
  generalize hflags : initiatorFlags cl.isSome pq.isSome repair.isSome = flags at *
  have hexpect : (if flags &&& flagRepairReplacement = 0 then
      senderBlockWithoutRepairBytes + xchachaAbytes else senderBlockRepairBytes + xchachaAbytes) =
      senderSeal.length := by
    rw [hlen, sealLength]
    cases hr : repair.isSome <;> simp_all
  unfold initiatorHeaderPrefix initialHeaderPrefix initiatorHeader
  rw [hflags]
  cases hc : k.pqOneTimeCiphertext with
  | none =>
    have hp0 : flags &&& flagPqOneTime = 0 := by simpa [← hct, hc] using hpq
    rw [← hct, hc, Option.isSome_none] at hv2
    simp [RatchetHeader.parse, Reader.parse, parseInitialTail, Reader.failIf_run, hz, hknown, hne,
      hini, validKeyId_of_le peer.signedPrekeyId_le, validKeyId_of_le peer.pqSignedPrekeyId_le,
      hcl, hv1, hv2, hp0, optionBytes, hseal, htake, hexpect]
  | some ct =>
    have hp0 : flags &&& flagPqOneTime ≠ 0 := by simpa [← hct, hc] using hpq
    rw [← hct, hc, Option.isSome_some] at hv2
    simp [RatchetHeader.parse, Reader.parse, parseInitialTail, Reader.failIf_run, hz, hknown, hne,
      hini, validKeyId_of_le peer.signedPrekeyId_le, validKeyId_of_le peer.pqSignedPrekeyId_le,
      hcl, hv1, hv2, hp0, optionBytes, hseal, htake, hexpect]

/-! ## The sender block -/

variable (r : Option (Block 16 × Key))

@[simp] theorem length_repairBytes :
    (repairBytes r).length = if r.isSome then 49 else 1 := by
  cases r <;> simp [repairBytes]

theorem parseRepair_run (rest : Bytes) :
    parseRepair.run (repairBytes r ++ rest) = .ok (r, rest) := by
  cases r <;> simp [parseRepair, repairBytes]

variable (device : DeviceState) (id : Block 16) (repair : Option (Block 16 × Key))
include device id repair

theorem length_senderBlockPrefix :
    (senderBlockPrefix device id repair).length = if repair.isSome then 154 else 106 := by
  cases repair <;> simp [senderBlockPrefix]

theorem senderBlock_parse (sig : Block 64) (hv : device.bundleVersion ≠ 0) :
    SenderBlock.parse (senderBlockPrefix device id repair ++ sig.bytes) =
      .ok ⟨device.userId, id, device.ikPublic, device.registrationId, device.bundleVersion, repair,
        sig⟩ := by
  unfold SenderBlock.parse
  have hlen : (senderBlockPrefix device id repair ++ sig.bytes).length =
      if repair.isSome then senderBlockRepairBytes else senderBlockWithoutRepairBytes := by
    rw [List.length_append, length_senderBlockPrefix, Block.length_bytes]
    cases repair.isSome <;> rfl
  rw [hlen]
  simp [senderBlockPrefix, Reader.parse, Reader.failIf_run, parseRepair_run, hv, failIf]

/-- The responder rebuilds the bytes the initiator signed. -/
theorem prefixBytes_eq (sig : Block 64) :
    SenderBlock.prefixBytes ⟨device.userId, id, device.ikPublic, device.registrationId,
      device.bundleVersion, repair, sig⟩ = senderBlockPrefix device id repair := rfl

omit device id repair

variable {sid rid : Block 16} {device : DeviceState}

/-! ## What a successful initiation did -/

variable {P : CryptoProvider}

theorem initialHeader_inv {hp ikm header : Bytes} {repair : Option (Block 16 × Key)}
    (h : initialHeader P device sid rid hp repair ikm = .ok header) :
    ∃ anonymous sigInput sig aad senderSeal,
      anonymousMaterial P ikm = .ok anonymous ∧
      initSignatureInput rid hp (senderBlockPrefix device sid repair) = .ok sigInput ∧
      P.ed25519Sign device.deviceSigningSecret sigInput = .ok sig ∧
      senderAad rid hp header.length = .ok aad ∧
      P.xchacha20poly1305Encrypt anonymous.1 anonymous.2
        (senderBlockPrefix device sid repair ++ sig.bytes) aad = .ok senderSeal ∧
      senderSeal.length = sealLength repair.isSome ∧
      header = hp ++ pushU16 (UInt16.ofNat senderSeal.length) ++ senderSeal := by
  unfold initialHeader at h
  simp only [ok_steps, secretVecInput_eq_ok, tryU16_eq_ok, not_not] at h
  obtain ⟨anonymous, han, sigInput, hsi, sig, hsig, aad, haad, _, ⟨-, rfl⟩, senderSeal, hseal, _,
    ⟨-, rfl⟩, _, hlen, rfl⟩ := h
  refine ⟨anonymous, sigInput, sig, aad, senderSeal, han, hsi, hsig, ?_, hseal, ?_, rfl⟩
  · rw [hlen]; exact haad
  · simp only [List.length_append, length_pushU16, length_senderBlockPrefix,
      Block.length_bytes] at hlen
    unfold sealLength senderBlockRepairBytes senderBlockWithoutRepairBytes
    cases hr : repair.isSome <;> simp [hr] at hlen ⊢ <;> omega

/-- The keys an initiation agreed on, with the ephemeral secret they came from. -/
structure Agreed (P : CryptoProvider) (device : DeviceState) (peer : PeerBundle)
    (cl : Option OptionalClassicalPrekey) (pq : Option OptionalPqPrekey) (k : InitiatorSecrets)
    (ephemeral : Key) : Prop where
  ephemeralPublic : P.x25519Public ephemeral = .ok k.ephemeralPublic
  ratchetPublic : P.x25519Public k.ratchetSecret = .ok k.ratchetPublic
  dh1 : P.x25519Shared device.identitySecret peer.signedPrekeyPublic = .ok k.dh1
  dh2 : P.x25519Shared ephemeral peer.identityPublic = .ok k.dh2
  dh3 : P.x25519Shared ephemeral peer.signedPrekeyPublic = .ok k.dh3
  dh4 : initiatorDh4 P ephemeral cl = .ok k.dh4
  pqSigned : ∃ coins, P.mlkem768Encapsulate peer.pqSignedPrekeyPublic coins =
    .ok (k.pqSignedCiphertext, k.pqSignedSecret)
  pqOneTime : ∀ key, pq = some key → ∃ coins ct ss, P.mlkem768Encapsulate key.publicKey coins =
    .ok (ct, ss) ∧ k.pqOneTimeCiphertext = some ct ∧ k.pqOneTimeSecret = some ss
  pqOneTime_none : pq = none → k.pqOneTimeCiphertext = none ∧ k.pqOneTimeSecret = none
  sessionId_ne : isZero k.sessionId.bytes = false

variable {peer : PeerBundle} {cl : Option OptionalClassicalPrekey} {pq : Option OptionalPqPrekey}

theorem initiatorSecrets_inv {e : Bytes}
    {k : InitiatorSecrets} (h : initiatorSecrets P device peer cl pq e = .ok k) :
    ∃ ephemeral, Agreed P device peer cl pq k ephemeral := by
  unfold initiatorSecrets encapsulate at h
  simp only [ok_steps] at h
  obtain ⟨eph, -, rat, -, ep, hep, rp, hrp, dh1, h1, dh2, h2, dh3, h3, dh4, h4, _,
    ⟨coins, -, sealed, hsealed, rfl⟩, ot, hot, sid, -, _, hz, rfl⟩ := h
  refine ⟨eph.1, ⟨hep, hrp, h1, h2, h3, h4, ⟨_, hsealed⟩, ?_, ?_, by simpa using hz⟩⟩
  · rintro key rfl
    simp only [initiatorPqOneTime, encapsulate, ok_steps] at hot
    obtain ⟨_, ⟨c, -, s, hs, rfl⟩, rfl⟩ := hot
    exact ⟨_, _, _, hs, rfl, rfl⟩
  · rintro rfl
    simp only [initiatorPqOneTime, Except.ok.injEq] at hot
    subst hot
    exact ⟨rfl, rfl⟩

theorem initiate_inv {auth inner e envelope : Bytes} {other : UInt32} {s : RatchetState}
    (h : initiate P device sid rid peer cl pq auth inner other e = .ok (s, envelope)) :
    peer.deviceId = rid ∧ sid ≠ rid ∧ ∃ repair keys ephemeral shared header dh transcript,
      verifyRepairAuthorization P device auth = .ok repair ∧
      Agreed P device peer cl pq keys ephemeral ∧
      pqxdhSecret P keys.pqxdhIkm = .ok shared ∧
      initialHeader P device sid rid (initiatorHeaderPrefix peer cl pq repair keys) repair
        keys.anonymousIkm = .ok header ∧
      P.x25519Shared keys.ratchetSecret peer.signedPrekeyPublic = .ok dh ∧
      encryptEnvelope P rid header (messageKeyOf P (chainStart P shared dh)) inner keys.entropy =
        .ok envelope ∧
      P.sha256 header = .ok transcript ∧
      s = initiatedSession sid rid peer keys transcript (nextRoot P shared dh)
        (nextChainOf P (chainStart P shared dh)) := by
  unfold initiate at h
  simp only [ok_steps, kdfRoot_eq, chainStep_eq, Prod.mk.injEq, not_or, not_not] at h
  obtain ⟨_, ⟨hpeer, hne, -⟩, repair, hrep, keys, hkeys, shared, hsh, header, hhd, dh, hdh, _, rfl,
    _, rfl, env, henv, th, hth, rfl, rfl⟩ := h
  obtain ⟨eph, ha⟩ := initiatorSecrets_inv hkeys
  exact ⟨hpeer, hne, repair, keys, eph, shared, header, dh, th, hrep, ha, hsh, hhd, hdh, henv, hth,
    rfl⟩

/-! ## The responder derives the same keys -/

/-- The bundle the initiator used names keys `recipient` still holds. -/
structure HonestBundle (recipient : DeviceState) (peer : PeerBundle)
    (cl : Option OptionalClassicalPrekey) (pq : Option OptionalPqPrekey) : Prop where
  ik : peer.ikPublic = recipient.ikPublic
  signed : ∃ k, recipient.signedClassical peer.signedPrekeyId = some k ∧
    k.publicKey = peer.signedPrekeyPublic
  pqSigned : ∃ k, recipient.signedPq peer.pqSignedPrekeyId = some k ∧
    k.publicKey = peer.pqSignedPrekeyPublic
  oneTime : ∀ c, cl = some c → ∃ k, recipient.findClassicalOneTime c.id = some k ∧
    k.publicKey = c.publicKey
  pqOneTime : ∀ c, pq = some c → ∃ k, recipient.findPqOneTime c.id = some k ∧
    k.publicKey = c.publicKey

section Responder

variable {P : CryptoProvider} {sender recipient : DeviceState} {peer : PeerBundle}
  {cl : Option OptionalClassicalPrekey} {pq : Option OptionalPqPrekey} {k : InitiatorSecrets}
  {ephemeral : Key} {repair : Option (Block 16 × Key)} {senderSeal : Bytes}

theorem HonestBundle.identityPublic (hb : HonestBundle recipient peer cl pq) :
    peer.identityPublic = recipient.identityPublic := by
  unfold PeerBundle.identityPublic
  rw [hb.ik]
  exact Block.slice_append_right _ _ _

variable (hr : recipient.Valid P) (hb : HonestBundle recipient peer cl pq)
  (ha : Agreed P sender peer cl pq k ephemeral)
include hr hb ha

theorem responder_dh4 (hP : Correct P) :
    responderDh4 P recipient (initiatorHeader peer cl pq repair k senderSeal) = .ok k.dh4 := by
  obtain ⟨-, -, -, hcl, -, -⟩ := initiatorFlags_spec cl.isSome pq.isSome repair.isSome
  have h4 := ha.dh4
  unfold responderDh4 initiatorHeader
  cases cl with
  | none =>
    simp only [initiatorDh4, Except.ok.injEq] at h4
    simp_all
  | some c =>
    obtain ⟨key, hk, hpub⟩ := hb.oneTime c rfl
    have hpair := hr.classicalOneTime key (List.mem_of_find?_eq_some hk)
    simp only [initiatorDh4, ok_steps] at h4
    obtain ⟨dh, hdh, h4⟩ := h4
    have hsym := hP.shared_comm ha.ephemeralPublic hpair (hpub ▸ hdh)
    simp_all

theorem responder_pqOneTime :
    responderPqOneTime P recipient (initiatorHeader peer cl pq repair k senderSeal) =
      .ok k.pqOneTimeSecret := by
  obtain ⟨-, -, -, -, hpq, -⟩ := initiatorFlags_spec cl.isSome pq.isSome repair.isSome
  unfold responderPqOneTime initiatorHeader
  cases pq with
  | none =>
    obtain ⟨-, hnone⟩ := ha.pqOneTime_none rfl
    simp_all
  | some c =>
    obtain ⟨key, hk, hpub⟩ := hb.pqOneTime c rfl
    obtain ⟨coins, ct, ss, henc, hct, hss⟩ := ha.pqOneTime c rfl
    have hdec := hr.pqOneTime key (List.mem_of_find?_eq_some hk) coins ct ss (hpub ▸ henc)
    simp_all

theorem responder_secrets (hP : Correct P) :
    responderInitialSecrets P recipient (initiatorHeader peer cl pq repair k senderSeal) =
      .ok ⟨k.dh3, k.dh4, k.pqSignedSecret, k.pqOneTimeSecret⟩ := by
  obtain ⟨spk, hspk, hpub⟩ := hb.signed
  obtain ⟨pqk, hpqk, hpqpub⟩ := hb.pqSigned
  obtain ⟨coins, henc⟩ := ha.pqSigned
  have hdh3 := hP.shared_comm ha.ephemeralPublic (hr.classical _ _ hspk) (hpub ▸ ha.dh3)
  have hdec := hr.pq _ _ hpqk coins _ _ (hpqpub ▸ henc)
  unfold responderInitialSecrets
  rw [responder_dh4 hr hb ha hP, responder_pqOneTime hr hb ha]
  simp only [initiatorHeader, hspk, hpqk, okOr_some, ok_bind, hdh3, hdec, pure_eq_ok]

theorem responder_agreement (hP : Correct P) (hs : sender.Valid P) {shared dh : Key}
    (hsh : pqxdhSecret P k.pqxdhIkm = .ok shared)
    (hdh : P.x25519Shared k.ratchetSecret peer.signedPrekeyPublic = .ok dh)
    (repair : Option (Block 16 × Key)) (senderSeal : Bytes) :
    ∃ spk, recipient.signedClassical peer.signedPrekeyId = some spk ∧
      spk.publicKey = peer.signedPrekeyPublic ∧
      responderAgreement P recipient (initiatorHeader peer cl pq repair k senderSeal)
        sender.identityPublic = .ok (spk, nextRoot P shared dh, chainStart P shared dh) := by
  obtain ⟨spk, hspk, hpub⟩ := hb.signed
  have hpair := hr.classical _ _ hspk
  refine ⟨spk, hspk, hpub, ?_⟩
  have hdh1 := hP.shared_comm hs.identity hpair (hpub ▸ ha.dh1)
  have hdh2 := hP.shared_comm ha.ephemeralPublic hr.identity (hb.identityPublic ▸ ha.dh2)
  have hrat := hP.shared_comm ha.ratchetPublic hpair (hpub ▸ hdh)
  have hikm : responderIkm k.dh1 k.dh2 ⟨k.dh3, k.dh4, k.pqSignedSecret, k.pqOneTimeSecret⟩ =
      k.pqxdhIkm := rfl
  unfold responderAgreement
  rw [responder_secrets hr hb ha hP]
  simp only [initiatorHeader, hspk, okOr_some, ok_bind, hdh1, hdh2, hikm, hsh, hrat, kdfRoot_eq,
    pure_eq_ok]

omit hr hb ha

/-! ## Probing -/

theorem deviceProbeKey_eq (P : CryptoProvider) (secret : Key) :
    deviceProbeKey P secret = .ok (P.hkdf (List.replicate 32 0) secret.bytes sealedSenderDomain 32) :=
  hkdfSha256_eq P (by simp [maxInputBytes]) (by simp [maxInputBytes]) (by decide) (by decide)

theorem length_initiatorHeaderPrefix (peer : PeerBundle) (cl : Option OptionalClassicalPrekey)
    (pq : Option OptionalPqPrekey) (repair : Option (Block 16 × Key)) (k : InitiatorSecrets) :
    1194 ≤ (initiatorHeaderPrefix peer cl pq repair k).length ∧
      (initiatorHeaderPrefix peer cl pq repair k).length ≤ 2282 := by
  have hopt : (optionBytes k.pqOneTimeCiphertext).length ≤ 1088 := by
    cases k.pqOneTimeCiphertext <;> simp [optionBytes]
  unfold initiatorHeaderPrefix initialHeaderPrefix
  simp only [List.length_append, Block.length_bytes, length_pushU32, List.length_cons,
    List.length_nil]
  omega

def senderBlockOf (sender : DeviceState) (sid : Block 16) (repair : Option (Block 16 × Key))
    (sig : Block 64) : SenderBlock :=
  ⟨sender.userId, sid, sender.ikPublic, sender.registrationId, sender.bundleVersion, repair, sig⟩

/-- What the recipient reads from an initial envelope: the header, the signed sender block, and
the payload sealed under the first message key. -/
structure Readable (P : CryptoProvider) (sender recipient : DeviceState) (sid rid : Block 16)
    (peer : PeerBundle) (cl : Option OptionalClassicalPrekey) (pq : Option OptionalPqPrekey)
    (repair : Option (Block 16 × Key)) (k : InitiatorSecrets) (messageKey : Key)
    (inner header envelope senderSeal ct sigInput : Bytes) (sig : Block 64) (token : Key) :
    Prop where
  parse : Envelope.parse envelope =
    .ok ⟨header, .initial (initiatorHeader peer cl pq repair k senderSeal), ct⟩
  headerPrefix : headerPrefixOf header (initiatorHeader peer cl pq repair k senderSeal) =
    .ok (initiatorHeaderPrefix peer cl pq repair k)
  payload : SealedUnder P rid header messageKey inner ct
  bucket : envelope.length ∈ allowedBuckets
  signatureInput : initSignatureInput rid (initiatorHeaderPrefix peer cl pq repair k)
    (senderBlockPrefix sender sid repair) = .ok sigInput
  signature : P.ed25519Sign sender.deviceSigningSecret sigInput = .ok sig
  probe : probeInitial P recipient rid envelope = .ok ⟨senderBlockOf sender sid repair sig, token⟩

theorem initialHeader_reads (ha : Agreed P sender peer cl pq k ephemeral)
    {senderSeal header : Bytes} (hlen : senderSeal.length = sealLength repair.isSome)
    (hheader : header = initiatorHeaderPrefix peer cl pq repair k ++
      pushU16 (UInt16.ofNat senderSeal.length) ++ senderSeal) :
    RatchetHeader.parse header = .ok (.initial (initiatorHeader peer cl pq repair k senderSeal)) ∧
      headerPrefixOf header (initiatorHeader peer cl pq repair k senderSeal) =
        .ok (initiatorHeaderPrefix peer cl pq repair k) ∧
      58 ≤ header.length ∧ header.length < 2 ^ 16 := by
  have hct : k.pqOneTimeCiphertext.isSome = pq.isSome := by
    cases pq with
    | none => simp [(ha.pqOneTime_none rfl).1]
    | some c =>
      obtain ⟨_, _, _, -, h, -⟩ := ha.pqOneTime c rfl
      simp [h]
  have hparse := parse_initialHeader peer cl pq repair k senderSeal ha.sessionId_ne hct hlen
  rw [← hheader] at hparse
  have hl := length_initiatorHeaderPrefix peer cl pq repair k
  have hll : header.length =
      (initiatorHeaderPrefix peer cl pq repair k).length + 2 + senderSeal.length := by
    rw [hheader]; simp; omega
  have hsmall : senderSeal.length ≤ 234 := by
    rw [hlen, sealLength]
    split <;> decide
  refine ⟨hparse, ?_, by omega, by omega⟩
  unfold headerPrefixOf
  have hsealeq : (initiatorHeader peer cl pq repair k senderSeal).senderSeal = senderSeal := rfl
  rw [hsealeq, failIf_neg (by omega), ok_bind, hll, hheader]
  simp only [ok_steps, List.append_assoc]
  exact List.take_left' (by omega)

theorem probe_of_initiate (hP : Correct P) (hs : sender.Valid P) (hr : recipient.Valid P)
    (hb : HonestBundle recipient peer cl pq) (ha : Agreed P sender peer cl pq k ephemeral)
    {header inner e envelope : Bytes} {messageKey : Key}
    (hhead : initialHeader P sender sid rid (initiatorHeaderPrefix peer cl pq repair k) repair
      k.anonymousIkm = .ok header)
    (henc : encryptEnvelope P rid header messageKey inner e = .ok envelope) :
    ∃ senderSeal ct sigInput sig token, Readable P sender recipient sid rid peer cl pq repair k
      messageKey inner header envelope senderSeal ct sigInput sig token := by
  obtain ⟨anonymous, sigInput, sig, aad, senderSeal, han, hsi, hsig, haad, hseal, hlen, hheader⟩ :=
    initialHeader_inv hhead
  obtain ⟨hparse, hprefix, hl⟩ := initialHeader_reads ha hlen hheader
  obtain ⟨ct, hpe, hsu, hbk⟩ := encryptEnvelope_parse henc (by omega) hparse
  obtain ⟨hash, hhash⟩ := hP.sha256_total envelope (length_le_of_mem_buckets hbk)
  obtain ⟨-, -, -, -, -, hrepair⟩ := initiatorFlags_spec cl.isSome pq.isSome repair.isSome
  have hflag : decide ((initiatorHeader peer cl pq repair k senderSeal).flags &&&
      flagRepairReplacement ≠ 0) = repair.isSome := by
    rw [decide_not]; exact hrepair
  have hopen := hP.aead_opens _ _ _ _ _ hseal
  have hikm : InitialSecrets.anonymousIkm ⟨k.dh3, k.dh4, k.pqSignedSecret, k.pqOneTimeSecret⟩ =
      k.anonymousIkm := rfl
  have hsb := senderBlock_parse sender sid repair sig hs.bundleVersion_ne
  have hmac : (probeMagic ++ rid.bytes ++ hash.bytes ++
      (senderBlockPrefix sender sid repair ++ sig.bytes)).length ≤ maxInputBytes := by
    simp only [List.length_append, Block.length_bytes, length_senderBlockPrefix]
    have : probeMagic.length = 8 := by decide
    unfold maxInputBytes
    split <;> omega
  refine ⟨senderSeal, ct, sigInput, sig, P.hmac (P.hkdf (List.replicate 32 0)
    recipient.identitySecret.bytes sealedSenderDomain 32).bytes (probeMagic ++ rid.bytes ++
      hash.bytes ++ (senderBlockPrefix sender sid repair ++ sig.bytes)),
    hpe, hprefix, hsu, hbk, hsi, hsig, ?_⟩
  unfold probeInitial
  rw [hpe, ok_bind]
  simp only
  rw [responder_secrets hr hb ha hP, ok_bind, hikm, han, ok_bind, hprefix, ok_bind, haad, ok_bind]
  have hsealeq : (initiatorHeader peer cl pq repair k senderSeal).senderSeal = senderSeal := rfl
  rw [hsealeq, hopen, ok_bind, hsb, ok_bind, hflag, failIf_neg (by simp), ok_bind, hhash, ok_bind,
    deviceProbeKey_eq, ok_bind, hmacSha256_eq P (by simp [maxInputBytes]) hmac]
  rfl

/-! ## Accepting -/

/-- The live-set entry the recipient authenticated is the sender's, at the same or a newer bundle
version. -/
structure HonestProjection (sender : DeviceState) (sid : Block 16)
    (proj : AuthenticatedSenderProjection) : Prop where
  userId : proj.userId = sender.userId
  deviceId : proj.deviceId = sid
  ikPublic : proj.ikPublic = sender.ikPublic
  registrationId : proj.registrationId = sender.registrationId
  bundleVersion : sender.bundleVersion ≤ proj.bundleVersion

theorem consumeNamed_eq (hr : recipient.Valid P) (hb : HonestBundle recipient peer cl pq) :
    consumeNamed recipient (initiatorHeader peer cl pq repair k senderSeal) =
      .ok (recipient.withoutOneTime (cl.map (·.id)) (pq.map (·.id)),
        cl.elim absentPrekeyId (·.id), pq.elim absentPrekeyId (·.id)) := by
  obtain ⟨-, -, -, hcl, hpq, -⟩ := initiatorFlags_spec cl.isSome pq.isSome repair.isSome
  unfold consumeNamed initiatorHeader DeviceState.withoutOneTime
  cases cl with
  | none =>
    cases pq with
    | none => simp_all
    | some q =>
      obtain ⟨kq, hq, -⟩ := hb.pqOneTime q rfl
      have := consumePqOneTime_eq hr.pqOneTime_sorted hq
      simp_all
  | some c =>
    obtain ⟨kc, hc, -⟩ := hb.oneTime c rfl
    have h1 := consumeClassicalOneTime_eq hr.classicalOneTime_sorted hc
    cases pq with
    | none => simp_all
    | some q =>
      obtain ⟨kq, hq, -⟩ := hb.pqOneTime q rfl
      have h2 := consumePqOneTime_eq (d := { recipient with
        classicalOneTime := recipient.classicalOneTime.filter (·.id ≠ c.id) }) hr.pqOneTime_sorted hq
      simp_all

/-- `accept_initial` opens what `initiate` sealed, for any existing and replaced session that pass
their checks, and starts the session with the initiator's keys. -/
theorem accept_of_initiate (hP : Correct P) (hs : sender.Valid P) (hr : recipient.Valid P)
    (hb : HonestBundle recipient peer cl pq)
    {proj : AuthenticatedSenderProjection} (hproj : HonestProjection sender sid proj)
    {auth inner e envelope existing replaced : Bytes} {other : UInt32} {s : RatchetState}
    (hinit : initiate P sender sid rid peer cl pq auth inner other e = .ok (s, envelope))
    (hrep : verifyRepairAuthorization P sender auth = .ok repair)
    {replacedId : Option (Block 16)} {ex : Option RatchetState} {upd : Bytes}
    (hre : checkReplaced P recipient rid sid repair existing replaced = .ok replacedId)
    (hex : readExisting P recipient rid sid repair.isSome existing = .ok ex)
    (hdem : encodeDemoted P recipient (incomingWins repair.isSome ex sid rid) ex = .ok upd) :
    ∃ probe acc keys ephemeral shared dh transcript spk senderSeal,
      probeInitial P recipient rid envelope = .ok probe ∧
      acceptInitial P recipient rid envelope probe.probeToken proj existing replaced = .ok acc ∧
      Agreed P sender peer cl pq keys ephemeral ∧
      P.x25519Shared keys.ratchetSecret peer.signedPrekeyPublic = .ok dh ∧
      pqxdhSecret P keys.pqxdhIkm = .ok shared ∧
      s = initiatedSession sid rid peer keys transcript (nextRoot P shared dh)
        (nextChainOf P (chainStart P shared dh)) ∧
      recipient.signedClassical peer.signedPrekeyId = some spk ∧
      spk.publicKey = peer.signedPrekeyPublic ∧
      acc.session = acceptedSession rid sid (initiatorHeader peer cl pq repair keys senderSeal)
        transcript (incomingWins repair.isSome ex sid rid) (nextRoot P shared dh)
        (nextChainOf P (chainStart P shared dh)) spk ∧
      acc.session.encode P recipient = .ok acc.sessionState ∧
      acc.inner = inner ∧ acc.updatedExistingState = upd ∧
      encodeDeviceState P (recipient.withoutOneTime (cl.map (·.id)) (pq.map (·.id))) =
        .ok acc.nextDeviceState := by
  obtain ⟨hpeer, hne, repair', keys, ephemeral, shared, header, dh, transcript, hrep', ha, hsh,
    hhead, hdh, henc, hth, hstate⟩ := initiate_inv hinit
  rw [hrep] at hrep'; cases hrep'
  obtain ⟨senderSeal, ct, sigInput, sig, token, hread⟩ :=
    probe_of_initiate hP hs hr hb ha hhead henc
  obtain ⟨spk, hspk, hspkpub, hagree⟩ := responder_agreement hr hb ha hP hs hsh hdh repair senderSeal
  have hidentity : proj.identityPublic = sender.identityPublic := by
    unfold AuthenticatedSenderProjection.identityPublic
    rw [hproj.ikPublic]; exact Block.slice_append_right _ _ _
  have hsigning : proj.deviceSigningPublic = sender.deviceSigningPublic := by
    unfold AuthenticatedSenderProjection.deviceSigningPublic
    rw [hproj.ikPublic]; exact Block.slice_append_left _ _ _
  have hverify := hs.signing _ _ hread.signature
  have hopen := hread.payload.opens hP
    (.initial (initiatorHeader peer cl pq repair keys senderSeal))
  obtain ⟨marker, hmarker⟩ := hP.sha256_total envelope (length_le_of_mem_buckets hread.bucket)
  obtain ⟨dev, hdev⟩ := encodeDeviceState_withoutOneTime hr (cl.map (·.id)) (pq.map (·.id))
  obtain ⟨enc, hencs⟩ := encode_of_noSkip (P := P) (s := acceptedSession rid sid
    (initiatorHeader peer cl pq repair keys senderSeal) transcript
    (incomingWins repair.isSome ex sid rid) (nextRoot P shared dh)
    (nextChainOf P (chainStart P shared dh)) spk) rfl recipient
  have hmatch : probeMatches ⟨senderBlockOf sender sid repair sig, token⟩ token proj rid = true := by
    simp [probeMatches, senderBlockOf, hproj.userId, hproj.deviceId, hproj.ikPublic,
      hproj.registrationId, hproj.bundleVersion, hne]
  have hacc : acceptInitial P recipient rid envelope token proj existing replaced = .ok
      { nextDeviceState := dev
        session := acceptedSession rid sid (initiatorHeader peer cl pq repair keys senderSeal)
          transcript (incomingWins repair.isSome ex sid rid) (nextRoot P shared dh)
          (nextChainOf P (chainStart P shared dh)) spk
        sessionState := enc
        inner := inner
        replayMarker := marker
        consumedClassicalId := cl.elim absentPrekeyId (·.id)
        consumedPqId := pq.elim absentPrekeyId (·.id)
        disposition := (!incomingWins repair.isSome ex sid rid).toUInt8
        updatedExistingState := upd
        replacedSessionId := replacedId
        referencedSignedPrekeyId := peer.signedPrekeyId
        referencedPqSignedPrekeyId := peer.pqSignedPrekeyId } := by
    unfold acceptInitial
    rw [hread.probe, ok_bind, failIf_neg (by rw [hmatch]; simp), ok_bind, hread.parse, ok_bind]
    simp only
    rw [hread.headerPrefix]
    simp only [senderBlockOf, prefixBytes_eq, hread.signatureInput, hsigning, hverify, hproj.deviceId,
      hre, hex, hidentity, hagree, chainStep_eq, hopen, hth, hdem, consumeNamed_eq hr hb, ok_bind]
    rw [encode_congr (d := recipient.withoutOneTime _ _) (e := recipient) rfl, hencs]
    simp only [hdev, hmarker, ok_bind, pure_eq_ok]
    rfl
  exact ⟨_, _, keys, ephemeral, shared, dh, transcript, spk, senderSeal, hread.probe, hacc, ha, hdh,
    hsh, hstate, hspk, hspkpub, rfl, hencs, rfl, rfl, hdev⟩

/-- The replaced session the recipient supplies: none without a repair block, else the state that
holds the repair token it issued to this sender. -/
def HoldsIssuedToken (P : CryptoProvider) (recipient : DeviceState) (rid sid : Block 16)
    (replaced : Bytes) : Option (Block 16 × Key) → Prop
  | none => replaced = []
  | some (oldSessionId, repairToken) => ∃ old, RatchetState.decode P recipient replaced = .ok old ∧
      old.sessionId = oldSessionId ∧ old.localDeviceId = rid ∧ old.remoteDeviceId = sid ∧
      old.issuedRepairToken = some repairToken

theorem checkReplaced_of_holds {replaced : Bytes}
    (h : HoldsIssuedToken P recipient rid sid replaced repair) :
    checkReplaced P recipient rid sid repair [] replaced = .ok (repair.map (·.1)) := by
  unfold checkReplaced
  cases repair with
  | none =>
    have hnil : replaced = [] := h
    simp [hnil, failIf]
  | some r =>
    obtain ⟨old, hdec, hsid, hlocal, hremote, htoken⟩ := h
    have hne : replaced ≠ [] := by
      rintro rfl
      cases hdec
    simp only
    rw [failIf_neg (by simp [hne]), ok_bind, hdec, ok_bind,
      failIf_neg (by simp [hsid, hlocal, hremote, htoken])]
    rfl

end Responder

/-! ## Two sum devices -/

theorem one_nonzero : isZero (Block.fill 16 1).bytes = false := by decide

theorem two_nonzero : isZero (Block.fill 16 2).bytes = false := by decide

def sumBundle (seed : UInt8) (h : isZero (Block.fill 16 seed).bytes = false) : PeerBundle where
  deviceId := Block.fill 16 seed
  ikPublic := (sumDevice seed).ikPublic
  signedPrekeyId := 1
  signedPrekeyPublic := Block.fill 32 seed
  pqSignedPrekeyId := 1
  pqSignedPrekeyPublic := Block.fill 1184 seed
  signedPrekeyId_le := by decide
  pqSignedPrekeyId_le := by decide
  deviceId_ne := h

def sumOneTime (seed : UInt8) : OptionalClassicalPrekey := ⟨7, Block.fill 32 seed, by decide⟩

def sumPqOneTime (seed : UInt8) : OptionalPqPrekey := ⟨7, Block.fill 1184 seed, by decide⟩

variable (seed : UInt8)

theorem sumBundle_honest (h : isZero (Block.fill 16 seed).bytes = false) :
    HonestBundle (sumDevice seed) (sumBundle seed h) (some (sumOneTime seed))
      (some (sumPqOneTime seed)) where
  ik := rfl
  signed := ⟨_, rfl, rfl⟩
  pqSigned := ⟨_, rfl, rfl⟩
  oneTime c hc := by cases hc; exact ⟨_, rfl, rfl⟩
  pqOneTime c hc := by cases hc; exact ⟨_, rfl, rfl⟩

def sumProjection (seed : UInt8) (h : isZero (Block.fill 16 seed).bytes = false) :
    AuthenticatedSenderProjection where
  userId := Block.fill 16 seed
  deviceId := Block.fill 16 seed
  ikPublic := (sumDevice seed).ikPublic
  registrationId := 1
  bundleVersion := 1
  deviceId_ne := h

theorem sumProjection_honest (h : isZero (Block.fill 16 seed).bytes = false) :
    HonestProjection (sumDevice seed) (Block.fill 16 seed) (sumProjection seed h) :=
  ⟨rfl, rfl, rfl, rfl, UInt32.le_refl _⟩

def sumIssued : RatchetState where
  sessionId := Block.fill 16 9
  localDeviceId := Block.fill 16 2
  remoteDeviceId := Block.fill 16 1
  initiatorDeviceId := Block.fill 16 1
  transcriptHash := Block.fill 32 0
  primary := true
  receiveOnly := false
  rootKey := Block.fill 32 3
  sendingChain := none
  receivingChain := some (Block.fill 32 4)
  localRatchetSecret := Block.fill 32 2
  localRatchetPublic := Block.fill 32 2
  remoteRatchetPublic := Block.fill 32 1
  sendCount := 0
  receiveCount := 1
  previousSendCount := 0
  skipped := []
  issuedRepairToken := some (Block.fill 32 6)
  receivedRepairToken := none

def sumAuthorization : Bytes :=
  repairAuthMagic ++ (Block.fill 16 9).bytes ++ (Block.fill 32 6).bytes ++
    (sumProvider.hmac (sumProvider.hkdf (List.replicate 32 0) (sumDevice 1).identitySecret.bytes
      sealedSenderDomain 32).bytes repairDomain).bytes

/-! ## Agreement -/

/-- The handshake agrees: what `initiate` returns is accepted by `probe_initial` and then
`accept_initial`, the inner bytes arrive, both ends hold the same root key, chain, session id and
transcript, and exactly the named one-time keys are gone from the recipient's next state. -/
theorem handshake_agreement (P : CryptoProvider) (hP : Correct P) (sender recipient : DeviceState)
    (hs : sender.Valid P) (hr : recipient.Valid P) (peer : PeerBundle)
    (cl : Option OptionalClassicalPrekey) (pq : Option OptionalPqPrekey)
    (hb : HonestBundle recipient peer cl pq) (sid rid : Block 16)
    (proj : AuthenticatedSenderProjection) (hproj : HonestProjection sender sid proj)
    (auth inner e replaced : Bytes) (other : UInt32) (repair : Option (Block 16 × Key))
    (hrep : verifyRepairAuthorization P sender auth = .ok repair)
    (hold : HoldsIssuedToken P recipient rid sid replaced repair)
    (s : RatchetState) (envelope : Bytes)
    (hinit : initiate P sender sid rid peer cl pq auth inner other e = .ok (s, envelope)) :
    ∃ probe acc, probeInitial P recipient rid envelope = .ok probe ∧
      acceptInitial P recipient rid envelope probe.probeToken proj [] replaced = .ok acc ∧
      acc.inner = inner ∧ acc.session.rootKey = s.rootKey ∧
      acc.session.receivingChain = s.sendingChain ∧ acc.session.sessionId = s.sessionId ∧
      acc.session.transcriptHash = s.transcriptHash ∧
      acc.session.encode P recipient = .ok acc.sessionState ∧
      encodeDeviceState P (recipient.withoutOneTime (cl.map (·.id)) (pq.map (·.id))) =
        .ok acc.nextDeviceState := by
  have hex : readExisting P recipient rid sid repair.isSome [] = .ok none := rfl
  have hdem : encodeDemoted P recipient (incomingWins repair.isSome none sid rid) none = .ok [] := by
    cases incomingWins repair.isSome none sid rid <;> rfl
  obtain ⟨probe, acc, keys, _, shared, dh, transcript, spk, _, hprobe, hacc, -, -, -, hstate, -, -,
    hsession, henc, hinner, -, hdev⟩ := accept_of_initiate hP hs hr hb hproj hinit hrep
      (checkReplaced_of_holds hold) hex hdem
  refine ⟨probe, acc, hprobe, hacc, hinner, ?_, ?_, ?_, ?_, henc, hdev⟩ <;>
    rw [hsession, hstate] <;> rfl

-- a definition, for the call to be evaluated where it stands
theorem sumInitiates : (initiate sumProvider (sumDevice 1) (Block.fill 16 1) (Block.fill 16 2)
    (sumBundle 2 two_nonzero) (some (sumOneTime 2)) (some (sumPqOneTime 2)) sumAuthorization [10, 20]
    0 (List.replicate 4096 5)).toOption.isSome = true := by
  decide +kernel

/-- Agreement for two sum devices, with both one-time keys and a repair. -/
theorem handshake_agreement_sumDevice : ∃ s envelope replaced,
    initiate sumProvider (sumDevice 1) (Block.fill 16 1) (Block.fill 16 2) (sumBundle 2 (by decide))
      (some (sumOneTime 2)) (some (sumPqOneTime 2)) sumAuthorization [10, 20] 0
      (List.replicate 4096 5) = .ok (s, envelope) ∧
    ∃ probe acc, probeInitial sumProvider (sumDevice 2) (Block.fill 16 2) envelope = .ok probe ∧
      acceptInitial sumProvider (sumDevice 2) (Block.fill 16 2) envelope probe.probeToken
        (sumProjection 1 (by decide)) [] replaced = .ok acc ∧
      acc.inner = [10, 20] ∧ acc.session.rootKey = s.rootKey := by
  obtain ⟨⟨s, envelope⟩, hinit⟩ := exists_ok_of_isSome sumInitiates
  obtain ⟨replaced, henc⟩ := encode_of_noSkip (P := sumProvider) (s := sumIssued) rfl (sumDevice 2)
  have hdec : RatchetState.decode sumProvider (sumDevice 2) replaced = .ok sumIssued := by
    rw [decode_encode henc]; rfl
  obtain ⟨probe, acc, hprobe, hacc, hinner, hroot, -⟩ := handshake_agreement sumProvider
    sumProvider_correct (sumDevice 1) (sumDevice 2) (sumDevice_valid 1) (sumDevice_valid 2) _ _ _
    (sumBundle_honest 2 (by decide)) _ _ _ (sumProjection_honest 1 (by decide)) _ _ _ replaced 0
    (some (Block.fill 16 9, Block.fill 32 6)) rfl
    ⟨sumIssued, hdec, rfl, rfl, rfl, rfl⟩ s envelope hinit
  exact ⟨s, envelope, replaced, hinit, probe, acc, hprobe, hacc, hinner, hroot⟩

end CommPlatform.L3
