import CommPlatform.L2Crypto.DeviceCodec
import CommPlatform.L3Protocol.Handshake
import CommPlatform.L3Protocol.RoomControl

/-!
# Everything that is signed

The nine messages that are signed or verified with an Ed25519 key. Each is
a domain followed by frames: fields with their length in front. The domains
are bare text, so the reading of a message starts from the fact that none
of them is the start of another; the frames then say which fields they hold
(`frames_inj`).

Bare line numbers are those of `device_signatures.rs`.
-/
namespace CommPlatform.Signed

open CommPlatform.Core L1 L2 L3
open Application (frame)
open List (append_assoc append_inj)

/-! ## The messages -/

def deviceLogDomain : Bytes := ascii "chat:v1:device-log-record"
def userAttestationDomain : Bytes := ascii "chat:v1:user-signing-attestation"

/-- mirrors :143-147 -/
structure PublicPrekey where
  id : UInt32
  publicKey : Bytes

/-- mirrors :156-160 -/
structure SignedPrekey where
  userId : Block 16
  prekey : PublicPrekey

/-- mirrors :129-141 -/
structure DeviceBundle where
  userId : Block 16
  deviceId : Block 16
  ikPublic : Block 64
  spkId : UInt32
  spkPublic : Bytes
  pqSignedPrekey : Option PublicPrekey
  registrationId : UInt32
  bundleVersion : UInt32

/-- mirrors :149-154 -/
structure CrossSigningIdentity where
  userId : Block 16
  selfSigningPublic : Bytes
  userSigningPublic : Bytes

/-- The arguments of `encode_device_log_signature`. -/
structure DeviceLogRecord where
  userId : Block 16
  sequence : UInt64
  previousHash : Block 32
  liveSetHash : Block 32
  identityVersion : UInt32
  coarseUnixDay : UInt32

/-- The arguments of `encode_user_attestation`. -/
structure UserAttestation where
  signerUser : Block 16
  peerUser : Block 16
  peerMaster : Key

/-- The arguments of `init_signature_input`. -/
structure InitAuth where
  recipientDeviceId : Block 16
  headerPrefix : Bytes
  senderBlockPrefix : Bytes

/-- mirrors :249-255 -/
def encodePrekey (domain : Bytes) (prekey : SignedPrekey) : CryptoResult Bytes :=
  L2.encodePrekey domain prekey.userId prekey.prekey.id prekey.prekey.publicKey

def pqFields : Option PublicPrekey → List Bytes
  | some prekey => [pushU32 prekey.id, prekey.publicKey]
  | none => [[], []]

/-- mirrors :162-179 -/
def encodeCrossSignature (bundle : DeviceBundle) : CryptoResult Bytes :=
  encoderFields crossSignatureDomain ([bundle.userId.bytes, bundle.deviceId.bytes,
    bundle.ikPublic.bytes, pushU32 bundle.spkId, bundle.spkPublic] ++
    pqFields bundle.pqSignedPrekey ++ [pushU32 bundle.registrationId, pushU32 bundle.bundleVersion])

/-- mirrors :183-189 -/
def encodeMasterSignature (identity : CrossSigningIdentity) : CryptoResult Bytes :=
  encoderFields masterSignatureDomain
    [identity.userId.bytes, identity.selfSigningPublic, identity.userSigningPublic]

/-- mirrors enrollment.rs:1354-1371 -/
def encodeDeviceLogSignature (r : DeviceLogRecord) : CryptoResult Bytes := do
  let userId ← pushFrame r.userId.bytes
  let sequence ← pushFrame (pushU64 r.sequence)
  let previousHash ← pushFrame r.previousHash.bytes
  let liveSetHash ← pushFrame r.liveSetHash.bytes
  let identityVersion ← pushFrame (pushU32 r.identityVersion)
  let coarseUnixDay ← pushFrame (pushU32 r.coarseUnixDay)
  return deviceLogDomain ++ userId ++ sequence ++ previousHash ++ liveSetHash ++ identityVersion ++
    coarseUnixDay

/-- mirrors enrollment.rs:932-943 -/
def encodeUserAttestation (a : UserAttestation) : CryptoResult Bytes := do
  let signerUser ← pushFrame a.signerUser.bytes
  let peerUser ← pushFrame a.peerUser.bytes
  let peerMaster ← pushFrame a.peerMaster.bytes
  return userAttestationDomain ++ signerUser ++ peerUser ++ peerMaster

/-- What is signed under the device key (the first five), the self-signing key (the next two), the
master key and the user-signing key. A control event is verified before it is decoded, so it is any
byte string here. -/
inductive SignedMessage
  | signedPrekey (prekey : SignedPrekey)
  | pqSignedPrekey (prekey : SignedPrekey)
  | initAuth (auth : InitAuth)
  | groupControl (canonical : Bytes)
  | roomControl (canonical : Bytes)
  | deviceBundle (bundle : DeviceBundle)
  | deviceLogRecord (r : DeviceLogRecord)
  | crossSigningKeys (identity : CrossSigningIdentity)
  | userAttestation (a : UserAttestation)

def SignedMessage.encode : SignedMessage → CryptoResult Bytes
  | .signedPrekey prekey => encodePrekey signedPrekeyDomain prekey
  | .pqSignedPrekey prekey => encodePrekey pqSignedPrekeyDomain prekey
  | .initAuth auth =>
    initSignatureInput auth.recipientDeviceId auth.headerPrefix auth.senderBlockPrefix
  | .groupControl canonical => SignedControl.withDomain GroupControl.signatureDomain canonical
  | .roomControl canonical => SignedControl.withDomain RoomControl.signatureDomain canonical
  | .deviceBundle bundle => encodeCrossSignature bundle
  | .deviceLogRecord r => encodeDeviceLogSignature r
  | .crossSigningKeys identity => encodeMasterSignature identity
  | .userAttestation a => encodeUserAttestation a

/-! ## Domain and fields -/

inductive MessageType
  | signedPrekey | pqSignedPrekey | initAuth | groupControl | roomControl | deviceBundle
  | deviceLogRecord | crossSigningKeys | userAttestation
deriving DecidableEq

def MessageType.domain : MessageType → Bytes
  | .signedPrekey => signedPrekeyDomain
  | .pqSignedPrekey => pqSignedPrekeyDomain
  | .initAuth => initAuthDomain
  | .groupControl => GroupControl.signatureDomain
  | .roomControl => RoomControl.signatureDomain
  | .deviceBundle => crossSignatureDomain
  | .deviceLogRecord => deviceLogDomain
  | .crossSigningKeys => masterSignatureDomain
  | .userAttestation => userAttestationDomain

namespace SignedMessage

def type : SignedMessage → MessageType
  | .signedPrekey _ => .signedPrekey
  | .pqSignedPrekey _ => .pqSignedPrekey
  | .initAuth _ => .initAuth
  | .groupControl _ => .groupControl
  | .roomControl _ => .roomControl
  | .deviceBundle _ => .deviceBundle
  | .deviceLogRecord _ => .deviceLogRecord
  | .crossSigningKeys _ => .crossSigningKeys
  | .userAttestation _ => .userAttestation

def fields : SignedMessage → List Bytes
  | .signedPrekey p | .pqSignedPrekey p => [p.userId.bytes, pushU32 p.prekey.id, p.prekey.publicKey]
  | .initAuth a =>
    [[protocolVersion], [suite], purpose, a.recipientDeviceId.bytes, a.headerPrefix,
      a.senderBlockPrefix]
  | .groupControl canonical | .roomControl canonical => [canonical]
  | .deviceBundle b =>
    [b.userId.bytes, b.deviceId.bytes, b.ikPublic.bytes, pushU32 b.spkId, b.spkPublic] ++
      pqFields b.pqSignedPrekey ++ [pushU32 b.registrationId, pushU32 b.bundleVersion]
  | .deviceLogRecord r =>
    [r.userId.bytes, pushU64 r.sequence, r.previousHash.bytes, r.liveSetHash.bytes,
      pushU32 r.identityVersion, pushU32 r.coarseUnixDay]
  | .crossSigningKeys i => [i.userId.bytes, i.selfSigningPublic, i.userSigningPublic]
  | .userAttestation a => [a.signerUser.bytes, a.peerUser.bytes, a.peerMaster.bytes]

end SignedMessage

def frames (fields : List Bytes) : Bytes := fields.flatMap frame

/-- Fields that a four-byte length can announce. -/
def Framed (fields : List Bytes) : Prop := ∀ f ∈ fields, f.length < 2 ^ 32

theorem frame_append_inj {f f' rest rest' : Bytes} (hf : f.length < 2 ^ 32)
    (hf' : f'.length < 2 ^ 32) (h : frame f ++ rest = frame f' ++ rest') :
    f = f' ∧ rest = rest' := by
  simp only [frame, append_assoc] at h
  obtain ⟨hlength, hrest⟩ := append_inj h (by rw [length_be, length_be])
  have hsame : f.length = f'.length := by
    rw [← ofBe_be (k := 4) (v := f.length) (by omega), hlength, ofBe_be (by omega)]
  exact append_inj hrest hsame

theorem frames_inj {l l' : List Bytes} (hl : Framed l) (hl' : Framed l')
    (h : frames l = frames l') : l = l' := by
  have hframe : ∀ f rest, frame f ++ rest ≠ [] := by
    intro f rest hnil
    have hlength := congrArg List.length hnil
    simp [frame] at hlength
  induction l generalizing l' with
  | nil =>
    cases l' with
    | nil => rfl
    | cons f' l' => exact absurd h.symm (hframe _ _)
  | cons f l ih =>
    cases l' with
    | nil => exact absurd h (hframe _ _)
    | cons f' l' =>
      obtain ⟨hf, htail⟩ := List.forall_mem_cons.mp hl
      obtain ⟨hf', htail'⟩ := List.forall_mem_cons.mp hl'
      obtain ⟨rfl, hrest⟩ := frame_append_inj hf hf' h
      rw [ih htail htail' hrest]

theorem encoderFields_eq_ok {domain b : Bytes} {fields : List Bytes}
    (h : encoderFields domain fields = .ok b) : Framed fields ∧ b = domain ++ frames fields := by
  obtain ⟨-, hfold⟩ := unit_bind_eq_ok.mp h
  clear h
  induction fields generalizing domain with
  | nil =>
    cases hfold
    exact ⟨nofun, (List.append_nil _).symm⟩
  | cons f fields ih =>
    obtain ⟨next, hfield, hrest⟩ := bind_eq_ok.mp hfold
    obtain ⟨length, hlength, hnext⟩ := bind_eq_ok.mp hfield
    obtain ⟨-, hret⟩ := unit_bind_eq_ok.mp hnext
    cases hret
    obtain ⟨hlt, rfl⟩ := tryU32_eq_ok.mp hlength
    obtain ⟨hfields, rfl⟩ := ih hrest
    refine ⟨List.forall_mem_cons.mpr ⟨hlt, hfields⟩, ?_⟩
    rw [pushU32_ofNat hlt]
    simp only [frames, List.flatMap_cons, frame, append_assoc]

theorem pushFrame_bind_eq_ok {f b : Bytes} {k : Bytes → CryptoResult Bytes}
    (h : (pushFrame f >>= k) = .ok b) : f.length < 2 ^ 32 ∧ k (frame f) = .ok b := by
  obtain ⟨framed, hframe, hrest⟩ := bind_eq_ok.mp h
  obtain ⟨hlt, rfl⟩ := pushFrame_eq_ok.mp hframe
  exact ⟨hlt, hrest⟩

theorem withDomain_eq_ok {domain canonical b : Bytes}
    (h : SignedControl.withDomain domain canonical = .ok b) :
    Framed [canonical] ∧ b = domain ++ frames [canonical] := by
  obtain ⟨hlt, hret⟩ := pushFrame_bind_eq_ok h
  cases hret
  refine ⟨List.forall_mem_singleton.mpr hlt, ?_⟩
  rw [frames, List.flatMap_singleton]

theorem SignedMessage.encode_eq_ok {m : SignedMessage} {b : Bytes} (h : m.encode = .ok b) :
    Framed m.fields ∧ b = m.type.domain ++ frames m.fields := by
  cases m with
  | signedPrekey p | pqSignedPrekey p | deviceBundle p | crossSigningKeys p =>
    exact encoderFields_eq_ok h
  | groupControl c | roomControl c => exact withDomain_eq_ok h
  | initAuth a | deviceLogRecord r | userAttestation a =>
    -- one frame after the other
    repeat obtain ⟨_, h⟩ := pushFrame_bind_eq_ok h
    cases h
    refine ⟨by simp only [Framed, fields, List.forall_mem_cons]; simp_all, ?_⟩
    simp only [fields, frames, List.flatMap_cons, List.flatMap_nil, List.append_nil,
      append_assoc, type, MessageType.domain]

/-! ## Reading them back -/

theorem eq_of_domain_isPrefix {t t' : MessageType} (h : t.domain <+: t'.domain) : t = t' := by
  revert h
  cases t <;> cases t' <;> decide

theorem pushU32_inj {a b : UInt32} : pushU32 a = pushU32 b ↔ a = b := by
  refine ⟨fun h => ?_, congrArg _⟩
  exact (Reader.u32_exact.inj trivial trivial (congrArg (· ++ []) h)).1

theorem pushU64_inj {a b : UInt64} : pushU64 a = pushU64 b ↔ a = b := by
  refine ⟨fun h => ?_, congrArg _⟩
  exact (Reader.u64_exact.inj trivial trivial (congrArg (· ++ []) h)).1

theorem pushU32_ne_nil (a : UInt32) : pushU32 a ≠ [] := by
  intro h
  have hlength := congrArg List.length h
  simp at hlength

/-- The first frame of a PQ prekey is empty only when there is none. -/
theorem pqFields_inj {p p' : Option PublicPrekey} (h : pqFields p = pqFields p') : p = p' := by
  cases p with
  | none =>
    cases p' with
    | none => rfl
    | some p' => exact absurd (List.cons.inj h).1.symm (pushU32_ne_nil _)
  | some p =>
    cases p' with
    | none => exact absurd (List.cons.inj h).1 (pushU32_ne_nil _)
    | some p' =>
      obtain ⟨_, _⟩ := p
      obtain ⟨_, _⟩ := p'
      simpa [pqFields, pushU32_inj] using h

theorem SignedPrekey.eq_of_fields {p p' : SignedPrekey}
    (h : [p.userId.bytes, pushU32 p.prekey.id, p.prekey.publicKey] =
      [p'.userId.bytes, pushU32 p'.prekey.id, p'.prekey.publicKey]) : p = p' := by
  obtain ⟨_, _, _⟩ := p
  obtain ⟨_, _, _⟩ := p'
  simpa [Block.bytes_inj, pushU32_inj] using h

theorem DeviceBundle.eq_of_fields {b b' : DeviceBundle}
    (h : (SignedMessage.deviceBundle b).fields = (SignedMessage.deviceBundle b').fields) :
    b = b' := by
  obtain ⟨user, device, ik, spkId, spk, pq, registration, version⟩ := b
  obtain ⟨user', device', ik', spkId', spk', pq', registration', version'⟩ := b'
  obtain ⟨hfront, hback⟩ := List.append_inj' h rfl
  obtain ⟨hfixed, hpq⟩ := append_inj hfront rfl
  obtain rfl := pqFields_inj hpq
  simp only [List.cons.injEq, Block.bytes_inj, pushU32_inj, and_true] at hfixed hback
  obtain ⟨rfl, rfl, rfl, rfl, rfl⟩ := hfixed
  obtain ⟨rfl, rfl⟩ := hback
  rfl

/-- The fields of a message of a known type say which message it is. -/
theorem eq_of_fields {m m' : SignedMessage} (htype : m.type = m'.type)
    (h : m.fields = m'.fields) : m = m' := by
  cases m <;> cases m' <;> cases htype
  case signedPrekey | pqSignedPrekey => rw [SignedPrekey.eq_of_fields h]
  case groupControl | roomControl => rw [(List.cons.inj h).1]
  case deviceBundle => rw [DeviceBundle.eq_of_fields h]
  case deviceLogRecord r r' =>
    obtain ⟨_, _, _, _, _, _⟩ := r
    obtain ⟨_, _, _, _, _, _⟩ := r'
    simpa [SignedMessage.fields, Block.bytes_inj, pushU32_inj, pushU64_inj] using h
  case initAuth a a' | crossSigningKeys a a' | userAttestation a a' =>
    obtain ⟨_, _, _⟩ := a
    obtain ⟨_, _, _⟩ := a'
    simpa [SignedMessage.fields, Block.bytes_inj] using h

/-! ## The byte strings that are fields

The two slices a session initiation is signed over and the canonical bytes of a control event are
encodings themselves. -/

/-- What the signature covers of an initial header, all but the sealed sender block. -/
def signedHeader (h : InitialHeader) : Bytes :=
  initialHeaderPrefix h.flags h.sessionId h.ratchetPublic h.signedPrekeyId h.oneTimePrekeyId
    h.pqSignedPrekeyId h.pqOneTimePrekeyId h.ephemeralPublic h.pqSignedCiphertext
    h.pqOneTimeCiphertext

theorem optionBytes_inj {n : Nat} (hn : n ≠ 0) {o o' : Option (Block n)}
    (h : optionBytes o = optionBytes o') : o = o' := by
  have hne : ∀ b : Block n, b.bytes ≠ [] := by
    intro b hnil
    have hlength := b.length_bytes
    rw [hnil] at hlength
    exact hn hlength.symm
  cases o with
  | none =>
    cases o' with
    | none => rfl
    | some b' => exact absurd h.symm (hne b')
  | some b =>
    cases o' with
    | none => exact absurd h (hne b)
    | some b' => rw [Block.bytes_inj.mp h]

theorem signedHeader_inj {h h' : InitialHeader} (heq : signedHeader h = signedHeader h') :
    { h with senderSeal := h'.senderSeal } = h' := by
  obtain ⟨flags, session, ratchet, spk, opk, pqSpk, pqOpk, ephemeral, ct, oneTime, hseal⟩ := h
  obtain ⟨flags', session', ratchet', spk', opk', pqSpk', pqOpk', ephemeral', ct', oneTime',
    hseal'⟩ := h'
  simp only [signedHeader, initialHeaderPrefix, append_assoc] at heq
  obtain ⟨hhead, heq⟩ := append_inj heq rfl
  obtain ⟨hsession, heq⟩ := append_inj heq (by simp)
  obtain ⟨hratchet, heq⟩ := append_inj heq (by simp)
  obtain ⟨-, heq⟩ := append_inj heq rfl
  obtain ⟨-, heq⟩ := append_inj heq rfl
  obtain ⟨hspk, heq⟩ := append_inj heq (by simp)
  obtain ⟨hopk, heq⟩ := append_inj heq (by simp)
  obtain ⟨hpqSpk, heq⟩ := append_inj heq (by simp)
  obtain ⟨hpqOpk, heq⟩ := append_inj heq (by simp)
  obtain ⟨hephemeral, heq⟩ := append_inj heq (by simp)
  obtain ⟨hct, honeTime⟩ := append_inj heq (by simp)
  rw [Block.bytes_inj] at hsession hratchet hephemeral hct
  rw [pushU32_inj] at hspk hopk hpqSpk hpqOpk
  simp_all [optionBytes_inj (by decide) honeTime]

theorem repairBytes_inj {r r' : Option (Block 16 × Key)} (h : repairBytes r = repairBytes r') :
    r = r' := by
  cases r with
  | none =>
    cases r' with
    | none => rfl
    | some r' => cases h
  | some r =>
    cases r' with
    | none => cases h
    | some r' =>
      obtain ⟨session, token⟩ := r
      obtain ⟨session', token'⟩ := r'
      obtain ⟨hsession, htoken⟩ := append_inj (List.cons.inj h).2 (by simp)
      rw [show session = session' from Block.bytes_inj.mp hsession,
        show token = token' from Block.bytes_inj.mp htoken]

theorem prefixBytes_inj {b b' : SenderBlock} (h : b.prefixBytes = b'.prefixBytes) :
    { b with initSignature := b'.initSignature } = b' := by
  obtain ⟨user, device, ik, registration, version, repair, signature⟩ := b
  obtain ⟨user', device', ik', registration', version', repair', signature'⟩ := b'
  simp only [SenderBlock.prefixBytes, List.cons_append, append_assoc, List.cons.injEq,
    true_and] at h
  obtain ⟨huser, h⟩ := append_inj h (by simp)
  obtain ⟨hdevice, h⟩ := append_inj h (by simp)
  obtain ⟨hik, h⟩ := append_inj h (by simp)
  obtain ⟨hregistration, h⟩ := append_inj h (by simp)
  obtain ⟨hversion, hrepair⟩ := append_inj h (by simp)
  rw [Block.bytes_inj] at huser hdevice hik
  rw [pushU32_inj] at hregistration hversion
  simp_all [repairBytes_inj hrepair]

open SignedControl in
theorem encodeControl_inj {B : Type} {F : Format B} (L : Lawful F) {c c' : Control B} {b : Bytes}
    (hc : validate F c = .ok ()) (hc' : validate F c' = .ok ())
    (h : encodeControl F c = .ok b) (h' : encodeControl F c' = .ok b) : c = c' := by
  obtain ⟨-, rfl⟩ := encodeControl_eq_ok.mp h
  obtain ⟨-, hsame⟩ := encodeControl_eq_ok.mp h'
  exact ((readControl_exact L).inj (L.readable (validateBody_of_validate hc))
    (L.readable (validateBody_of_validate hc')) (congrArg (· ++ []) hsame)).1

/-! ## Equal bytes -/

/-- Two signed byte strings are equal only if they are of one message: of the same type and with
the same fields, down to those of the byte strings among the fields. -/
theorem signed_bytes_injective :
    (∀ (m m' : SignedMessage) b, m.encode = .ok b → m'.encode = .ok b → m = m') ∧
    (∀ h h' : InitialHeader, signedHeader h = signedHeader h' →
      { h with senderSeal := h'.senderSeal } = h') ∧
    (∀ b b' : SenderBlock, b.prefixBytes = b'.prefixBytes →
      { b with initSignature := b'.initSignature } = b') ∧
    (∀ c c' b, SignedControl.validate GroupControl.format c = .ok () →
      SignedControl.validate GroupControl.format c' = .ok () →
      SignedControl.encodeControl GroupControl.format c = .ok b →
      SignedControl.encodeControl GroupControl.format c' = .ok b → c = c') ∧
    (∀ c c' b, SignedControl.validate RoomControl.format c = .ok () →
      SignedControl.validate RoomControl.format c' = .ok () →
      SignedControl.encodeControl RoomControl.format c = .ok b →
      SignedControl.encodeControl RoomControl.format c' = .ok b → c = c') := by
  refine ⟨fun m m' b h h' => ?_, fun _ _ => signedHeader_inj, fun _ _ => prefixBytes_inj,
    fun _ _ _ => encodeControl_inj GroupControl.lawful,
    fun _ _ _ => encodeControl_inj RoomControl.lawful⟩
  obtain ⟨hframed, rfl⟩ := SignedMessage.encode_eq_ok h
  obtain ⟨hframed', hsame⟩ := SignedMessage.encode_eq_ok h'
  have htype : m.type = m'.type := by
    obtain hle | hle := List.prefix_or_prefix_of_prefix (List.prefix_append _ _)
      (hsame ▸ List.prefix_append m'.type.domain (frames m'.fields))
    · exact eq_of_domain_isPrefix hle
    · exact (eq_of_domain_isPrefix hle).symm
  rw [htype] at hsame
  exact eq_of_fields htype (frames_inj hframed hframed' (List.append_cancel_left hsame))

/-- Nothing else that is signed has the bytes of this prekey. -/
theorem signed_bytes_injective_prekey :
    ∃ b, (SignedMessage.signedPrekey ⟨.fill 16 1, 7, [2]⟩).encode = .ok b ∧
      ∀ m : SignedMessage, m.encode = .ok b → m = .signedPrekey ⟨.fill 16 1, 7, [2]⟩ :=
  ⟨_, rfl, fun m h => signed_bytes_injective.1 m _ _ h rfl⟩

end CommPlatform.Signed
