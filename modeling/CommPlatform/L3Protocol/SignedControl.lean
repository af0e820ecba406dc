import CommPlatform.L2Crypto.DeviceState
import CommPlatform.L3Protocol.ApplicationCodec

/-!
# Signed control events

`group_control.rs` and `room_control.rs` are one construction over two sets
of bodies: a projection that Dart hands in is parsed and validated, encoded
as CBOR, signed under the domain of its kind and hashed under another; the
other members verify, decode, validate and project it again. `Format` holds
what the two files do not share, the functions below are the ones they do.

`Lawful` is what a format has to meet: the readers of a body are the
inverse of its writers on the bodies that validate. From it:

* `decodeControl_eq_ok`, `decodeProjection_eq_ok`: what the two decoders
  accept is what a validated event is written as;
* `openControl_sealed`: what was sealed opens, as the projection it was
  sealed from and with the hash the signer computed;
* `openControl_inj`: two byte strings that open as one projection are equal.

Bare line numbers are those of `group_control.rs`.
-/
namespace CommPlatform.SignedControl

open CommPlatform.Core L1 L1.Decoder L2
open Application (Id framedText framedText_exact optional optional_exact frame flagged)
open L1.Reader hiding failIf

def controlVersion : UInt8 := 1
def maxControlBytes : Nat := 16384
def maxCreatedMs : UInt64 := 8640000000000000

/-- mirrors :51-60 and room_control.rs:48-57;
`scopeId` is `group_id` or `room_id`. -/
structure Control (B : Type) where
  eventId : Id
  scopeId : Block 32
  revision : UInt32
  previousStateHash : Option (Block 32)
  signerUserId : Id
  signerDeviceId : Id
  createdMs : UInt64
  body : B

/-- What groups and rooms do differently: their domains and the functions on bodies.
`validateBody` is the match at the end of `validate`, with the signer it may ask for; `bodyBytes` and
`pushBody` are the ones at the end of `encode_control` and `encode_projection`, `projectedBody` the
one in `decode_projection`. -/
structure Format (B : Type) where
  signatureDomain : Bytes
  stateHashDomain : Bytes
  kind : B → UInt8
  isCreate : B → Bool
  validateBody : Id → B → CryptoResult Unit
  bodyBytes : B → Bytes
  decodeBody : UInt8 → Decoder B
  projectedBody : UInt8 → Reader B
  pushBody : B → CryptoResult Bytes

variable {B : Type} (F : Format B)

/-- mirrors :202-260 and room_control.rs:186-232 -/
def validate (control : Control B) : CryptoResult Unit := do
  let first := control.revision == 1
  failIf (control.revision = 0 ∨ first ≠ F.isCreate control.body ∨
    first ≠ control.previousStateHash.isNone ∨ control.createdMs > maxCreatedMs ∨
    control.eventId = .fill 16 0 ∨ control.scopeId = .fill 32 0 ∨
    control.signerUserId = .fill 16 0 ∨ control.signerDeviceId = .fill 16 0) .malformedInput
  F.validateBody control.signerUserId control.body

/-! ## The CBOR of an event -/

def controlBytes (control : Control B) : Bytes := List.flatten [
  Cbor.map 10,
  encodeKey 0, Cbor.uint controlVersion.toNat,
  encodeKey 1, Cbor.bytes control.eventId.bytes,
  encodeKey 2, Cbor.bytes control.scopeId.bytes,
  encodeKey 3, Cbor.uint control.revision.toNat,
  encodeKey 4, nullable (fun hash => Cbor.bytes hash.bytes) control.previousStateHash,
  encodeKey 5, Cbor.bytes control.signerUserId.bytes,
  encodeKey 6, Cbor.bytes control.signerDeviceId.bytes,
  encodeKey 7, Cbor.uint control.createdMs.toNat,
  encodeKey 8, Cbor.uint (F.kind control.body).toNat,
  encodeKey 9, F.bodyBytes control.body]

/-- mirrors :284-370 and room_control.rs:258-321 -/
def encodeControl (control : Control B) : CryptoResult Bytes := do
  let output := controlBytes F control
  failIf (output.length > maxControlBytes) .inputTooLarge
  return output

def readControl : Decoder (Control B) := do
  readExactMap 10
  readKey 0
  let version ← readUint
  Reader.failIf (version != controlVersion.toUInt64) .unsupportedVersion
  readKey 1
  let eventId ← readExactBytes 16
  readKey 2
  let scopeId ← readExactBytes 32
  readKey 3
  let revision ← readU32
  readKey 4
  let previousStateHash ← readNullable (readExactBytes 32)
  readKey 5
  let signerUserId ← readExactBytes 16
  readKey 6
  let signerDeviceId ← readExactBytes 16
  readKey 7
  let createdMs ← readUint
  readKey 8
  let kind ← readU8
  readKey 9
  let body ← F.decodeBody kind
  return { eventId, scopeId, revision, previousStateHash, signerUserId, signerDeviceId, createdMs,
           body }

/-- mirrors :372-423 and room_control.rs:323-374 -/
def decodeControl (input : Bytes) : CryptoResult (Control B) := do
  let control ← parse (do
    let control ← readControl F
    let finished ← isFinished
    Reader.failIf (!finished) .malformedInput
    return control) input
  validate F control
  let encoded ← encodeControl F control
  failIf (encoded ≠ input) .malformedInput
  return control

/-! ## Its projection -/

def projectedControl : Reader (Control B) := do
  let version ← u8
  Reader.failIf (version != controlVersion) .unsupportedVersion
  let eventId ← array 16
  let scopeId ← array 32
  let revision ← u32
  let previousStateHash ← optional (array 32)
  let signerUserId ← array 16
  let signerDeviceId ← array 16
  let createdMs ← u64
  let kind ← u8
  let body ← F.projectedBody kind
  return { eventId, scopeId, revision, previousStateHash, signerUserId, signerDeviceId, createdMs,
           body }

/-- mirrors :521-611 and room_control.rs:447-494 -/
def decodeProjection (input : Bytes) : CryptoResult (Control B) := do
  let control ← parse (do
    let control ← projectedControl F
    let finished ← isFinished
    Reader.failIf (!finished) .malformedInput
    return control) input
  validate F control
  return control

def headFrame (control : Control B) : Bytes := List.flatten [
  [controlVersion], control.eventId.bytes, control.scopeId.bytes, pushU32 control.revision,
  flagged Block.bytes control.previousStateHash, control.signerUserId.bytes,
  control.signerDeviceId.bytes, pushU64 control.createdMs, [F.kind control.body]]

/-- mirrors :633-684 and room_control.rs:520-546 -/
def encodeProjection (control : Control B) : CryptoResult Bytes := do
  let body ← F.pushBody control.body
  return headFrame F control ++ body

/-! ## Sealing and opening -/

/-- mirrors :180-188 and room_control.rs:164-172 -/
def withDomain (domain canonical : Bytes) : CryptoResult Bytes := do
  let framed ← pushFrame canonical
  return domain ++ framed

/-- mirrors :195-200 and room_control.rs:179-184 -/
def stateHash (P : CryptoProvider) (canonical : Bytes) : CryptoResult (Block 32) := do
  let message ← withDomain F.stateHashDomain canonical
  P.sha256 message

/-- mirrors :106-110 and room_control.rs:90-94 -/
structure SealedControl where
  canonical : Bytes
  signature : Block 64
  stateHash : Block 32

/-- mirrors :113-116 and room_control.rs:97-100 -/
structure OpenedControl where
  projection : Bytes
  stateHash : Block 32

/-- mirrors :125-145 and room_control.rs:109-129 -/
def sealControl (P : CryptoProvider) (device : DeviceState) (projection : Bytes) :
    CryptoResult SealedControl := do
  let control ← decodeProjection F projection
  failIf (control.signerUserId ≠ device.userId) .invalidArgument
  let canonical ← encodeControl F control
  let message ← withDomain F.signatureDomain canonical
  let signature ← P.ed25519Sign device.deviceSigningSecret message
  let stateHash ← stateHash F P canonical
  return { canonical, signature, stateHash }

/-- mirrors :154-178 and room_control.rs:138-162 -/
def openControl (P : CryptoProvider) (signingPublic : Key) (canonical : Bytes)
    (signature : Block 64) : CryptoResult OpenedControl := do
  failIf (canonical.isEmpty = true) .malformedInput
  failIf (canonical.length > maxControlBytes) .inputTooLarge
  let message ← withDomain F.signatureDomain canonical
  P.ed25519Verify signingPublic message signature
  let control ← decodeControl F canonical
  let projection ← encodeProjection F control
  let stateHash ← stateHash F P canonical
  return { projection, stateHash }

/-! ## What a format has to meet -/

/-- The two readers of a body are the inverse of its two writers, on bodies that include every one
that validates. -/
structure Lawful where
  Readable : B → Prop
  Projectable : B → Prop
  bodyFrame : B → Bytes
  decodeBody_exact : ∀ kind,
    Exact (F.decodeBody kind) (fun b => F.kind b = kind ∧ Readable b) F.bodyBytes
  projectedBody_exact : ∀ kind,
    Exact (F.projectedBody kind) (fun b => F.kind b = kind ∧ Projectable b) bodyFrame
  readable : ∀ {signer b}, F.validateBody signer b = .ok () → Readable b
  projectable : ∀ {signer b}, F.validateBody signer b = .ok () → Projectable b
  pushBody : ∀ {signer b}, F.validateBody signer b = .ok () → F.pushBody b = .ok (bodyFrame b)

variable {control : Control B} {F}

theorem validateBody_of_validate (h : validate F control = .ok ()) :
    F.validateBody control.signerUserId control.body = .ok () :=
  (unit_bind_eq_ok.mp h).2

/-! ## The two decoders -/

theorem encodeControl_eq_ok {b : Bytes} :
    encodeControl F control = .ok b ↔ b.length ≤ maxControlBytes ∧ b = controlBytes F control := by
  rw [encodeControl, unit_bind_eq_ok, failIf_eq_ok, pure_eq_ok, not_lt, Except.ok.injEq]
  constructor
  · rintro ⟨hle, rfl⟩
    exact ⟨hle, rfl⟩
  · rintro ⟨hle, rfl⟩
    exact ⟨hle, rfl⟩

theorem controlBytes_ne_nil (control : Control B) : controlBytes F control ≠ [] := by
  exact List.append_ne_nil_of_left_ne_nil (by decide) _

section Lawful

variable (L : Lawful F)

include L

theorem readControl_exact :
    Exact (readControl F) (fun control => L.Readable control.body) (controlBytes F) := by
  rintro input ⟨_, _, _, _, _, _, _, body⟩ rest
  have hhash := readNullable_exact (readExactBytes_exact (n := 32) (by decide)) (by decide)
    (fun b => b.bytes.length) fun _ => ⟨_, rfl⟩
  simp [readControl, Exact.bind_run, hhash _ _ _, L.decodeBody_exact _ _ _ _, controlBytes,
    -StateT.run_bind, -bind_pure_comp]
  tauto

def projectionBytes (control : Control B) : Bytes :=
  headFrame F control ++ L.bodyFrame control.body

theorem projectedControl_exact :
    Exact (projectedControl F) (fun control => L.Projectable control.body) (projectionBytes L) := by
  rintro input ⟨_, _, _, _, _, _, _, body⟩ rest
  simp [projectedControl, Exact.bind_run, optional_exact (array_exact 32) _ _ _,
    L.projectedBody_exact _ _ _ _, projectionBytes, headFrame, -StateT.run_bind, -bind_pure_comp]
  tauto

variable {input : Bytes}

theorem decodeControl_eq_ok : decodeControl F input = .ok control ↔
      validate F control = .ok () ∧ input = controlBytes F control ∧
        input.length ≤ maxControlBytes := by
  rw [decodeControl, bind_eq_ok]
  constructor
  · rintro ⟨read, hread, hrest⟩
    obtain ⟨-, rfl⟩ := (parse_finished_eq_ok (readControl_exact L)).mp hread
    obtain ⟨hvalid, hencode⟩ := unit_bind_eq_ok.mp hrest
    obtain ⟨encoded, hencoded, hsame⟩ := bind_eq_ok.mp hencode
    obtain ⟨hle, rfl⟩ := encodeControl_eq_ok.mp hencoded
    obtain ⟨-, hret⟩ := unit_bind_eq_ok.mp hsame
    cases hret
    exact ⟨hvalid, rfl, hle⟩
  · rintro ⟨hvalid, rfl, hle⟩
    refine ⟨control, (parse_finished_eq_ok (readControl_exact L)).mpr
      ⟨L.readable (validateBody_of_validate hvalid), rfl⟩, unit_bind_eq_ok.mpr ⟨hvalid,
        bind_eq_ok.mpr ⟨_, encodeControl_eq_ok.mpr ⟨hle, rfl⟩, unit_bind_eq_ok.mpr ⟨?_, rfl⟩⟩⟩⟩
    exact failIf_eq_ok.mpr (not_not.mpr rfl)

theorem decodeProjection_eq_ok : decodeProjection F input = .ok control ↔
      validate F control = .ok () ∧ input = projectionBytes L control := by
  rw [decodeProjection, bind_eq_ok]
  constructor
  · rintro ⟨read, hread, hrest⟩
    obtain ⟨-, rfl⟩ := (parse_finished_eq_ok (projectedControl_exact L)).mp hread
    obtain ⟨hvalid, hret⟩ := unit_bind_eq_ok.mp hrest
    cases hret
    exact ⟨hvalid, rfl⟩
  · rintro ⟨hvalid, rfl⟩
    exact ⟨control, (parse_finished_eq_ok (projectedControl_exact L)).mpr
      ⟨L.projectable (validateBody_of_validate hvalid), rfl⟩, unit_bind_eq_ok.mpr ⟨hvalid, rfl⟩⟩

theorem encodeProjection_of_validate (h : validate F control = .ok ()) :
    encodeProjection F control = .ok (projectionBytes L control) := by
  rw [encodeProjection, L.pushBody (validateBody_of_validate h)]
  rfl

variable {P : CryptoProvider}

/-! ## Opening what was sealed -/

variable {signingPublic : Key}

theorem openControl_eq_ok {canonical : Bytes} {signature : Block 64} {opened : OpenedControl} :
    openControl F P signingPublic canonical signature = .ok opened ↔
      ∃ control message, validate F control = .ok () ∧ canonical = controlBytes F control ∧
        canonical.length ≤ maxControlBytes ∧ withDomain F.signatureDomain canonical = .ok message ∧
        P.ed25519Verify signingPublic message signature = .ok () ∧
        opened.projection = projectionBytes L control ∧
        stateHash F P canonical = .ok opened.stateHash := by
  rw [openControl, unit_bind_eq_ok, unit_bind_eq_ok, bind_eq_ok]
  constructor
  · rintro ⟨-, -, message, hmessage, hrest⟩
    obtain ⟨hverify, hrest₁⟩ := unit_bind_eq_ok.mp hrest
    obtain ⟨control, hcontrol, hrest₂⟩ := bind_eq_ok.mp hrest₁
    obtain ⟨hvalid, hcanonical, hle⟩ := (decodeControl_eq_ok L).mp hcontrol
    rw [encodeProjection_of_validate L hvalid, ok_bind] at hrest₂
    obtain ⟨hash, hhash, hret⟩ := bind_eq_ok.mp hrest₂
    cases hret
    exact ⟨control, message, hvalid, hcanonical, hle, hmessage, hverify, rfl, hhash⟩
  · rintro ⟨control, message, hvalid, hcanonical, hle, hmessage, hverify, hprojection, hhash⟩
    refine ⟨failIf_eq_ok.mpr ?_, failIf_eq_ok.mpr (not_lt.mpr hle), message, hmessage,
      unit_bind_eq_ok.mpr ⟨hverify, bind_eq_ok.mpr ⟨control,
        (decodeControl_eq_ok L).mpr ⟨hvalid, hcanonical, hle⟩, ?_⟩⟩⟩
    · rw [hcanonical, List.isEmpty_iff]
      exact controlBytes_ne_nil control
    · rw [encodeProjection_of_validate L hvalid, hhash, ok_bind, ← hprojection]
      rfl

theorem openControl_sealed {device : DeviceState} {projection : Bytes} {sealed : SealedControl}
    (hpair : SigningPair P device.deviceSigningSecret signingPublic)
    (h : sealControl F P device projection = .ok sealed) :
    openControl F P signingPublic sealed.canonical sealed.signature =
      .ok ⟨projection, sealed.stateHash⟩ := by
  obtain ⟨control, hcontrol, hrest⟩ := bind_eq_ok.mp h
  obtain ⟨hvalid, rfl⟩ := (decodeProjection_eq_ok L).mp hcontrol
  obtain ⟨-, hrest₁⟩ := unit_bind_eq_ok.mp hrest
  obtain ⟨canonical, hcanonical, hrest₂⟩ := bind_eq_ok.mp hrest₁
  obtain ⟨hle, rfl⟩ := encodeControl_eq_ok.mp hcanonical
  obtain ⟨message, hmessage, hrest₃⟩ := bind_eq_ok.mp hrest₂
  obtain ⟨signature, hsignature, hrest₄⟩ := bind_eq_ok.mp hrest₃
  obtain ⟨hash, hhash, hret⟩ := bind_eq_ok.mp hrest₄
  cases hret
  exact (openControl_eq_ok L).mpr ⟨control, message, hvalid, rfl, hle, hmessage,
    hpair _ _ hsignature, rfl, hhash⟩

theorem openControl_inj {public₁ public₂ : Key} {canonical₁ canonical₂ : Bytes}
    {signature₁ signature₂ : Block 64} {opened₁ opened₂ : OpenedControl}
    (h₁ : openControl F P public₁ canonical₁ signature₁ = .ok opened₁)
    (h₂ : openControl F P public₂ canonical₂ signature₂ = .ok opened₂)
    (hsame : opened₁.projection = opened₂.projection) : canonical₁ = canonical₂ := by
  obtain ⟨control₁, _, hvalid₁, rfl, -, -, -, hprojection₁, -⟩ := (openControl_eq_ok L).mp h₁
  obtain ⟨control₂, _, hvalid₂, rfl, -, -, -, hprojection₂, -⟩ := (openControl_eq_ok L).mp h₂
  have hbytes : projectionBytes L control₁ ++ [] = projectionBytes L control₂ ++ [] := by
    rw [← hprojection₁, ← hprojection₂, hsame]
  rw [((projectedControl_exact L).inj (L.projectable (validateBody_of_validate hvalid₁))
    (L.projectable (validateBody_of_validate hvalid₂)) hbytes).1]

end Lawful

/-! ## Pieces of the bodies -/

/-- `windows(2).all(|pair| pair[0] < pair[1])` -/
def increasing : List Id → Bool
  | a :: b :: rest => decide (a.bytes < b.bytes) && increasing (b :: rest)
  | _ => true

/-- A count, its check, and so many items. -/
def listOf {α : Type} (count : Reader Nat) (refused : Nat → Bool) (x : Reader α) :
    Reader (List α) := do
  let count ← count
  Reader.failIf (refused count) .inputTooLarge
  Reader.many x count

/-- `usize::from(reader.u16()?)` -/
def u16Count : Reader Nat := do
  let count ← u16
  return count.toNat

/-- mirrors :629-631 and room_control.rs:508-510 -/
def projectionCount (value : Nat) : CryptoResult UInt16 := tryU16 value .inputTooLarge

theorem listOf_exact {α : Type} {count : Reader Nat} {x : Reader α} {PC : Nat → Prop}
    {wc : Nat → Bytes} {P : α → Prop} {w : α → Bytes} (hcount : Exact count PC wc)
    (hx : Exact x P w) (refused : Nat → Bool) :
    Exact (listOf count refused x)
      (fun l => PC l.length ∧ refused l.length = false ∧ ∀ a ∈ l, P a)
      fun l => wc l.length ++ l.flatMap w := by
  intro input l rest
  simp [listOf, Exact.bind_run, hcount _ _ _, many_exact hx _ _ _ _, -StateT.run_bind]
  tauto

theorem u16Count_exact : Exact u16Count (fun n => n < 2 ^ 16) (be 2) := by
  refine Exact.congr (u16_exact.wrap fun _ => rfl)
    (fun n => ?_) fun _ _ => rfl
  constructor
  · rintro ⟨v, rfl, -⟩
    exact v.toNat_lt
  · intro hn
    exact ⟨UInt16.ofNat n, (UInt16.toNat_ofNat_of_lt' hn).symm, trivial⟩

theorem projectionCount_of_lt {n : Nat} (h : n < 2 ^ 16) :
    ∃ count, projectionCount n = .ok count ∧ pushU16 count = be 2 n := by
  refine ⟨UInt16.ofNat n, tryU16_of_lt h _, ?_⟩
  rw [pushU16, UInt16.toNat_ofNat_of_lt' h]

theorem pushFrame_of_fits {maximumBytes maximumScalars : Nat} {nonEmpty : Bool} {t : Text}
    (hmax : maximumBytes < 2 ^ 32) (h : Fits maximumBytes maximumScalars nonEmpty t) :
    pushFrame t.bytes = .ok (frame t.bytes) :=
  pushFrame_of_lt (h.length_le.trans_lt hmax)

end CommPlatform.SignedControl
