import CommPlatform.L3Protocol.GroupControl

/-!
# Control events of rooms

The bodies of `room_control.rs`, their validation and their four codecs.
`lawful` says that the codecs fit together on every body that validates, as
they do for groups.

Bare line numbers are those of `room_control.rs`.
-/
namespace CommPlatform.RoomControl

open CommPlatform.Core L1 L1.Decoder L2
open SignedControl
open Application (Id framedText framedText_exact frame)

def signatureDomain : Bytes := ascii "chat:v1:room-control"
def stateHashDomain : Bytes := ascii "chat:v1:room-control-state"

def kindCreate : UInt8 := 1
def kindAddMembers : UInt8 := 2
def kindRemoveMember : UInt8 := 3
def kindRename : UInt8 := 4

def minCreateMembers : Nat := 2
def maxMembers : Nat := 50
def maxNameBytes : Nat := 400
def maxNameScalars : Nat := 100

structure Create where
  name : Text
  members : List Id

/-- mirrors :62-76 -/
inductive ControlBody
  | create (c : Create)
  | addMembers (userIds : List Id)
  | removeMember (userId : Id)
  | rename (name : Text)

/-- mirrors :79-86 -/
def ControlBody.kind : ControlBody → UInt8
  | .create _ => kindCreate
  | .addMembers _ => kindAddMembers
  | .removeMember _ => kindRemoveMember
  | .rename _ => kindRename

def ControlBody.isCreate : ControlBody → Bool
  | .create _ => true
  | _ => false

/-! ## Validation -/

/-- mirrors :235-238 -/
def ascending (userIds : List Id) : Bool :=
  userIds.all (fun userId => userId != .fill 16 0) && increasing userIds

/-- mirrors :240-248 -/
def validateName (name : Text) : CryptoResult Unit := do
  failIf (name.bytes.length > maxNameBytes ∨ name.chars.length > maxNameScalars) .inputTooLarge
  failIf (name.bytes.isEmpty = true) .malformedInput

/-- mirrors :199-230 -/
def validateBody (signerUserId : Id) : ControlBody → CryptoResult Unit
  | .create c => do
    validateName c.name
    failIf (c.members.length > maxMembers) .inputTooLarge
    failIf (c.members.length < minCreateMembers ∨ ascending c.members = false ∨
      signerUserId ∉ c.members) .malformedInput
  | .addMembers userIds => do
    failIf (userIds.length ≥ maxMembers) .inputTooLarge
    failIf (userIds.isEmpty = true ∨ ascending userIds = false) .malformedInput
  | .removeMember userId => failIf (userId = .fill 16 0) .malformedInput
  | .rename name => validateName name

/-! ## The CBOR of a body -/

def encodeUserIds (userIds : List Id) : Bytes :=
  Cbor.array userIds.length ++ userIds.flatMap fun userId => Cbor.bytes userId.bytes

/-- mirrors :287-316 -/
def bodyBytes : ControlBody → Bytes
  | .create c => List.flatten [
      Cbor.map 2,
      encodeKey 0, Cbor.str c.name,
      encodeKey 1, encodeUserIds c.members]
  | .addMembers userIds => List.flatten [Cbor.map 1, encodeKey 0, encodeUserIds userIds]
  | .removeMember userId => List.flatten [Cbor.map 1, encodeKey 0, Cbor.bytes userId.bytes]
  | .rename name => List.flatten [Cbor.map 1, encodeKey 0, Cbor.str name]

/-- mirrors :376-389 -/
def decodeUserIds (maximum : Nat) : Decoder (List Id) :=
  listOf readArrayLen (· > maximum) (readExactBytes 16)

def readCreate : Decoder Create := do
  readExactMap 2
  readKey 0
  let name ← readText maxNameBytes maxNameScalars true
  readKey 1
  let members ← decodeUserIds maxMembers
  return { name, members }

def readAddMembers : Decoder (List Id) := do
  readExactMap 1
  readKey 0
  decodeUserIds (maxMembers - 1)

def readRemoveMember : Decoder Id := do
  readExactMap 1
  readKey 0
  readExactBytes 16

def readRename : Decoder Text := do
  readExactMap 1
  readKey 0
  readText maxNameBytes maxNameScalars true

structure BodyReaders where
  create : Reader Create
  addMembers : Reader (List Id)
  removeMember : Reader Id
  rename : Reader Text

def BodyReaders.ofKind (r : BodyReaders) (kind : UInt8) : Reader ControlBody :=
  if kind = kindCreate then do return .create (← r.create)
  else if kind = kindAddMembers then do return .addMembers (← r.addMembers)
  else if kind = kindRemoveMember then do return .removeMember (← r.removeMember)
  else if kind = kindRename then do return .rename (← r.rename)
  else throw .unsupportedOperation

/-- mirrors :391-426 -/
def decodeBody : UInt8 → Decoder ControlBody :=
  BodyReaders.ofKind {
    create := readCreate
    addMembers := readAddMembers
    removeMember := readRemoveMember
    rename := readRename }

/-! ## Its projection -/

/-- mirrors :496-506 -/
def projectionText : Reader Text := framedText maxNameBytes maxNameScalars false

/-- mirrors :432-445 -/
def projectionUserIds (maximum : Nat) : Reader (List Id) :=
  listOf u16Count (· > maximum) (Reader.array 16)

def projectedCreate : Reader Create := do
  let name ← projectionText
  let members ← projectionUserIds maxMembers
  return { name, members }

/-- mirrors :463-478 -/
def projectedBody : UInt8 → Reader ControlBody :=
  BodyReaders.ofKind {
    create := projectedCreate
    addMembers := projectionUserIds (maxMembers - 1)
    removeMember := Reader.array 16
    rename := projectionText }

/-- mirrors :512-518 -/
def pushUserIds (userIds : List Id) : CryptoResult Bytes := do
  let count ← projectionCount userIds.length
  return pushU16 count ++ userIds.flatMap Block.bytes

/-- mirrors :536-544 -/
def pushBody : ControlBody → CryptoResult Bytes
  | .create c => do
    let name ← pushFrame c.name.bytes
    let members ← pushUserIds c.members
    return name ++ members
  | .addMembers userIds => pushUserIds userIds
  | .removeMember userId => .ok userId.bytes
  | .rename name => pushFrame name.bytes

def format : Format ControlBody where
  signatureDomain := signatureDomain
  stateHashDomain := stateHashDomain
  kind := ControlBody.kind
  isCreate := ControlBody.isCreate
  validateBody := validateBody
  bodyBytes := bodyBytes
  decodeBody := decodeBody
  projectedBody := projectedBody
  pushBody := pushBody

/-- mirrors :109-129 -/
def sealControl : CryptoProvider → DeviceState → Bytes → CryptoResult SealedControl :=
  SignedControl.sealControl format

/-- mirrors :138-162 -/
def openControl : CryptoProvider → Key → Bytes → Block 64 → CryptoResult OpenedControl :=
  SignedControl.openControl format

/-! ## The codecs fit together -/

/-- What the readers check of a body; the reader of a projection leaves it to `validate` that the
name is not empty. -/
def Readable (nonEmpty : Bool) : ControlBody → Prop
  | .create c => Fits maxNameBytes maxNameScalars nonEmpty c.name ∧ c.members.length ≤ maxMembers
  | .addMembers userIds => userIds.length ≤ maxMembers - 1
  | .removeMember _ => True
  | .rename name => Fits maxNameBytes maxNameScalars nonEmpty name

structure BodyReaders.Exact (r : BodyReaders) (nonEmpty : Bool) (write : ControlBody → Bytes) :
    Prop where
  create : Core.Exact r.create (fun c => Readable nonEmpty (.create c)) fun c => write (.create c)
  addMembers : Core.Exact r.addMembers (fun ids => Readable nonEmpty (.addMembers ids)) fun ids =>
    write (.addMembers ids)
  removeMember : Core.Exact r.removeMember (fun _ => True) fun id => write (.removeMember id)
  rename : Core.Exact r.rename (Fits maxNameBytes maxNameScalars nonEmpty) fun name =>
    write (.rename name)

theorem kind_eq (b : ControlBody) : (b.kind = kindCreate ↔ ∃ c, b = .create c) ∧
      (b.kind = kindAddMembers ↔ ∃ ids, b = .addMembers ids) ∧
      (b.kind = kindRemoveMember ↔ ∃ id, b = .removeMember id) ∧
      (b.kind = kindRename ↔ ∃ name, b = .rename name) := by
  cases b <;> simp [ControlBody.kind, kindCreate, kindAddMembers, kindRemoveMember, kindRename]

theorem ofKind_exact {r : BodyReaders} {nonEmpty : Bool} {write : ControlBody → Bytes}
    (h : r.Exact nonEmpty write) (kind : UInt8) :
    Exact (r.ofKind kind) (fun b => b.kind = kind ∧ Readable nonEmpty b) write := by
  unfold BodyReaders.ofKind
  split
  · next hk =>
    exact .shape h.create (hk ▸ fun b => (kind_eq b).1)
  split
  · next hk =>
    exact .shape h.addMembers (hk ▸ fun b => (kind_eq b).2.1)
  split
  · next hk =>
    exact .shape h.removeMember (hk ▸ fun b => (kind_eq b).2.2.1)
  split
  · next hk =>
    exact .shape h.rename (hk ▸ fun b => (kind_eq b).2.2.2)
  · refine .failed fun b => ?_
    rintro ⟨rfl, -⟩
    cases b <;> contradiction

variable {maximum : Nat}

theorem decodeUserIds_exact (hmax : maximum < 2 ^ 64) :
    Exact (decodeUserIds maximum) (fun ids => ids.length ≤ maximum) encodeUserIds := by
  refine Exact.congr (listOf_exact readArrayLen_exact (readExactBytes_exact (by decide)) _)
    (fun ids => ?_) fun _ _ => rfl
  simp only [gt_iff_lt, decide_eq_false_iff_not, not_lt, implies_true, and_true]
  exact and_iff_right_of_imp fun h => h.trans_lt hmax

theorem readCreate_exact :
    Exact readCreate (fun c => Readable true (.create c)) fun c => bodyBytes (.create c) := by
  rintro input ⟨name, members⟩ rest
  simp [readCreate, Exact.bind_run, @decodeUserIds_exact maxMembers (by decide) _ _ _,
    Readable, bodyBytes, maxNameBytes, -StateT.run_bind, -bind_pure_comp]
  tauto

theorem readAddMembers_exact :
    Exact readAddMembers (fun ids => Readable true (.addMembers ids)) fun ids =>
      bodyBytes (.addMembers ids) := by
  intro input ids rest
  simp [readAddMembers, Exact.bind_run, Readable, bodyBytes,
    @decodeUserIds_exact (maxMembers - 1) (by decide) _ _ _, -StateT.run_bind]
  tauto

theorem readRemoveMember_exact :
    Exact readRemoveMember (fun _ => True) fun id => bodyBytes (.removeMember id) := by
  intro input id rest
  simp [readRemoveMember, Exact.bind_run, bodyBytes, -StateT.run_bind]

theorem readRename_exact : Exact readRename (Fits maxNameBytes maxNameScalars true) fun name =>
      bodyBytes (.rename name) := by
  intro input name rest
  simp [readRename, Exact.bind_run, bodyBytes, maxNameBytes, -StateT.run_bind]
  tauto

variable (kind : UInt8)

theorem decodeBody_exact :
    Exact (decodeBody kind) (fun b => b.kind = kind ∧ Readable true b) bodyBytes :=
  ofKind_exact {
    create := readCreate_exact
    addMembers := readAddMembers_exact
    removeMember := readRemoveMember_exact
    rename := readRename_exact } kind

def userIdsFrame (userIds : List Id) : Bytes := be 2 userIds.length ++ userIds.flatMap Block.bytes

def bodyFrame : ControlBody → Bytes
  | .create c => frame c.name.bytes ++ userIdsFrame c.members
  | .addMembers userIds => userIdsFrame userIds
  | .removeMember userId => userId.bytes
  | .rename name => frame name.bytes

theorem projectionUserIds_exact (hmax : maximum < 2 ^ 16) :
    Exact (projectionUserIds maximum) (fun ids => ids.length ≤ maximum) userIdsFrame := by
  refine Exact.congr (listOf_exact u16Count_exact (Reader.array_exact 16) _) (fun ids => ?_)
    fun _ _ => rfl
  simp only [gt_iff_lt, decide_eq_false_iff_not, not_lt, implies_true, and_true]
  exact and_iff_right_of_imp fun h => h.trans_lt hmax

theorem projectedCreate_exact :
    Exact projectedCreate (fun c => Readable false (.create c)) fun c => bodyFrame (.create c) := by
  rintro input ⟨name, members⟩ rest
  simp [projectedCreate, projectionText, Exact.bind_run, Readable, bodyFrame, maxNameBytes,
    @projectionUserIds_exact maxMembers (by decide) _ _ _, -StateT.run_bind,
    -bind_pure_comp]
  tauto

theorem projectedBody_exact :
    Exact (projectedBody kind) (fun b => b.kind = kind ∧ Readable false b) bodyFrame :=
  ofKind_exact {
    create := projectedCreate_exact
    addMembers := projectionUserIds_exact (by decide)
    removeMember := Reader.array_exact 16
    rename := framedText_exact (by decide) _ _ } kind

/-! ## What validation says -/

theorem fits_of_validateName {name : Text} (h : validateName name = .ok ()) :
    Fits maxNameBytes maxNameScalars true name := by
  obtain ⟨hsize, hempty⟩ := unit_bind_eq_ok.mp h
  rw [failIf_eq_ok] at hsize hempty
  simp only [not_or, not_lt, gt_iff_lt] at hsize
  refine ⟨hsize.1, hsize.2, fun _ => ?_⟩
  simpa using hempty

variable {b : ControlBody}

theorem readable_of_validateBody {signer : Id}
    (h : validateBody signer b = .ok ()) : Readable true b := by
  cases b with
  | create c =>
    obtain ⟨hname, hrest⟩ := unit_bind_eq_ok.mp h
    obtain ⟨hcount, -⟩ := unit_bind_eq_ok.mp hrest
    exact ⟨fits_of_validateName hname, not_lt.mp (failIf_eq_ok.mp hcount)⟩
  | addMembers userIds =>
    obtain ⟨hcount, -⟩ := unit_bind_eq_ok.mp h
    exact Nat.le_sub_one_of_lt (not_le.mp (failIf_eq_ok.mp hcount))
  | removeMember userId => trivial
  | rename name => exact fits_of_validateName h

theorem Readable.weaken (h : Readable true b) : Readable false b := by
  cases b with
  | create c => exact ⟨⟨h.1.length_le, h.1.chars_le, nofun⟩, h.2⟩
  | rename name => exact ⟨h.length_le, h.chars_le, nofun⟩
  | _ => exact h

theorem pushUserIds_of_lt {userIds : List Id} (h : userIds.length < 2 ^ 16) :
    pushUserIds userIds = .ok (userIdsFrame userIds) := by
  obtain ⟨count, hcount, hbytes⟩ := projectionCount_of_lt h
  simp only [pushUserIds, hcount, ok_bind, hbytes]
  rfl

theorem pushBody_of_readable (h : Readable false b) : pushBody b = .ok (bodyFrame b) := by
  cases b with
  | create c =>
    simp only [pushBody, pushFrame_of_fits (by decide) h.1,
      pushUserIds_of_lt (h.2.trans_lt (by decide)), ok_bind]
    rfl
  | addMembers userIds => exact pushUserIds_of_lt (Nat.lt_of_le_of_lt h (by decide))
  | removeMember userId => rfl
  | rename name => exact pushFrame_of_fits (by decide) h

def lawful : Lawful format where
  Readable := Readable true
  Projectable := Readable false
  bodyFrame := bodyFrame
  decodeBody_exact := decodeBody_exact
  projectedBody_exact := projectedBody_exact
  readable := readable_of_validateBody
  projectable h := (readable_of_validateBody h).weaken
  pushBody h := pushBody_of_readable (readable_of_validateBody h).weaken

/-! ## Groups and rooms -/

/-- Everybody who opens what a device sealed computes the projection it was sealed from and the
state hash the device computed; and no projection is opened from two byte strings. -/
theorem control_events_agree {P : CryptoProvider} {device : DeviceState} {signingPublic : Key}
    (hpair : SigningPair P device.deviceSigningSecret signingPublic) :
    (∀ projection sealed, GroupControl.sealControl P device projection = .ok sealed →
      GroupControl.openControl P signingPublic sealed.canonical sealed.signature =
        .ok ⟨projection, sealed.stateHash⟩) ∧
    (∀ projection sealed, RoomControl.sealControl P device projection = .ok sealed →
      RoomControl.openControl P signingPublic sealed.canonical sealed.signature =
        .ok ⟨projection, sealed.stateHash⟩) ∧
    (∀ public₁ public₂ canonical₁ canonical₂ signature₁ signature₂ opened₁ opened₂,
      GroupControl.openControl P public₁ canonical₁ signature₁ = .ok opened₁ →
      GroupControl.openControl P public₂ canonical₂ signature₂ = .ok opened₂ →
      opened₁.projection = opened₂.projection → canonical₁ = canonical₂) ∧
    (∀ public₁ public₂ canonical₁ canonical₂ signature₁ signature₂ opened₁ opened₂,
      RoomControl.openControl P public₁ canonical₁ signature₁ = .ok opened₁ →
      RoomControl.openControl P public₂ canonical₂ signature₂ = .ok opened₂ →
      opened₁.projection = opened₂.projection → canonical₁ = canonical₂) := by
  refine ⟨fun _ _ hseal => ?_, fun _ _ hseal => ?_, fun _ _ _ _ _ _ _ _ h₁ h₂ hsame => ?_,
    fun _ _ _ _ _ _ _ _ h₁ h₂ hsame => ?_⟩
  · exact openControl_sealed GroupControl.lawful hpair hseal
  · exact openControl_sealed RoomControl.lawful hpair hseal
  · exact openControl_inj GroupControl.lawful h₁ h₂ hsame
  · exact openControl_inj RoomControl.lawful h₁ h₂ hsame

def secondControl {B : Type} (seed : UInt8) (body : B) : Control B where
  eventId := .fill 16 5
  scopeId := .fill 32 6
  revision := 2
  previousStateHash := some (.fill 32 7)
  signerUserId := .fill 16 seed
  signerDeviceId := .fill 16 8
  createdMs := 1000
  body := body

def groupRename : Bytes :=
  projectionBytes GroupControl.lawful
    (secondControl 1 (.rename ⟨⟨[0x61], rfl⟩, ⟨[], rfl⟩⟩))

def roomRename : Bytes :=
  projectionBytes RoomControl.lawful (secondControl 1 (.rename ⟨[0x61], rfl⟩))

theorem control_events_agree_rename :
    (∃ sealed, GroupControl.sealControl sumProvider (sumDevice 1) groupRename = .ok sealed ∧
      GroupControl.openControl sumProvider (.fill 32 1) sealed.canonical sealed.signature =
        .ok ⟨groupRename, sealed.stateHash⟩) ∧
    (∃ sealed, RoomControl.sealControl sumProvider (sumDevice 1) roomRename = .ok sealed ∧
      RoomControl.openControl sumProvider (.fill 32 1) sealed.canonical sealed.signature =
        .ok ⟨roomRename, sealed.stateHash⟩) := by
  have hpair : SigningPair sumProvider (sumDevice 1).deviceSigningSecret (.fill 32 1) :=
    fun _ _ _ => rfl
  have hgroup : (GroupControl.sealControl sumProvider (sumDevice 1) groupRename).toBool = true := by
    decide +kernel
  have hroom : (RoomControl.sealControl sumProvider (sumDevice 1) roomRename).toBool = true := by
    decide +kernel
  obtain ⟨opensGroup, opensRoom, -⟩ := control_events_agree hpair
  constructor
  · cases hseal : GroupControl.sealControl sumProvider (sumDevice 1) groupRename with
    | error e => rw [hseal] at hgroup; cases hgroup
    | ok sealed => exact ⟨sealed, rfl, opensGroup _ _ hseal⟩
  · cases hseal : RoomControl.sealControl sumProvider (sumDevice 1) roomRename with
    | error e => rw [hseal] at hroom; cases hroom
    | ok sealed => exact ⟨sealed, rfl, opensRoom _ _ hseal⟩

end CommPlatform.RoomControl
