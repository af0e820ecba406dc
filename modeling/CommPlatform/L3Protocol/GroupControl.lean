import CommPlatform.L3Protocol.SignedControl

/-!
# Control events of groups

The bodies of `group_control.rs`, their validation and their four codecs.
`lawful` says that the codecs fit together on every body that validates.

Bare line numbers are those of `group_control.rs`.
-/
namespace CommPlatform.GroupControl

open CommPlatform.Core L1 L1.Decoder L2
open SignedControl
open Application (Id framedText framedText_exact frame)

def signatureDomain : Bytes := ascii "chat:v1:group-control"
def stateHashDomain : Bytes := ascii "chat:v1:group-control-state"

def kindCreate : UInt8 := 1
def kindAddMember : UInt8 := 2
def kindRemoveMember : UInt8 := 3
def kindChangeRole : UInt8 := 4
def kindRename : UInt8 := 5

def roleOwner : UInt8 := 0
def maxRole : UInt8 := 2
def maxInvitationPolicy : UInt8 := 2
def maxHistoryPolicy : UInt8 := 1
def maxMembers : Nat := 50
def maxNameBytes : Nat := 400
def maxNameScalars : Nat := 100
def maxDescriptionBytes : Nat := 4000
def maxDescriptionScalars : Nat := 1000

/-- mirrors :100-103 -/
structure Member where
  userId : Id
  role : UInt8

structure Create where
  name : Text
  description : Text
  invitationPolicy : UInt8
  historyPolicy : UInt8
  members : List Member

structure ChangeRole where
  userId : Id
  role : UInt8

structure Rename where
  name : Text
  description : Text

/-- mirrors :63-85 -/
inductive ControlBody
  | create (c : Create)
  | addMember (userIds : List Id)
  | removeMember (userId : Id)
  | changeRole (c : ChangeRole)
  | rename (r : Rename)

/-- mirrors :88-96 -/
def ControlBody.kind : ControlBody → UInt8
  | .create _ => kindCreate
  | .addMember _ => kindAddMember
  | .removeMember _ => kindRemoveMember
  | .changeRole _ => kindChangeRole
  | .rename _ => kindRename

def ControlBody.isCreate : ControlBody → Bool
  | .create _ => true
  | _ => false

/-! ## Validation -/

/-- mirrors :262-274 -/
def validateMetadata (name description : Text) : CryptoResult Unit := do
  failIf (name.bytes.length > maxNameBytes ∨ name.chars.length > maxNameScalars ∨
    description.bytes.length > maxDescriptionBytes ∨
    description.chars.length > maxDescriptionScalars) .inputTooLarge
  failIf (name.bytes.isEmpty = true) .malformedInput

/-- mirrors :215-258 -/
def validateBody : ControlBody → CryptoResult Unit
  | .create c => do
    validateMetadata c.name c.description
    failIf (c.members.length > maxMembers) .inputTooLarge
    let owners := c.members.countP (·.role == roleOwner)
    failIf (c.invitationPolicy > maxInvitationPolicy ∨ c.historyPolicy > maxHistoryPolicy ∨
      c.members.isEmpty = true ∨ owners ≠ 1 ∨ c.members.any (·.role > maxRole) = true ∨
      increasing (c.members.map Member.userId) = false) .malformedInput
  | .addMember userIds => do
    failIf (userIds.length ≥ maxMembers) .inputTooLarge
    failIf (userIds.isEmpty = true ∨ increasing userIds = false) .malformedInput
  | .removeMember _ => .ok ()
  | .changeRole c => failIf (c.role > maxRole) .malformedInput
  | .rename r => validateMetadata r.name r.description

/-! ## The CBOR of a body -/

/-- mirrors :313-365 -/
def bodyBytes : ControlBody → Bytes
  | .create c => List.flatten [
      Cbor.map 5,
      encodeKey 0, Cbor.str c.name,
      encodeKey 1, Cbor.str c.description,
      encodeKey 2, Cbor.uint c.invitationPolicy.toNat,
      encodeKey 3, Cbor.uint c.historyPolicy.toNat,
      encodeKey 4, Cbor.array c.members.length ++ c.members.flatMap fun member =>
        List.flatten [Cbor.array 2, Cbor.bytes member.userId.bytes, Cbor.uint member.role.toNat]]
  | .addMember userIds => List.flatten [
      Cbor.map 1,
      encodeKey 0, Cbor.array userIds.length ++ userIds.flatMap fun id => Cbor.bytes id.bytes]
  | .removeMember userId => List.flatten [Cbor.map 1, encodeKey 0, Cbor.bytes userId.bytes]
  | .changeRole c => List.flatten [
      Cbor.map 2,
      encodeKey 0, Cbor.bytes c.userId.bytes,
      encodeKey 1, Cbor.uint c.role.toNat]
  | .rename r => List.flatten [
      Cbor.map 2,
      encodeKey 0, Cbor.str r.name,
      encodeKey 1, Cbor.str r.description]

def readMember : Decoder Member := do
  let length ← readArrayLen
  Reader.failIf (length != 2) .malformedInput
  let userId ← readExactBytes 16
  let role ← readU8
  return { userId, role }

def readCreate : Decoder Create := do
  readExactMap 5
  readKey 0
  let name ← readText maxNameBytes maxNameScalars true
  readKey 1
  let description ← readText maxDescriptionBytes maxDescriptionScalars false
  readKey 2
  let invitationPolicy ← readU8
  readKey 3
  let historyPolicy ← readU8
  readKey 4
  let members ← listOf readArrayLen (· > maxMembers) readMember
  return { name, description, invitationPolicy, historyPolicy, members }

def readAddMember : Decoder (List Id) := do
  readExactMap 1
  readKey 0
  listOf readArrayLen (· ≥ maxMembers) (readExactBytes 16)

def readRemoveMember : Decoder Id := do
  readExactMap 1
  readKey 0
  readExactBytes 16

def readChangeRole : Decoder ChangeRole := do
  readExactMap 2
  readKey 0
  let userId ← readExactBytes 16
  readKey 1
  let role ← readU8
  return { userId, role }

def readRename : Decoder Rename := do
  readExactMap 2
  readKey 0
  let name ← readText maxNameBytes maxNameScalars true
  readKey 1
  let description ← readText maxDescriptionBytes maxDescriptionScalars false
  return { name, description }

structure BodyReaders where
  create : Reader Create
  addMember : Reader (List Id)
  removeMember : Reader Id
  changeRole : Reader ChangeRole
  rename : Reader Rename

def BodyReaders.ofKind (r : BodyReaders) (kind : UInt8) : Reader ControlBody :=
  if kind = kindCreate then do return .create (← r.create)
  else if kind = kindAddMember then do return .addMember (← r.addMember)
  else if kind = kindRemoveMember then do return .removeMember (← r.removeMember)
  else if kind = kindChangeRole then do return .changeRole (← r.changeRole)
  else if kind = kindRename then do return .rename (← r.rename)
  else throw .unsupportedOperation

/-- mirrors :425-515 -/
def decodeBody : UInt8 → Decoder ControlBody :=
  BodyReaders.ofKind {
    create := readCreate
    addMember := readAddMember
    removeMember := readRemoveMember
    changeRole := readChangeRole
    rename := readRename }

/-! ## Its projection -/

/-- mirrors :613-627: `framed_text` of
`application.rs` without the check that the text is not empty -/
def projectionText (maximumBytes maximumScalars : Nat) : Reader Text :=
  framedText maximumBytes maximumScalars false

def projectedMember : Reader Member := do
  let userId ← Reader.array 16
  let role ← Reader.u8
  return { userId, role }

def projectedCreate : Reader Create := do
  let name ← projectionText maxNameBytes maxNameScalars
  let description ← projectionText maxDescriptionBytes maxDescriptionScalars
  let invitationPolicy ← Reader.u8
  let historyPolicy ← Reader.u8
  let members ← listOf u16Count (· > maxMembers) projectedMember
  return { name, description, invitationPolicy, historyPolicy, members }

def projectedChangeRole : Reader ChangeRole := do
  let userId ← Reader.array 16
  let role ← Reader.u8
  return { userId, role }

def projectedRename : Reader Rename := do
  let name ← projectionText maxNameBytes maxNameScalars
  let description ← projectionText maxDescriptionBytes maxDescriptionScalars
  return { name, description }

/-- mirrors :537-595 -/
def projectedBody : UInt8 → Reader ControlBody :=
  BodyReaders.ofKind {
    create := projectedCreate
    addMember := listOf u16Count (· ≥ maxMembers) (Reader.array 16)
    removeMember := Reader.array 16
    changeRole := projectedChangeRole
    rename := projectedRename }

/-- mirrors :649-682 -/
def pushBody : ControlBody → CryptoResult Bytes
  | .create c => do
    let name ← pushFrame c.name.bytes
    let description ← pushFrame c.description.bytes
    let count ← projectionCount c.members.length
    return List.flatten [name, description, [c.invitationPolicy], [c.historyPolicy], pushU16 count,
      c.members.flatMap fun member => member.userId.bytes ++ [member.role]]
  | .addMember userIds => do
    let count ← projectionCount userIds.length
    return pushU16 count ++ userIds.flatMap Block.bytes
  | .removeMember userId => .ok userId.bytes
  | .changeRole c => .ok (c.userId.bytes ++ [c.role])
  | .rename r => do
    let name ← pushFrame r.name.bytes
    let description ← pushFrame r.description.bytes
    return name ++ description

def format : Format ControlBody where
  signatureDomain := signatureDomain
  stateHashDomain := stateHashDomain
  kind := ControlBody.kind
  isCreate := ControlBody.isCreate
  validateBody _ := validateBody
  bodyBytes := bodyBytes
  decodeBody := decodeBody
  projectedBody := projectedBody
  pushBody := pushBody

/-- mirrors :125-145 -/
def sealControl : CryptoProvider → DeviceState → Bytes → CryptoResult SealedControl :=
  SignedControl.sealControl format

/-- mirrors :154-178 -/
def openControl : CryptoProvider → Key → Bytes → Block 64 → CryptoResult OpenedControl :=
  SignedControl.openControl format

/-! ## The codecs fit together -/

/-- What the readers check of a name and a description; the reader of a projection leaves it to
`validate` that the name is not empty. -/
@[mk_iff]
structure Named (nonEmpty : Bool) (name description : Text) : Prop where
  name : Fits maxNameBytes maxNameScalars nonEmpty name
  description : Fits maxDescriptionBytes maxDescriptionScalars false description

@[mk_iff]
structure Create.Readable (nonEmpty : Bool) (c : Create) : Prop where
  named : Named nonEmpty c.name c.description
  length_le : c.members.length ≤ maxMembers

def Readable (nonEmpty : Bool) : ControlBody → Prop
  | .create c => c.Readable nonEmpty
  | .addMember userIds => userIds.length < maxMembers
  | .rename r => Named nonEmpty r.name r.description
  | _ => True

structure BodyReaders.Exact (r : BodyReaders) (nonEmpty : Bool) (write : ControlBody → Bytes) :
    Prop where
  create : Core.Exact r.create (Create.Readable nonEmpty) fun c => write (.create c)
  addMember : Core.Exact r.addMember (fun ids => ids.length < maxMembers) fun ids =>
    write (.addMember ids)
  removeMember : Core.Exact r.removeMember (fun _ => True) fun id => write (.removeMember id)
  changeRole : Core.Exact r.changeRole (fun _ => True) fun c => write (.changeRole c)
  rename : Core.Exact r.rename (fun m => Named nonEmpty m.name m.description) fun m =>
    write (.rename m)

theorem kind_eq (b : ControlBody) : (b.kind = kindCreate ↔ ∃ c, b = .create c) ∧
      (b.kind = kindAddMember ↔ ∃ ids, b = .addMember ids) ∧
      (b.kind = kindRemoveMember ↔ ∃ id, b = .removeMember id) ∧
      (b.kind = kindChangeRole ↔ ∃ c, b = .changeRole c) ∧
      (b.kind = kindRename ↔ ∃ r, b = .rename r) := by
  cases b <;>
    simp [ControlBody.kind, kindCreate, kindAddMember, kindRemoveMember, kindChangeRole, kindRename]

theorem ofKind_exact {r : BodyReaders} {nonEmpty : Bool} {write : ControlBody → Bytes}
    (h : r.Exact nonEmpty write) (kind : UInt8) :
    Exact (r.ofKind kind) (fun b => b.kind = kind ∧ Readable nonEmpty b) write := by
  unfold BodyReaders.ofKind
  split
  · next hk =>
    exact .shape h.create (hk ▸ fun b => (kind_eq b).1)
  split
  · next hk =>
    exact .shape h.addMember (hk ▸ fun b => (kind_eq b).2.1)
  split
  · next hk =>
    exact .shape h.removeMember (hk ▸ fun b => (kind_eq b).2.2.1)
  split
  · next hk =>
    exact .shape h.changeRole (hk ▸ fun b => (kind_eq b).2.2.2.1)
  split
  · next hk =>
    exact .shape h.rename (hk ▸ fun b => (kind_eq b).2.2.2.2)
  · refine .failed fun b => ?_
    rintro ⟨rfl, -⟩
    cases b <;> contradiction

theorem readMember_exact : Exact readMember (fun _ => True) fun member =>
    List.flatten [Cbor.array 2, Cbor.bytes member.userId.bytes, Cbor.uint member.role.toNat] := by
  rintro input ⟨userId, role⟩ rest
  simp [readMember, Exact.bind_run, -StateT.run_bind, -bind_pure_comp]

theorem readCreate_exact :
    Exact readCreate (Create.Readable true) fun c => bodyBytes (.create c) := by
  rintro input ⟨name, description, _, _, members⟩ rest
  have hlength : members.length ≤ 50 → members.length < 2 ^ 64 := by omega
  simp [readCreate, Exact.bind_run, listOf_exact readArrayLen_exact readMember_exact _ _ _ _,
    Create.readable_iff, named_iff, bodyBytes, maxNameBytes, maxDescriptionBytes, maxMembers,
    -StateT.run_bind, -bind_pure_comp] at hlength ⊢
  tauto

theorem readRename_exact :
    Exact readRename (fun m => Named true m.name m.description) fun m => bodyBytes (.rename m) := by
  rintro input ⟨name, description⟩ rest
  simp [readRename, Exact.bind_run, named_iff, bodyBytes, maxNameBytes, maxDescriptionBytes,
    -StateT.run_bind, -bind_pure_comp]
  tauto

theorem readChangeRole_exact :
    Exact readChangeRole (fun _ => True) fun c => bodyBytes (.changeRole c) := by
  rintro input ⟨userId, role⟩ rest
  simp [readChangeRole, Exact.bind_run, bodyBytes, -StateT.run_bind, -bind_pure_comp]

theorem readAddMember_exact :
    Exact readAddMember (fun ids => ids.length < maxMembers) fun ids => bodyBytes (.addMember ids) := by
  intro input ids rest
  have hlength : ids.length < maxMembers → ids.length < 2 ^ 64 := by unfold maxMembers; omega
  simp [readAddMember, Exact.bind_run, bodyBytes,
    listOf_exact readArrayLen_exact (readExactBytes_exact (n := 16) (by decide)) _ _ _ _,
    -StateT.run_bind] at hlength ⊢
  tauto

theorem readRemoveMember_exact :
    Exact readRemoveMember (fun _ => True) fun id => bodyBytes (.removeMember id) := by
  intro input id rest
  simp [readRemoveMember, Exact.bind_run, bodyBytes, -StateT.run_bind]

variable (kind : UInt8)

theorem decodeBody_exact :
    Exact (decodeBody kind) (fun b => b.kind = kind ∧ Readable true b) bodyBytes :=
  ofKind_exact {
    create := readCreate_exact
    addMember := readAddMember_exact
    removeMember := readRemoveMember_exact
    changeRole := readChangeRole_exact
    rename := readRename_exact } kind

def bodyFrame : ControlBody → Bytes
  | .create c => List.flatten [
      frame c.name.bytes, frame c.description.bytes, [c.invitationPolicy], [c.historyPolicy],
      be 2 c.members.length ++ c.members.flatMap fun member => member.userId.bytes ++ [member.role]]
  | .addMember userIds => be 2 userIds.length ++ userIds.flatMap Block.bytes
  | .removeMember userId => userId.bytes
  | .changeRole c => c.userId.bytes ++ [c.role]
  | .rename r => frame r.name.bytes ++ frame r.description.bytes

theorem projectedMember_exact :
    Exact projectedMember (fun _ => True) fun member => member.userId.bytes ++ [member.role] := by
  rintro input ⟨userId, role⟩ rest
  simp [projectedMember, Exact.bind_run, -StateT.run_bind, -bind_pure_comp]

theorem projectedCreate_exact :
    Exact projectedCreate (Create.Readable false) fun c => bodyFrame (.create c) := by
  rintro input ⟨name, description, _, _, members⟩ rest
  have hlength : members.length ≤ 50 → members.length < 2 ^ 16 := by omega
  simp [projectedCreate, projectionText, Exact.bind_run, named_iff, Create.readable_iff, bodyFrame,
    listOf_exact u16Count_exact projectedMember_exact _ _ _ _, maxNameBytes, maxDescriptionBytes,
    maxMembers, -StateT.run_bind, -bind_pure_comp] at hlength ⊢
  tauto

theorem projectedChangeRole_exact :
    Exact projectedChangeRole (fun _ => True) fun c => bodyFrame (.changeRole c) := by
  rintro input ⟨userId, role⟩ rest
  simp [projectedChangeRole, Exact.bind_run, bodyFrame, -StateT.run_bind, -bind_pure_comp]

theorem projectedRename_exact :
    Exact projectedRename (fun m => Named false m.name m.description) fun m =>
      bodyFrame (.rename m) := by
  rintro input ⟨name, description⟩ rest
  simp [projectedRename, projectionText, Exact.bind_run, named_iff, bodyFrame, maxNameBytes,
    maxDescriptionBytes, -StateT.run_bind, -bind_pure_comp]
  tauto

theorem projectedAddMember_exact :
    Exact (listOf u16Count (· ≥ maxMembers) (Reader.array 16)) (fun ids => ids.length < maxMembers)
      fun ids => bodyFrame (.addMember ids) := by
  refine Exact.congr (listOf_exact u16Count_exact (Reader.array_exact 16) _) (fun ids => ?_)
    fun _ _ => rfl
  simp only [decide_eq_false_iff_not, not_le, implies_true, and_true]
  exact and_iff_right_of_imp fun h => h.trans (by decide)

theorem projectedBody_exact :
    Exact (projectedBody kind) (fun b => b.kind = kind ∧ Readable false b) bodyFrame :=
  ofKind_exact {
    create := projectedCreate_exact
    addMember := projectedAddMember_exact
    removeMember := Reader.array_exact 16
    changeRole := projectedChangeRole_exact
    rename := projectedRename_exact } kind

/-! ## What validation says -/

variable {name description : Text}

theorem Named.of_validateMetadata
    (h : validateMetadata name description = .ok ()) : Named true name description := by
  obtain ⟨hsize, hempty⟩ := unit_bind_eq_ok.mp h
  rw [failIf_eq_ok] at hsize hempty
  simp only [not_or, not_lt, gt_iff_lt] at hsize
  obtain ⟨hname, hscalars, hdescription, hdescriptionScalars⟩ := hsize
  refine ⟨⟨hname, hscalars, fun _ => ?_⟩, ⟨hdescription, hdescriptionScalars, nofun⟩⟩
  simpa using hempty

variable {b : ControlBody}

theorem readable_of_validateBody (h : validateBody b = .ok ()) : Readable true b := by
  cases b with
  | create c =>
    obtain ⟨hmetadata, hrest⟩ := unit_bind_eq_ok.mp h
    obtain ⟨hcount, -⟩ := unit_bind_eq_ok.mp hrest
    exact ⟨.of_validateMetadata hmetadata, not_lt.mp (failIf_eq_ok.mp hcount)⟩
  | addMember userIds =>
    obtain ⟨hcount, -⟩ := unit_bind_eq_ok.mp h
    exact not_le.mp (failIf_eq_ok.mp hcount)
  | removeMember userId => trivial
  | changeRole c => trivial
  | rename r => exact .of_validateMetadata h

theorem Named.weaken (h : Named true name description) : Named false name description :=
  ⟨⟨h.name.length_le, h.name.chars_le, nofun⟩, h.description⟩

theorem Readable.weaken (h : Readable true b) : Readable false b := by
  cases b with
  | create c => exact ⟨h.named.weaken, h.length_le⟩
  | rename r => exact Named.weaken h
  | _ => exact h

theorem pushBody_of_readable (h : Readable false b) : pushBody b = .ok (bodyFrame b) := by
  cases b with
  | create c =>
    obtain ⟨count, hcount, hbytes⟩ := projectionCount_of_lt (h.length_le.trans_lt (by decide))
    simp only [pushBody, pushFrame_of_fits (by decide) h.named.name,
      pushFrame_of_fits (by decide) h.named.description, hcount, ok_bind, hbytes]
    rfl
  | addMember userIds =>
    obtain ⟨count, hcount, hbytes⟩ := projectionCount_of_lt (Nat.lt_trans h (by decide))
    simp only [pushBody, hcount, ok_bind, hbytes]
    rfl
  | removeMember userId => rfl
  | changeRole c => rfl
  | rename r =>
    have hnamed := h
    simp only [pushBody, pushFrame_of_fits (by decide) hnamed.name,
      pushFrame_of_fits (by decide) hnamed.description, ok_bind]
    rfl

def lawful : Lawful format where
  Readable := Readable true
  Projectable := Readable false
  bodyFrame := bodyFrame
  decodeBody_exact := decodeBody_exact
  projectedBody_exact := projectedBody_exact
  readable := readable_of_validateBody
  projectable h := (readable_of_validateBody h).weaken
  pushBody h := pushBody_of_readable (readable_of_validateBody h).weaken

end CommPlatform.GroupControl
