import CommPlatform.L1Encoding.DeterministicCbor
import CommPlatform.L5Rooms.RoomModel

/-!
# Voice signals

`voice_signal_model.dart` and `voice_signal_codec.dart`: the signalling
payload of a call, eight fixed bytes, a version, a kind and a body in
deterministic CBOR. The fields of a message carry what its constructors
check.

Bare line numbers are those of `voice_signal_codec.dart`.
-/
namespace CommPlatform.Rooms.Voice

open CommPlatform.Core
open DeterministicCbor (CborValue CborFormatException Fits Canonical Unmarked Same)

/-! ## Messages -/

/-- mirrors voice_signal_model.dart:5-18 -/
def maximumCounter : Nat := 0xffffffff
def maximumCandidates : Nat := 8
def maximumParticipants : Nat := 10
def maximumRoomTextScalars : Nat := 2000
def maximumRoomTextBytes : Nat := 8000

abbrev JoinId := Block 16

/-- mirrors voice_signal_model.dart:299-300 -/
abbrev Counter := { n : Nat // 1 ≤ n ∧ n ≤ maximumCounter }

abbrev Natural := { n : Nat // n < 2 ^ 63 }

/-- mirrors voice_signal_model.dart:62-98 -/
structure VoiceSignalHeader where
  roomId : RoomId
  joinId : JoinId
  senderUserId : UserId
  senderDeviceId : DeviceId
  counter : Counter
  createdMs : Natural

inductive VoiceLeaveReason
  | userLeft
  | roomStateChanged
  | localFailure
deriving DecidableEq

/-- mirrors voice_signal_model.dart:214-234 -/
structure VoiceIceCandidate where
  candidate : Text
  mid : Text
  mline : Natural

/-- mirrors voice_signal_model.dart:263-278 -/
structure VoiceParticipant where
  userId : UserId
  deviceId : DeviceId
  joinId : JoinId

/-- mirrors voice_signal_model.dart:281-297 -/
abbrev RoomText :=
  { t : Text // t.chars.length ≤ maximumRoomTextScalars ∧ t.bytes.length ≤ maximumRoomTextBytes }

/-- mirrors voice_signal_model.dart:100-297 -/
inductive VoiceSignalBody
  | join
  | leave (reason : VoiceLeaveReason)
  | offer (targetJoinId : JoinId) (sdp : Text)
  | answer (targetJoinId : JoinId) (sdp : Text) (answersCounter : Counter)
  | candidates (targetJoinId : JoinId)
      (candidates : { l : List VoiceIceCandidate // l.length ≤ maximumCandidates }) (finished : Bool)
  | participantsQuery
  | participants (members : { l : List VoiceParticipant // l.length ≤ maximumParticipants })
  | roomText (text : RoomText)

/-- mirrors voice_signal_model.dart:20-42 -/
inductive VoiceSignalKind
  | join
  | leave
  | offer
  | answer
  | candidates
  | participantsQuery
  | participants
  | roomText
deriving DecidableEq

structure VoiceSignalMessage where
  header : VoiceSignalHeader
  body : VoiceSignalBody

def VoiceSignalBody.kind : VoiceSignalBody → VoiceSignalKind
  | .join => .join
  | .leave _ => .leave
  | .offer _ _ => .offer
  | .answer _ _ _ => .answer
  | .candidates _ _ _ => .candidates
  | .participantsQuery => .participantsQuery
  | .participants _ => .participants
  | .roomText _ => .roomText

def VoiceSignalKind.wireValue : VoiceSignalKind → Nat
  | .join => 1
  | .leave => 2
  | .offer => 3
  | .answer => 4
  | .candidates => 5
  | .participantsQuery => 6
  | .participants => 7
  | .roomText => 8

def VoiceSignalKind.values : List VoiceSignalKind :=
  [.join, .leave, .offer, .answer, .candidates, .participantsQuery, .participants, .roomText]

def VoiceSignalKind.fromWireValue (value : Nat) : Option VoiceSignalKind :=
  values.find? (·.wireValue == value)

def VoiceLeaveReason.wireValue : VoiceLeaveReason → Nat
  | .userLeft => 1
  | .roomStateChanged => 2
  | .localFailure => 3

def VoiceLeaveReason.values : List VoiceLeaveReason := [.userLeft, .roomStateChanged, .localFailure]

def VoiceLeaveReason.fromWireValue (value : Nat) : Option VoiceLeaveReason :=
  values.find? (·.wireValue == value)

/-! ## Writing -/

def version : Nat := 1
def maximumPayloadBytes : Nat := 16302
def magic : Bytes := [0x43, 0x50, 0x56, 0x53, 0x56, 0x30, 0x30, 0x31]
def maximumNesting : Nat := 3

def VoiceIceCandidate.value (candidate : VoiceIceCandidate) : CborValue :=
  .map [(0, .text candidate.candidate), (1, .text candidate.mid), (2, .unsigned candidate.mline)]

def VoiceParticipant.value (member : VoiceParticipant) : CborValue :=
  .map [(0, .bytes member.userId.bytes), (1, .bytes member.deviceId.bytes),
    (2, .bytes member.joinId.bytes)]

/-- mirrors :159-195 -/
def bodyEntries : VoiceSignalBody → List (Nat × CborValue)
  | .join => []
  | .participantsQuery => []
  | .leave reason => [(8, .unsigned reason.wireValue)]
  | .offer targetJoinId sdp => [(8, .bytes targetJoinId.bytes), (9, .text sdp)]
  | .answer targetJoinId sdp answersCounter =>
    [(8, .bytes targetJoinId.bytes), (9, .text sdp), (10, .unsigned answersCounter)]
  | .candidates targetJoinId candidates finished =>
    [(8, .bytes targetJoinId.bytes), (9, .array (candidates.val.map (·.value))), (10, .bool finished)]
  | .participants members => [(8, .array (members.val.map (·.value)))]
  | .roomText text => [(8, .text text.val)]

def VoiceSignalHeader.entries (header : VoiceSignalHeader) : List (Nat × CborValue) :=
  [(0, .bytes header.roomId.bytes), (1, .bytes header.joinId.bytes),
    (2, .bytes header.senderUserId.bytes), (3, .bytes header.senderDeviceId.bytes),
    (4, .unsigned header.counter), (5, .unsigned header.createdMs)]

def VoiceSignalMessage.value (message : VoiceSignalMessage) : CborValue :=
  .map (message.header.entries ++ bodyEntries message.body)

/-- mirrors :139-157 -/
def encodeMessage (message : VoiceSignalMessage) : Bytes :=
  magic ++ [UInt8.ofNat version, UInt8.ofNat message.body.kind.wireValue] ++
    DeterministicCbor.encode message.value

inductive ValidationFailureKind
  | limitExceeded
deriving DecidableEq

/-- mirrors :88-98 -/
def encode (message : VoiceSignalMessage) : Except ValidationFailureKind Bytes :=
  let encoded := encodeMessage message
  if encoded.length > maximumPayloadBytes then .error .limitExceeded else .ok encoded

/-! ## Reading -/

structure FormatException where
  message : String

namespace Read

/-- mirrors :300-305 -/
def bytes (value : Option CborValue) (length : Nat) : Except FormatException (Block length) :=
  match value with
  | some (.bytes b) => if h : b.length = length then .ok ⟨b, h⟩ else .error ⟨"invalid byte string"⟩
  | _ => .error ⟨"invalid byte string"⟩

/-- mirrors :307-312 -/
def unsigned (value : Option CborValue) : Except FormatException Nat :=
  match value with
  | some (.unsigned n) => .ok n
  | _ => .error ⟨"invalid unsigned integer"⟩

/-- mirrors :314-319 -/
def text (value : Option CborValue) : Except FormatException Text :=
  match value with
  | some (.text t) => .ok t
  | _ => .error ⟨"invalid text string"⟩

/-- mirrors :321-326 -/
def boolean (value : Option CborValue) : Except FormatException Bool :=
  match value with
  | some (.bool b) => .ok b
  | _ => .error ⟨"invalid boolean"⟩

/-- mirrors :293-298 -/
def array (value : Option CborValue) (maximum : Nat) :
    Except FormatException { l : List CborValue // l.length ≤ maximum } :=
  match value with
  | some (.array items) =>
    if h : items.length ≤ maximum then .ok ⟨items, h⟩ else .error ⟨"invalid array"⟩
  | _ => .error ⟨"invalid array"⟩

/-- mirrors :284-291 -/
def map (value : CborValue) (keys : List Nat) : Except FormatException (List (Nat × CborValue)) :=
  match value with
  | .map entries =>
    if entries.length = keys.length ∧ entries.all (keys.contains ·.1) then .ok entries
    else .error ⟨"unexpected map keys"⟩
  | _ => .error ⟨"unexpected map keys"⟩

/-- A number the constructor of a record checks. -/
def checked {p : Nat → Prop} [DecidablePred p] (n : Nat) (error : String) :
    Except FormatException { n : Nat // p n } :=
  if h : p n then .ok ⟨n, h⟩ else .error ⟨error⟩

/-- An `int` is never larger. -/
def natural (value : Option CborValue) : Except FormatException Natural := do
  checked (← unsigned value) "invalid unsigned integer"

/-- mirrors :266-273 -/
def candidate (value : CborValue) : Except FormatException VoiceIceCandidate := do
  let entries ← map value [0, 1, 2]
  let candidate ← text (entries.lookup 0)
  let mid ← text (entries.lookup 1)
  let mline ← natural (entries.lookup 2)
  return { candidate, mid, mline }

/-- mirrors :275-282 -/
def participant (value : CborValue) : Except FormatException VoiceParticipant := do
  let entries ← map value [0, 1, 2]
  let userId ← bytes (entries.lookup 0) 16
  let deviceId ← bytes (entries.lookup 1) 16
  let joinId ← bytes (entries.lookup 2) 16
  return { userId, deviceId, joinId }

def items {α : Type} (read : CborValue → Except FormatException α) {maximum : Nat}
    (l : { l : List CborValue // l.length ≤ maximum }) :
    Except FormatException { l : List α // l.length ≤ maximum } :=
  match h : l.val.mapM read with
  | .ok r => .ok ⟨r, by rw [← (mapM_eq_ok.mp h).length_eq]; exact l.property⟩
  | .error e => .error e

def headerKeys : List Nat := [0, 1, 2, 3, 4, 5]

/-- mirrors :202-210 -/
def bodyKeys : VoiceSignalKind → List Nat
  | .join => []
  | .participantsQuery => []
  | .leave => [8]
  | .participants => [8]
  | .roomText => [8]
  | .offer => [8, 9]
  | .answer | .candidates => [8, 9, 10]

/-- mirrors :219-226 -/
def header (entries : List (Nat × CborValue)) : Except FormatException VoiceSignalHeader := do
  let roomId ← bytes (entries.lookup 0) 32
  let joinId ← bytes (entries.lookup 1) 16
  let senderUserId ← bytes (entries.lookup 2) 16
  let senderDeviceId ← bytes (entries.lookup 3) 16
  let counter ← unsigned (entries.lookup 4)
  let createdMs ← natural (entries.lookup 5)
  let counter ← checked counter "invalid voice signal header"
  return { roomId, joinId, senderUserId, senderDeviceId, counter, createdMs }

/-- mirrors :227-262 -/
def body (kind : VoiceSignalKind) (entries : List (Nat × CborValue)) :
    Except FormatException VoiceSignalBody :=
  match kind with
  | .join => return .join
  | .participantsQuery => return .participantsQuery
  | .leave => do
    let value ← unsigned (entries.lookup 8)
    let reason ← okOr (VoiceLeaveReason.fromWireValue value) ⟨"unknown leave reason"⟩
    return .leave reason
  | .offer => do
    let targetJoinId ← bytes (entries.lookup 8) 16
    let sdp ← text (entries.lookup 9)
    return .offer targetJoinId sdp
  | .answer => do
    let targetJoinId ← bytes (entries.lookup 8) 16
    let sdp ← text (entries.lookup 9)
    let answersCounter ← unsigned (entries.lookup 10)
    let answersCounter ← checked answersCounter "invalid answered counter"
    return .answer targetJoinId sdp answersCounter
  | .candidates => do
    let targetJoinId ← bytes (entries.lookup 8) 16
    let candidates ← items candidate (← array (entries.lookup 9) maximumCandidates)
    let finished ← boolean (entries.lookup 10)
    return .candidates targetJoinId candidates finished
  | .participants => do
    let members ← items participant (← array (entries.lookup 8) maximumParticipants)
    return .participants members
  | .roomText => do
    let t ← text (entries.lookup 8)
    if h : t.chars.length ≤ maximumRoomTextScalars ∧ t.bytes.length ≤ maximumRoomTextBytes then
      return .roomText ⟨t, h⟩
    else throw ⟨"room text is too long"⟩

/-- mirrors :197-264 -/
def message (kind : VoiceSignalKind) (value : CborValue) :
    Except FormatException VoiceSignalMessage :=
  match value with
  | .map entries => do
    let keys := headerKeys ++ bodyKeys kind
    failIf (entries.length ≠ keys.length ∨ ¬ entries.all (keys.contains ·.1))
      ⟨"unexpected body keys"⟩
    let header ← header entries
    let body ← body kind entries
    return { header, body }
  | _ => throw ⟨"a body is a map"⟩

end Read

/-- mirrors :8-46 -/
inductive VoiceSignalDecoding
  | decoded (message : VoiceSignalMessage)
  | notVoiceSignal
  | unsupportedVersion (version : UInt8)
  | unknownKind (kind : UInt8)
  | malformed

/-- mirrors :100-137 -/
def decode (payload : Bytes) : VoiceSignalDecoding :=
  if payload.take magic.length ≠ magic then .notVoiceSignal
  else match payload.drop magic.length with
  | payloadVersion :: kindValue :: body =>
    if payloadVersion.toNat ≠ version then .unsupportedVersion payloadVersion
    else match VoiceSignalKind.fromWireValue kindValue.toNat with
    | none => .unknownKind kindValue
    | some kind =>
      if payload.length > maximumPayloadBytes then .malformed
      else match DeterministicCbor.decode maximumNesting body with
      | .error _ => .malformed
      | .ok value =>
        match Read.message kind value with
        | .error _ => .malformed
        | .ok message => if encodeMessage message = payload then .decoded message else .malformed
  | _ => .malformed

/-! ## Reading what was written -/

namespace Read

@[simp] theorem bytes_bytes {n : Nat} (b : Block n) : bytes (some (.bytes b.bytes)) n = .ok b :=
  dif_pos b.length_bytes

@[simp] theorem checked_val {p : Nat → Prop} [DecidablePred p] (n : { n : Nat // p n }) (e : String) :
    checked n.val e = .ok n :=
  dif_pos n.property

@[simp] theorem natural_val (n : Natural) : natural (some (.unsigned n)) = .ok n := checked_val n _

theorem candidate_value (c : VoiceIceCandidate) : candidate c.value = .ok c := by
  have hmap : map c.value [0, 1, 2] =
      .ok [(0, .text c.candidate), (1, .text c.mid), (2, .unsigned c.mline)] := rfl
  rw [candidate, hmap]
  simp [List.lookup_cons, text]

theorem participant_value (m : VoiceParticipant) : participant m.value = .ok m := by
  have hmap : map m.value [0, 1, 2] = .ok [(0, .bytes m.userId.bytes),
      (1, .bytes m.deviceId.bytes), (2, .bytes m.joinId.bytes)] := rfl
  rw [participant, hmap]
  simp [List.lookup_cons]

theorem items_map {α : Type} {read : CborValue → Except FormatException α} {value : α → CborValue}
    (hread : ∀ a, read (value a) = .ok a) {maximum : Nat} (l : { l : List α // l.length ≤ maximum })
    (h : (l.val.map value).length ≤ maximum) : items read ⟨l.val.map value, h⟩ = .ok l := by
  have hall : (l.val.map value).mapM read = .ok l.val := by
    rw [mapM_eq_ok, List.forall₂_map_left_iff]
    exact List.forall₂_same.mpr fun a _ => hread a
  unfold items
  split
  · next r hr =>
    rw [hall] at hr
    cases hr
    rfl
  · next e he =>
    rw [hall] at he
    cases he

variable (h : VoiceSignalHeader)
include h

theorem header_entries (es : List (Nat × CborValue)) : header (h.entries ++ es) = .ok h := by
  simp [header, VoiceSignalHeader.entries, List.lookup_cons, unsigned]

theorem lookup_entries (es : List (Nat × CborValue)) (k : Nat) :
    (h.entries ++ es).lookup (k + 8) = es.lookup (k + 8) := rfl

theorem body_entries (b : VoiceSignalBody) : body b.kind (h.entries ++ bodyEntries b) = .ok b := by
  have h₈ := lookup_entries h (bodyEntries b) 0
  have h₉ := lookup_entries h (bodyEntries b) 1
  have h₁₀ := lookup_entries h (bodyEntries b) 2
  cases b with
  | join => rfl
  | participantsQuery => rfl
  | leave reason => cases reason <;> rfl
  | offer target sdp =>
    rw [VoiceSignalBody.kind, body, h₈, h₉]
    simp [bodyEntries, List.lookup_cons, text]
  | answer target sdp counter =>
    rw [VoiceSignalBody.kind, body, h₈, h₉, h₁₀]
    simp [bodyEntries, List.lookup_cons, text, unsigned]
  | candidates target candidates finished =>
    rw [VoiceSignalBody.kind, body, h₈, h₉, h₁₀]
    simp [bodyEntries, List.lookup_cons, array, boolean, items_map candidate_value,
      candidates.property]
  | participants members =>
    rw [VoiceSignalBody.kind, body, h₈]
    simp [bodyEntries, array, items_map participant_value, members.property]
  | roomText t =>
    rw [VoiceSignalBody.kind, body, h₈]
    simp [bodyEntries, text, t.property]

omit h

variable (m : VoiceSignalMessage)

theorem keys_value :
    (m.header.entries ++ bodyEntries m.body).map Prod.fst = headerKeys ++ bodyKeys m.body.kind := by
  cases m.body <;> rfl

theorem message_value : message m.body.kind m.value = .ok m := by
  have hkeys := keys_value m
  have hlength := congrArg List.length hkeys
  have hall : (m.header.entries ++ bodyEntries m.body).all
      ((headerKeys ++ bodyKeys m.body.kind).contains ·.1) := by
    rw [← hkeys, List.all_eq_true]
    exact fun e he => List.contains_iff_mem.mpr (List.mem_map_of_mem he)
  rw [List.length_map] at hlength
  rw [VoiceSignalMessage.value, message, failIf_neg (by simp only [hlength, hall]; simp), ok_bind,
    header_entries, ok_bind, body_entries, ok_bind]
  rfl

end Read

/-! ## Marks in messages -/

def VoiceSignalBody.texts : VoiceSignalBody → List Text
  | .offer _ sdp => [sdp]
  | .answer _ sdp _ => [sdp]
  | .candidates _ batch _ => batch.val.flatMap fun c => [c.candidate, c.mid]
  | .roomText t => [t.val]
  | _ => []

def VoiceIceCandidate.dropMarks (c : VoiceIceCandidate) : VoiceIceCandidate :=
  { c with candidate := c.candidate.dropMark, mid := c.mid.dropMark }

def VoiceSignalBody.dropMarks : VoiceSignalBody → VoiceSignalBody
  | .offer target sdp => .offer target sdp.dropMark
  | .answer target sdp counter => .answer target sdp.dropMark counter
  | .candidates target batch finished => .candidates target
      ⟨batch.val.map (·.dropMarks), by rw [List.length_map]; exact batch.property⟩ finished
  | .roomText t => .roomText ⟨t.val.dropMark,
      Nat.le_trans (Text.length_chars_dropMark _) t.property.1,
      Nat.le_trans (Text.length_dropMark _) t.property.2⟩
  | body => body

section Value

open DeterministicCbor

variable (m : VoiceSignalMessage)

theorem texts_value : texts m.value = m.body.texts := by
  obtain ⟨header, body⟩ := m
  cases body with
  | candidates target candidates finished =>
    have hitems : textsOfItems (candidates.val.map (·.value)) =
        candidates.val.flatMap fun c => [c.candidate, c.mid] := by
      induction candidates.val with
      | nil => rfl
      | cons c l ih => rw [List.map_cons, textsOfItems, ih]; rfl
    exact (List.append_nil _).trans hitems
  | participants members =>
    have hitems : textsOfItems (members.val.map (·.value)) = [] := by
      induction members.val with
      | nil => rfl
      | cons m l ih => rw [List.map_cons, textsOfItems, ih]; rfl
    exact (List.append_nil _).trans hitems
  | _ => rfl

theorem dropMarks_value :
    dropMarks m.value = VoiceSignalMessage.value { m with body := m.body.dropMarks } := by
  obtain ⟨header, body⟩ := m
  cases body with
  | candidates target batch finished =>
    have hitems : dropItems (batch.val.map (·.value)) =
        (batch.val.map (·.dropMarks)).map (·.value) := by
      rw [dropItems_eq, List.map_map, List.map_map]
      rfl
    simp only [VoiceSignalMessage.value, bodyEntries, VoiceSignalBody.dropMarks, ← hitems]
    rfl
  | participants members =>
    have hitems : dropItems (members.val.map (·.value)) = members.val.map (·.value) := by
      rw [dropItems_eq, List.map_map]
      rfl
    simp only [VoiceSignalMessage.value, bodyEntries, VoiceSignalBody.dropMarks]
    conv_rhs => rw [← hitems]
    rfl
  | _ => rfl

theorem candidate_canonical {c : VoiceIceCandidate} (hc : c.candidate.bytes.length < 2 ^ 63)
    (hmid : c.mid.bytes.length < 2 ^ 63) : Canonical 1 c.value := by
  simpa [VoiceIceCandidate.value] using ⟨hc, hmid, c.mline.property⟩

theorem participant_canonical (m : VoiceParticipant) : Canonical 1 m.value := by
  simp [VoiceParticipant.value]

theorem counter_lt (c : Counter) : c.val < 2 ^ 63 := Nat.lt_of_le_of_lt c.property.2 (by decide)

theorem bodyEntries_canonical {body : VoiceSignalBody}
    (h : ∀ t ∈ body.texts, t.bytes.length < 2 ^ 63) :
    ∀ e ∈ bodyEntries body, e.1 < 2 ^ 63 ∧ Canonical 2 e.2 := by
  cases body with
  | join | participantsQuery => exact nofun
  | leave reason => cases reason <;> simp [bodyEntries, VoiceLeaveReason.wireValue]
  | offer target sdp => simpa [bodyEntries, VoiceSignalBody.texts] using h
  | answer target sdp counter =>
    simpa [bodyEntries] using ⟨h sdp (List.mem_singleton_self _), counter_lt counter⟩
  | candidates target batch finished =>
    have hitems : ∀ c ∈ batch.val, Canonical 1 c.value := fun c hc =>
      candidate_canonical (h _ (List.mem_flatMap.mpr ⟨c, hc, by simp⟩))
        (h _ (List.mem_flatMap.mpr ⟨c, hc, by simp⟩))
    have hlength := Nat.lt_of_le_of_lt batch.property (by decide : maximumCandidates < 2 ^ 63)
    simpa [bodyEntries] using ⟨hlength, hitems⟩
  | participants members =>
    have hlength := Nat.lt_of_le_of_lt members.property (by decide : maximumParticipants < 2 ^ 63)
    simpa [bodyEntries, participant_canonical] using hlength
  | roomText t => simpa [bodyEntries, VoiceSignalBody.texts] using h

theorem value_canonical {m : VoiceSignalMessage} (h : ∀ t ∈ m.body.texts, t.bytes.length < 2 ^ 63) :
    Canonical maximumNesting m.value := by
  have hascending : (Read.headerKeys ++ Read.bodyKeys m.body.kind).Pairwise (· < ·) := by
    cases m.body.kind <;> decide
  have hlength : (Read.headerKeys ++ Read.bodyKeys m.body.kind).length < 2 ^ 63 := by
    cases m.body.kind <;> decide
  rw [← Read.keys_value] at hascending hlength
  rw [List.length_map] at hlength
  refine nests_map.mpr ?_
  refine ⟨hlength, List.pairwise_map.mp hascending, List.forall_mem_append.mpr ⟨?_, ?_⟩⟩
  · simpa [VoiceSignalHeader.entries] using ⟨counter_lt m.header.counter, m.header.createdMs.property⟩
  · exact bodyEntries_canonical h

end Value

/-! ## Round trips -/

section RoundTrip

open DeterministicCbor

variable {m : VoiceSignalMessage}

theorem encode_eq_ok {p : Bytes} :
    encode m = .ok p ↔ (encodeMessage m).length ≤ maximumPayloadBytes ∧ encodeMessage m = p := by
  unfold encode
  dsimp only
  split
  · next h => exact ⟨nofun, fun hp => absurd h (Nat.not_lt.mpr hp.1)⟩
  · next h => rw [Except.ok.injEq, and_iff_right (Nat.le_of_not_lt h)]

theorem sent_canonical (h : (encodeMessage m).length ≤ maximumPayloadBytes) :
    Canonical maximumNesting m.value := by
  refine value_canonical fun t ht => ?_
  rw [← texts_value] at ht
  have hle := length_text_le ht
  rw [encodeMessage, List.length_append] at h
  unfold maximumPayloadBytes at h
  omega

theorem kind_dropMarks (b : VoiceSignalBody) : b.dropMarks.kind = b.kind := by
  cases b <;> rfl

theorem encodeMessage_dropMarks (h : (encodeMessage m).length ≤ maximumPayloadBytes) :
    encodeMessage { m with body := m.body.dropMarks } = encodeMessage m ↔
      ∀ t ∈ m.body.texts, t.hasMark = false := by
  have hcanonical := sent_canonical h
  unfold encodeMessage
  rw [kind_dropMarks, List.append_cancel_left_eq, ← dropMarks_value, ← texts_value]
  refine Iff.trans ⟨?_, congrArg _⟩ dropMarks_eq_self
  exact encode_inj (dropMarks_canonical _ hcanonical) hcanonical

theorem dropMarks_message (h : ∀ t ∈ m.body.texts, t.hasMark = false) :
    { m with body := m.body.dropMarks } = m := by
  rw [← texts_value] at h
  have hread := Read.message_value { m with body := m.body.dropMarks }
  rw [← dropMarks_value, dropMarks_eq_self.mpr h, kind_dropMarks, Read.message_value] at hread
  exact (Except.ok.inj hread).symm

theorem decode_encodeMessage (h : (encodeMessage m).length ≤ maximumPayloadBytes) :
    decode (encodeMessage m) =
      if encodeMessage { m with body := m.body.dropMarks } = encodeMessage m then
        .decoded { m with body := m.body.dropMarks } else .malformed := by
  have htake : (encodeMessage m).take magic.length = magic := rfl
  have hdrop : (encodeMessage m).drop magic.length =
      UInt8.ofNat version :: UInt8.ofNat m.body.kind.wireValue ::
        DeterministicCbor.encode m.value := rfl
  have hkind : VoiceSignalKind.fromWireValue (UInt8.ofNat m.body.kind.wireValue).toNat =
      some m.body.kind := by
    cases m.body <;> rfl
  have hbody := decode_eq_ok.mpr ⟨m.value, sent_canonical h, dropMarks_value m, rfl⟩
  have hread := Read.message_value { m with body := m.body.dropMarks }
  rw [kind_dropMarks] at hread
  rw [decode, if_neg (not_not.mpr htake), hdrop]
  dsimp only
  rw [if_neg (by decide), hkind]
  dsimp only
  rw [if_neg (Nat.not_lt.mpr h), hbody]
  dsimp only
  rw [hread]

theorem decode_encode_message {p : Bytes} (h : encode m = .ok p) :
    decode p = if ∀ t ∈ m.body.texts, t.hasMark = false then .decoded m else .malformed := by
  obtain ⟨hlength, rfl⟩ := encode_eq_ok.mp h
  rw [decode_encodeMessage hlength]
  simp only [encodeMessage_dropMarks hlength]
  split
  · next hmarks => rw [dropMarks_message hmarks]
  · rfl

end RoundTrip

/-- Trees, accepted encodings and messages come back from a round trip exactly if no text in them
begins with a byte-order mark, which `utf8.decode` drops. -/
theorem round_trips_iff (nesting : Nat) : (∀ v, Fits nesting v →
      ((∃ w, DeterministicCbor.decode nesting (DeterministicCbor.encode v) = .ok w ∧ Same w v) ↔
        Unmarked v)) ∧
    (∀ b w, DeterministicCbor.decode nesting b = .ok w →
      (DeterministicCbor.encode w = b ↔
        ∀ v, Fits nesting v → DeterministicCbor.encode v = b → Unmarked v)) ∧
    ∀ m p, encode m = .ok p → (decode p = .decoded m ↔ ∀ t ∈ m.body.texts, t.hasMark = false) := by
  refine ⟨fun _ => DeterministicCbor.decode_encode_iff,
    fun _ _ => DeterministicCbor.encode_decode_iff, fun m p h => ?_⟩
  rw [decode_encode_message h]
  split
  · next hmarks => exact ⟨fun _ => hmarks, fun _ => rfl⟩
  · next hmarks => exact ⟨nofun, fun h => absurd h hmarks⟩

def exampleHeader : VoiceSignalHeader where
  roomId := .fill 32 1
  joinId := .fill 16 2
  senderUserId := .fill 16 3
  senderDeviceId := .fill 16 4
  counter := ⟨1, by decide⟩
  createdMs := ⟨0, by decide⟩

def letter : Text := ⟨[0x41], by decide⟩

def markedLetter : Text := ⟨[0xef, 0xbb, 0xbf, 0x41], by decide⟩

def letterMessage : VoiceSignalMessage :=
  { header := exampleHeader, body := .roomText ⟨letter, by decide⟩ }

def markedMessage : VoiceSignalMessage :=
  { header := exampleHeader, body := .roomText ⟨markedLetter, by decide⟩ }

theorem round_trips_letter :
    (∃ w, DeterministicCbor.decode 0 (DeterministicCbor.encode (.text letter)) = .ok w ∧
      Same w (.text letter)) ∧
    (∀ v, Fits 0 v → DeterministicCbor.encode v = DeterministicCbor.encode (.text letter) →
      Unmarked v) ∧
    decode (encodeMessage letterMessage) = .decoded letterMessage := by
  have hunmarked : ∀ t ∈ [letter], t.hasMark = false := by decide
  obtain ⟨htree, hbytes, hmessage⟩ := round_trips_iff 0
  refine ⟨(htree (.text letter) ?_).mpr hunmarked, (hbytes _ (.text letter) ?_).mp rfl,
    (hmessage _ _ ?_).mpr hunmarked⟩
  · exact DeterministicCbor.nests_text.mpr (by decide)
  · rfl
  · exact encode_eq_ok.mpr ⟨by decide, rfl⟩

/-- A text loses its mark, its encoding is not written again, and a message with it is refused. -/
theorem marked_letter_lost :
    DeterministicCbor.decode 0 (DeterministicCbor.encode (.text markedLetter)) = .ok (.text letter) ∧
    ¬ Same (.text letter) (.text markedLetter) ∧
    DeterministicCbor.encode (.text letter) ≠ DeterministicCbor.encode (.text markedLetter) ∧
    encode markedMessage = .ok (encodeMessage markedMessage) ∧
    decode (encodeMessage markedMessage) = .malformed := by
  have hsent : encode markedMessage = .ok (encodeMessage markedMessage) :=
    encode_eq_ok.mpr ⟨by decide, rfl⟩
  refine ⟨rfl, ?_, by decide, hsent, ?_⟩
  · intro h
    cases h
  · rw [decode_encode_message hsent, if_neg (by decide)]

end CommPlatform.Rooms.Voice
