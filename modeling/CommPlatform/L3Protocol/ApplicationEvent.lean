import CommPlatform.L1Encoding.CanonicalCbor

/-!
# Application events

`application.rs`: the projection frames that Dart hands to the native core,
the deterministic CBOR an event is sent as, and the operations between the
two. The variants of `EventBody` with several fields carry a structure of
the source's names. Vectors grow without failing, `usize` is 64 bits wide.

Bare line numbers are those of `application.rs`.
-/
namespace CommPlatform.Application

open CommPlatform.Core L1
open L1.Decoder (encodeKey)
open L1.Reader hiding failIf

/-! ## Constants -/

def applicationMaxIoBytes : Nat := 262144
def maxCborBytes : Nat := maxInputBytes
def maxCborItems : Nat := 4096
def applicationVersion : UInt8 := 1

def encodeRequestMagic : Bytes := ascii "CPAEV001"
def encodeResponseMagic : Bytes := ascii "CPAOE001"
def decodeResponseMagic : Bytes := ascii "CPAOD001"

def kindMessageCreate : UInt16 := 1
def kindMessageEdit : UInt16 := 2
def kindMessageDelete : UInt16 := 3
def kindReactionSet : UInt16 := 4
def kindPinSet : UInt16 := 5
def kindReceiptDelivered : UInt16 := 6
def kindReceiptRead : UInt16 := 7
def kindTypingSet : UInt16 := 8

def maxReferences : Nat := 64
def maxTextBytes : Nat := 65536
def maxTextScalars : Nat := 16384
def maxQuoteBytes : Nat := 2048
def maxQuoteScalars : Nat := 512
def maxEmojiBytes : Nat := 64
def capabilityIdLength : Nat := 43
def maxApplicationCborDepth : Nat := 16
def maxApplicationMapEntries : Nat := 64

abbrev Id := Block 16

/-! ## Events -/

/-- mirrors :108-123 -/
structure AttachmentDescriptor where
  capabilityId : Text
  key : Block 32
  header : Block 66
  streamHeader : Block 24
  encryptedSize : UInt64
  bucketSize : UInt64
  plaintextSize : UInt64
  displayName : Text
  mimeType : Text
  mediaKind : UInt8
  width : UInt32
  height : UInt32
  caption : Option Text
  thumbnail : Option Bytes
deriving DecidableEq

structure MessageCreate where
  messageId : Id
  contentType : UInt8
  text : Text
  replyTo : Option Id
  quoteFallback : Option Text
  attachments : List AttachmentDescriptor
deriving DecidableEq

structure MessageEdit where
  target : Id
  revision : UInt32
  replacement : Text
deriving DecidableEq

structure ReactionSet where
  target : Id
  emoji : Option Text
deriving DecidableEq

structure PinSet where
  target : Id
  pinned : Bool
deriving DecidableEq

structure TypingSet where
  isTyping : Bool
  expiresMs : UInt64
deriving DecidableEq

/-- mirrors :72-105 -/
inductive EventBody
  | messageCreate (m : MessageCreate)
  | messageEdit (m : MessageEdit)
  | messageDelete (target : Id)
  | reactionSet (r : ReactionSet)
  | pinSet (p : PinSet)
  | receipt (messageIds : List Id)
  | typingSet (t : TypingSet)
  | unsupported
deriving DecidableEq

structure EventHead where
  version : UInt8
  eventId : Id
  conversationId : Block 32
  kind : UInt16
  senderUserId : Id
  senderDeviceId : Id
  senderCounter : UInt64
  createdMs : UInt64
  references : List Id

/-- mirrors :58-69 -/
structure ApplicationEvent extends EventHead where
  body : EventBody

/-! ## Checks of the values -/

/-- mirrors :1527-1532 -/
def hasDuplicates (values : List Id) : Bool := !decide values.Nodup

def isCapabilityByte (b : UInt8) : Bool :=
  (0x30 ≤ b && b ≤ 0x39) || (0x41 ≤ b && b ≤ 0x5a) || (0x61 ≤ b && b ≤ 0x7a) || b == 0x5f || b == 0x2d

/-- mirrors :807-816 -/
def capabilityIdRefused (capabilityId : Text) : Bool :=
  capabilityId.bytes.length != capabilityIdLength || !capabilityId.bytes.all isCapabilityByte

def isRegionalIndicator (c : Nat) : Bool := 0x1f1e6 ≤ c && c ≤ 0x1f1ff

def isEmojiModifier (c : Nat) : Bool := 0x1f3fb ≤ c && c ≤ 0x1f3ff

/-- mirrors :1601-1626 -/
def isEmojiBase (c : Nat) : Bool :=
  [(0x00a9, 0x00a9), (0x00ae, 0x00ae), (0x203c, 0x203c), (0x2049, 0x2049), (0x2122, 0x2122),
    (0x2139, 0x2139), (0x2194, 0x21ff), (0x2300, 0x23ff), (0x2460, 0x24ff), (0x25a0, 0x27bf),
    (0x2934, 0x2935), (0x2b00, 0x2bff), (0x3030, 0x3030), (0x303d, 0x303d), (0x3297, 0x3297),
    (0x3299, 0x3299), (0x1f000, 0x1f02f), (0x1f0a0, 0x1f0ff), (0x1f170, 0x1f251),
    (0x1f300, 0x1faff)].any fun (low, high) => low ≤ c && c ≤ high

/-- The loop of `is_single_emoji` with its two flags. -/
def emojiLoop : (expectBase sawBase : Bool) → List Nat → Bool
  | expectBase, sawBase, [] => sawBase && !expectBase
  | expectBase, sawBase, c :: rest =>
    if c = 0x200d then
      if expectBase || !sawBase then false else emojiLoop true sawBase rest
    else if isEmojiModifier c || c == 0xfe0f then
      if expectBase || !sawBase then false else emojiLoop expectBase sawBase rest
    else if isEmojiBase c then
      if !expectBase && sawBase then false else emojiLoop false true rest
    else false

/-- mirrors :1554-1591 -/
def isSingleEmoji (value : Text) : Bool :=
  let scalars := value.chars
  if scalars.isEmpty || value.bytes.length > maxEmojiBytes then false
  else if scalars.length == 2 && scalars.all isRegionalIndicator then true
  else if scalars.getLast? = some 0x20e3 then
    (match scalars.head? with
      | some c => (0x30 ≤ c && c ≤ 0x39) || c == 0x23 || c == 0x2a
      | none => false) && scalars.tail.dropLast.all (· == 0xfe0f)
  else emojiLoop true false scalars

/-- `emoji.as_deref().is_some_and(|value| !is_single_emoji(value))` -/
def emojiRefused (emoji : Option Text) : Bool :=
  match emoji with
  | some value => !isSingleEmoji value
  | none => false

/-- mirrors :1534-1546 -/
def isSupportedKind (kind : UInt16) : Bool :=
  [kindMessageCreate, kindMessageEdit, kindMessageDelete, kindReactionSet, kindPinSet,
    kindReceiptDelivered, kindReceiptRead, kindTypingSet].contains kind

structure BodyReaders where
  messageCreate : Reader MessageCreate
  messageEdit : Reader MessageEdit
  messageDelete : Reader Id
  reactionSet : Reader ReactionSet
  pinSet : Reader PinSet
  receipt : Reader (List Id)
  typingSet : Reader TypingSet

/-- The match on the kind that the reader of the CBOR and the reader of the projection share. -/
def BodyReaders.ofKind (r : BodyReaders) (kind : UInt16) : Reader EventBody :=
  if kind = kindMessageCreate then do return .messageCreate (← r.messageCreate)
  else if kind = kindMessageEdit then do return .messageEdit (← r.messageEdit)
  else if kind = kindMessageDelete then do return .messageDelete (← r.messageDelete)
  else if kind = kindReactionSet then do return .reactionSet (← r.reactionSet)
  else if kind = kindPinSet then do return .pinSet (← r.pinSet)
  else if kind = kindReceiptDelivered ∨ kind = kindReceiptRead then do
    return .receipt (← r.receipt)
  else if kind = kindTypingSet then do return .typingSet (← r.typingSet)
  else throw .unsupportedOperation

/-! ## The CBOR of an event -/

/-- mirrors :1196-1210 -/
def encodeOptionalId : Option Id → Bytes := Decoder.nullable fun value => Cbor.bytes value.bytes

/-- mirrors :1212-1226 -/
def encodeOptionalText : Option Text → Bytes := Decoder.nullable Cbor.str

/-- mirrors :684-744 -/
def encodeCborAttachment (attachment : AttachmentDescriptor) : Bytes := List.flatten [
  Cbor.map 14,
  encodeKey 0, Cbor.str attachment.capabilityId,
  encodeKey 1, Cbor.bytes attachment.key.bytes,
  encodeKey 2, Cbor.bytes attachment.header.bytes,
  encodeKey 3, Cbor.bytes attachment.streamHeader.bytes,
  encodeKey 4, Cbor.uint attachment.encryptedSize.toNat,
  encodeKey 5, Cbor.uint attachment.bucketSize.toNat,
  encodeKey 6, Cbor.uint attachment.plaintextSize.toNat,
  encodeKey 7, Cbor.str attachment.displayName,
  encodeKey 8, Cbor.str attachment.mimeType,
  encodeKey 9, Cbor.uint attachment.mediaKind.toNat,
  encodeKey 10, Cbor.uint attachment.width.toNat,
  encodeKey 11, Cbor.uint attachment.height.toNat,
  encodeKey 12, encodeOptionalText attachment.caption,
  encodeKey 13, Cbor.bytes (attachment.thumbnail.getD [])]

def encodeIds (ids : List Id) : Bytes :=
  Cbor.array ids.length ++ ids.flatMap fun id => Cbor.bytes id.bytes

/-- Key 5 of a message, which is left out when there is no attachment. -/
def encodeAttachments (attachments : List AttachmentDescriptor) : Bytes :=
  if attachments.isEmpty then []
  else encodeKey 5 ++ (Cbor.array attachments.length ++ attachments.flatMap encodeCborAttachment)

def bodyBytes : EventBody → Bytes
  | .messageCreate m => List.flatten [
      Cbor.map (if m.attachments.isEmpty then 5 else 6),
      encodeKey 0, Cbor.bytes m.messageId.bytes,
      encodeKey 1, Cbor.uint m.contentType.toNat,
      encodeKey 2, Cbor.str m.text,
      encodeKey 3, encodeOptionalId m.replyTo,
      encodeKey 4, encodeOptionalText m.quoteFallback,
      encodeAttachments m.attachments]
  | .messageEdit m => List.flatten [
      Cbor.map 3,
      encodeKey 0, Cbor.bytes m.target.bytes,
      encodeKey 1, Cbor.str m.replacement,
      encodeKey 2, Cbor.uint m.revision.toNat]
  | .messageDelete target => List.flatten [Cbor.map 1, encodeKey 0, Cbor.bytes target.bytes]
  | .reactionSet r => List.flatten [
      Cbor.map 2,
      encodeKey 0, Cbor.bytes r.target.bytes,
      encodeKey 1, encodeOptionalText r.emoji]
  | .pinSet p => List.flatten [
      Cbor.map 2,
      encodeKey 0, Cbor.bytes p.target.bytes,
      encodeKey 1, Cbor.bool p.pinned]
  | .receipt messageIds => List.flatten [Cbor.map 1, encodeKey 0, encodeIds messageIds]
  | .typingSet t => List.flatten [
      Cbor.map 2,
      encodeKey 0, Cbor.bool t.isTyping,
      encodeKey 1, Cbor.uint t.expiresMs.toNat]
  | .unsupported => []

/-- mirrors :563-682 -/
def encodeEventBody (body : EventBody) : CryptoResult Bytes :=
  match body with
  | .messageCreate m => do
    failIf ((m.contentType == 0) != m.attachments.isEmpty) .malformedInput
    return bodyBytes body
  | .unsupported => .error .unsupportedOperation
  | _ => .ok (bodyBytes body)

def headBytes (head : EventHead) : Bytes := List.flatten [
  Cbor.map 10,
  encodeKey 0, Cbor.uint head.version.toNat,
  encodeKey 1, Cbor.bytes head.eventId.bytes,
  encodeKey 2, Cbor.bytes head.conversationId.bytes,
  encodeKey 3, Cbor.uint head.kind.toNat,
  encodeKey 4, Cbor.bytes head.senderUserId.bytes,
  encodeKey 5, Cbor.bytes head.senderDeviceId.bytes,
  encodeKey 6, Cbor.uint head.senderCounter.toNat,
  encodeKey 7, Cbor.uint head.createdMs.toNat,
  encodeKey 8, encodeIds head.references]

/-- mirrors :506-560 -/
def encodeEvent (event : ApplicationEvent) : CryptoResult Bytes := do
  let body ← encodeEventBody event.body
  let output := headBytes event.toEventHead ++ (encodeKey 9 ++ body)
  failIf (output.length > maxCborBytes ∨ output.length > applicationMaxIoBytes) .inputTooLarge
  return output

/-! ## Reading it back -/

section Decode

open L1.Decoder

/-- mirrors :746-803 -/
def readCborAttachment : Decoder AttachmentDescriptor := do
  readExactMap 14
  readKey 0
  let capabilityId ← readText capabilityIdLength capabilityIdLength true
  Reader.failIf (capabilityIdRefused capabilityId) .malformedInput
  readKey 1
  let key ← readExactBytes 32
  readKey 2
  let header ← readExactBytes 66
  readKey 3
  let streamHeader ← readExactBytes 24
  readKey 4
  let encryptedSize ← readUint
  readKey 5
  let bucketSize ← readUint
  readKey 6
  let plaintextSize ← readUint
  readKey 7
  let displayName ← readText 128 128 true
  readKey 8
  let mimeType ← readText 128 128 true
  readKey 9
  let mediaKind ← readU8
  Reader.failIf (mediaKind > 1) .malformedInput
  readKey 10
  let width ← readU32
  readKey 11
  let height ← readU32
  readKey 12
  let caption ← readNullableText maxTextBytes maxTextScalars
  readKey 13
  let thumbnail ← readBytes
  Reader.failIf (thumbnail.length > 65536) .inputTooLarge
  return { capabilityId, key, header, streamHeader, encryptedSize, bucketSize, plaintextSize,
           displayName, mimeType, mediaKind, width, height, caption,
           thumbnail := if thumbnail.isEmpty then none else some thumbnail }

/-- The attachments of a message whose map has `mapLen` entries. -/
def readAttachments (mapLen : Nat) : Decoder (List AttachmentDescriptor) :=
  if mapLen = 6 then do
    readKey 5
    let count ← readArrayLen
    Reader.failIf (count == 0) .malformedInput
    Reader.failIf (count > 32) .inputTooLarge
    Reader.many readCborAttachment count
  else return []

/-- mirrors :983-1030 -/
def readMessageCreate : Decoder MessageCreate := do
  let mapLen ← readMapLen
  Reader.failIf (mapLen != 5 && mapLen != 6) .malformedInput
  readKey 0
  let messageId ← readExactBytes 16
  readKey 1
  let contentType ← readUint
  Reader.failIf (contentType > 2) .unsupportedOperation
  readKey 2
  let text ← readText maxTextBytes maxTextScalars (contentType == 0)
  readKey 3
  let replyTo ← readNullableId
  readKey 4
  let quoteFallback ← readNullableText maxQuoteBytes maxQuoteScalars
  let attachments ← readAttachments mapLen
  Reader.failIf ((contentType == 0) != attachments.isEmpty) .malformedInput
  let contentType ← tryU8 contentType.toNat .malformedInput
  return { messageId, contentType, text, replyTo, quoteFallback, attachments }

def readMessageEdit : Decoder MessageEdit := do
  readExactMap 3
  readKey 0
  let target ← readExactBytes 16
  readKey 1
  let replacement ← readText maxTextBytes maxTextScalars true
  readKey 2
  let revision ← readU32
  Reader.failIf (revision == 0) .malformedInput
  return { target, revision, replacement }

def readMessageDelete : Decoder Id := do
  readExactMap 1
  readKey 0
  readExactBytes 16

def readReactionSet : Decoder ReactionSet := do
  readExactMap 2
  readKey 0
  let target ← readExactBytes 16
  readKey 1
  let emoji ← readNullableText maxEmojiBytes maxEmojiBytes
  Reader.failIf (emojiRefused emoji) .malformedInput
  return { target, emoji }

def readPinSet : Decoder PinSet := do
  readExactMap 2
  readKey 0
  let target ← readExactBytes 16
  readKey 1
  let pinned ← readBool
  return { target, pinned }

def readReceipt : Decoder (List Id) := do
  readExactMap 1
  readKey 0
  let count ← readArrayLen
  Reader.failIf (count == 0 || count > maxReferences) .malformedInput
  let messageIds ← Reader.many (readExactBytes 16) count
  Reader.failIf (hasDuplicates messageIds) .malformedInput
  return messageIds

def readTypingSet : Decoder TypingSet := do
  readExactMap 2
  readKey 0
  let isTyping ← readBool
  readKey 1
  let expiresMs ← readUint
  return { isTyping, expiresMs }

/-- mirrors :981-1113 -/
def decodeCborBody : UInt16 → Decoder EventBody := BodyReaders.ofKind {
  messageCreate := readMessageCreate
  messageEdit := readMessageEdit
  messageDelete := readMessageDelete
  reactionSet := readReactionSet
  pinSet := readPinSet
  receipt := readReceipt
  typingSet := readTypingSet }

/-- `items` values after one another; `f` is given the number of items seen and returns it. -/
def validateEach (f : Nat → Decoder Nat) : Nat → Nat → Decoder Nat
  | 0, items => return items
  | n + 1, items => do
    let items ← f items
    validateEach f n items

/-- The entries of a map, whose keys have to ascend. -/
def validateEntries (f : Nat → Decoder Nat) : Nat → Option UInt64 → Nat → Decoder Nat
  | 0, _, items => return items
  | n + 1, previousKey, items => do
    let items := items + 1
    Reader.failIf (items > maxCborItems) .inputTooLarge
    let key ← readUint
    Reader.failIf (previousKey.any fun previous => key ≤ previous) .malformedInput
    let items ← f items
    validateEntries f n (some key) items

/-- `levels` is how many more levels `MAX_APPLICATION_CBOR_DEPTH` leaves.
mirrors :908-978 -/
def validateUnknownValue : Nat → Nat → Decoder Nat
  | 0, _ => throw .inputTooLarge
  | levels + 1, items => do
    let items := items + 1
    Reader.failIf (items > maxCborItems) .inputTooLarge
    let first ← peek
    if first >>> 5 = 0 then
      let _ ← readUint
      return items
    else if first >>> 5 = 2 then
      let _ ← readBytes
      return items
    else if first >>> 5 = 3 then
      let _ ← readText applicationMaxIoBytes applicationMaxIoBytes false
      return items
    else if first >>> 5 = 4 then
      let length ← readArrayLen
      Reader.failIf (length > maxCborItems - items) .inputTooLarge
      validateEach (validateUnknownValue levels) length items
    else if first >>> 5 = 5 then
      let length ← readMapLen
      Reader.failIf (length > maxApplicationMapEntries) .inputTooLarge
      validateEntries (validateUnknownValue levels) length none items
    else if first = 0xf4 ∨ first = 0xf5 then
      let _ ← readBool
      return items
    else if first = 0xf6 then
      Cbor.Decode.null .malformedInput
      return items
    else throw .malformedInput

/-- mirrors :900-906 -/
def validateUnknownBody : Decoder Unit := do
  let first ← peek
  Reader.failIf (first >>> 5 != 5) .malformedInput
  let _ ← validateUnknownValue (maxApplicationCborDepth - 1) 0

def readBody (kind : UInt16) : Decoder EventBody :=
  if isSupportedKind kind then decodeCborBody kind
  else do
    validateUnknownBody
    return .unsupported

def readHead (version : UInt8) : Decoder EventHead := do
  readKey 1
  let eventId ← readExactBytes 16
  readKey 2
  let conversationId ← readExactBytes 32
  readKey 3
  let kind ← readU16
  readKey 4
  let senderUserId ← readExactBytes 16
  readKey 5
  let senderDeviceId ← readExactBytes 16
  readKey 6
  let senderCounter ← readUint
  Reader.failIf (senderCounter == 0) .malformedInput
  readKey 7
  let createdMs ← readUint
  readKey 8
  let referenceCount ← readArrayLen
  Reader.failIf (referenceCount > maxReferences) .inputTooLarge
  let references ← Reader.many (readExactBytes 16) referenceCount
  Reader.failIf (hasDuplicates references) .malformedInput
  return { version, eventId, conversationId, kind, senderUserId, senderDeviceId, senderCounter,
           createdMs, references }

/-- mirrors :818-894 -/
def decodeEvent (input : Bytes) : CryptoResult (Option ApplicationEvent × Option UInt8) := do
  failIf (input.isEmpty = true) .malformedInput
  failIf (input.length > applicationMaxIoBytes) .inputTooLarge
  parse (do
    let fieldCount ← readMapLen
    readKey 0
    let version ← readU8
    if version ≠ applicationVersion then return (none, some version)
    else
      Reader.failIf (fieldCount != 10) .malformedInput
      let head ← readHead version
      readKey 9
      let body ← readBody head.kind
      let finished ← isFinished
      Reader.failIf (!finished) .malformedInput
      return (some ⟨head, body⟩, none)) input

end Decode

/-! ## Projection frames -/

/-- mirrors :1248-1267 -/
def framedText (maximumBytes maximumScalars : Nat) (requireNonEmpty : Bool) : Reader Text := do
  let bytes ← framed
  Reader.failIf (bytes.length > maximumBytes) .inputTooLarge
  Reader.failIf (requireNonEmpty && bytes.isEmpty) .malformedInput
  let text ← okOr (Text.ofBytes? bytes) CryptoError.malformedInput
  Reader.failIf (text.chars.length > maximumScalars) .inputTooLarge
  return text

/-- A flag byte and, after a one, what `x` reads. -/
def optional {α : Type} (x : Reader α) : Reader (Option α) := do
  let flag ← u8
  if flag = 0 then return none
  else if flag = 1 then
    let a ← x
    return some a
  else throw .malformedInput

/-- mirrors :1228-1234 -/
def optionalId : Reader (Option Id) := optional (array 16)

/-- mirrors :1236-1246 -/
def optionalText (maximumBytes maximumScalars : Nat) : Reader (Option Text) :=
  optional (framedText maximumBytes maximumScalars true)

/-- The thumbnail, which an empty one stands for the absence of. -/
def optionalThumbnail : Reader (Option Bytes) := do
  let thumbnailLength ← u32
  Reader.failIf (thumbnailLength.toNat > 65536) .inputTooLarge
  if thumbnailLength.toNat = 0 then return none
  else
    let thumbnail ← take thumbnailLength.toNat
    return some thumbnail

/-- mirrors :1269-1313 -/
def decodeProjectionAttachment : Reader AttachmentDescriptor := do
  let capabilityId ← framedText capabilityIdLength capabilityIdLength true
  Reader.failIf (capabilityIdRefused capabilityId) .malformedInput
  let key ← array 32
  let header ← array 66
  let streamHeader ← array 24
  let encryptedSize ← u64
  let bucketSize ← u64
  let plaintextSize ← u64
  let displayName ← framedText 128 128 true
  let mimeType ← framedText 128 128 true
  let mediaKind ← u8
  Reader.failIf (mediaKind > 1) .malformedInput
  let width ← u32
  let height ← u32
  let caption ← optionalText maxTextBytes maxTextScalars
  let thumbnail ← optionalThumbnail
  return { capabilityId, key, header, streamHeader, encryptedSize, bucketSize, plaintextSize,
           displayName, mimeType, mediaKind, width, height, caption, thumbnail }

def projectedAttachments (contentType : UInt8) : Reader (List AttachmentDescriptor) :=
  if contentType = 0 then return []
  else counted (· > 32) .inputTooLarge decodeProjectionAttachment

def projectedMessageCreate : Reader MessageCreate := do
  let messageId ← array 16
  let contentType ← u8
  Reader.failIf (contentType > 2) .unsupportedOperation
  let text ← framedText maxTextBytes maxTextScalars (contentType == 0)
  let replyTo ← optionalId
  let quoteFallback ← optionalText maxQuoteBytes maxQuoteScalars
  let attachments ← projectedAttachments contentType
  Reader.failIf (contentType != 0 && attachments.isEmpty) .malformedInput
  return { messageId, contentType, text, replyTo, quoteFallback, attachments }

def projectedMessageEdit : Reader MessageEdit := do
  let target ← array 16
  let revision ← u32
  Reader.failIf (revision == 0) .malformedInput
  let replacement ← framedText maxTextBytes maxTextScalars true
  return { target, revision, replacement }

def projectedReactionSet : Reader ReactionSet := do
  let target ← array 16
  let emoji ← optionalText maxEmojiBytes maxEmojiBytes
  Reader.failIf (emojiRefused emoji) .malformedInput
  return { target, emoji }

def projectedPinSet : Reader PinSet := do
  let target ← array 16
  let pinned ← boolean
  return { target, pinned }

def projectedReceipt : Reader (List Id) := do
  let messageIds ← counted (fun count => count == 0 || count > maxReferences)
    .malformedInput (array 16)
  Reader.failIf (hasDuplicates messageIds) .malformedInput
  return messageIds

def projectedTypingSet : Reader TypingSet := do
  let isTyping ← boolean
  let expiresMs ← u64
  return { isTyping, expiresMs }

/-- mirrors :414-504 -/
def decodeProjectionBody : UInt16 → Reader EventBody := BodyReaders.ofKind {
  messageCreate := projectedMessageCreate
  messageEdit := projectedMessageEdit
  messageDelete := array 16
  reactionSet := projectedReactionSet
  pinSet := projectedPinSet
  receipt := projectedReceipt
  typingSet := projectedTypingSet }

def projectedHead : Reader EventHead := do
  let version ← u8
  Reader.failIf (version != applicationVersion) .unsupportedVersion
  let eventId ← array 16
  let conversationId ← array 32
  let kind ← u16
  let senderUserId ← array 16
  let senderDeviceId ← array 16
  let senderCounter ← u64
  let createdMs ← u64
  Reader.failIf (senderCounter == 0) .malformedInput
  let references ← counted (· > maxReferences) .inputTooLarge (array 16)
  Reader.failIf (hasDuplicates references) .malformedInput
  return { version, eventId, conversationId, kind, senderUserId, senderDeviceId, senderCounter,
           createdMs, references }

/-- mirrors :363-412 -/
def decodeProjectionRequest (input : Bytes) : CryptoResult ApplicationEvent :=
  parse (do
    let magic ← take encodeRequestMagic.length
    Reader.failIf (magic != encodeRequestMagic) .malformedInput
    let head ← projectedHead
    let body ← decodeProjectionBody head.kind
    let finished ← isFinished
    Reader.failIf (!finished) .malformedInput
    return ⟨head, body⟩) input

/-- mirrors :1341-1349 -/
def pushOptionalId : Option Id → Bytes
  | some value => [1] ++ value.bytes
  | none => [0]

/-- mirrors :1351-1359 -/
def pushOptionalText : Option Text → CryptoResult Bytes
  | some value => do
    let frame ← pushFrame value.bytes
    return [1] ++ frame
  | none => return [0]

/-- mirrors :1315-1339 -/
def pushProjectionAttachment (attachment : AttachmentDescriptor) : CryptoResult Bytes := do
  let capabilityId ← pushFrame attachment.capabilityId.bytes
  let displayName ← pushFrame attachment.displayName.bytes
  let mimeType ← pushFrame attachment.mimeType.bytes
  let caption ← pushOptionalText attachment.caption
  let thumbnail := attachment.thumbnail.getD []
  let thumbnailLength ← tryU32 thumbnail.length .inputTooLarge
  return List.flatten [
    capabilityId, attachment.key.bytes, attachment.header.bytes, attachment.streamHeader.bytes,
    pushU64 attachment.encryptedSize, pushU64 attachment.bucketSize,
    pushU64 attachment.plaintextSize, displayName, mimeType, [attachment.mediaKind],
    pushU32 attachment.width, pushU32 attachment.height, caption,
    pushU32 thumbnailLength ++ thumbnail]

def pushIds (ids : List Id) : CryptoResult Bytes := do
  let count ← tryU8 ids.length .inputTooLarge
  return [count] ++ ids.flatMap Block.bytes

def pushAttachments (attachments : List AttachmentDescriptor) : CryptoResult Bytes :=
  if attachments.isEmpty then return []
  else do
    let count ← tryU8 attachments.length .inputTooLarge
    let frames ← attachments.mapM pushProjectionAttachment
    return [count] ++ frames.flatten

def pushBody : EventBody → CryptoResult Bytes
  | .messageCreate m => do
    let text ← pushFrame m.text.bytes
    let quoteFallback ← pushOptionalText m.quoteFallback
    let attachments ← pushAttachments m.attachments
    return List.flatten [m.messageId.bytes, [m.contentType], text, pushOptionalId m.replyTo,
      quoteFallback, attachments]
  | .messageEdit m => do
    let replacement ← pushFrame m.replacement.bytes
    return List.flatten [m.target.bytes, pushU32 m.revision, replacement]
  | .messageDelete target => return target.bytes
  | .reactionSet r => do
    let emoji ← pushOptionalText r.emoji
    return List.flatten [r.target.bytes, emoji]
  | .pinSet p => return List.flatten [p.target.bytes, [if p.pinned then 1 else 0]]
  | .receipt messageIds => pushIds messageIds
  | .typingSet t => return List.flatten [[if t.isTyping then 1 else 0], pushU64 t.expiresMs]
  | .unsupported => return []

/-- Appends the projection to `output`.
mirrors :1115-1187 -/
def encodeProjection (event : ApplicationEvent) (output : Bytes) : CryptoResult Bytes := do
  let references ← pushIds event.references
  let body ← pushBody event.body
  let output := output ++ (List.flatten [[event.version], event.eventId.bytes,
    event.conversationId.bytes, pushU16 event.kind, event.senderUserId.bytes,
    event.senderDeviceId.bytes, pushU64 event.senderCounter, pushU64 event.createdMs,
    references] ++ body)
  failIf (output.length > applicationMaxIoBytes) .inputTooLarge
  return output

/-! ## Operations -/

/-- mirrors :279-287 -/
def encodeOperation (input : Bytes) : CryptoResult Bytes := do
  let event ← decodeProjectionRequest input
  let encoded ← encodeEvent event
  reserve (encodeResponseMagic.length + encoded.length)
  return encodeResponseMagic ++ encoded

/-- mirrors :289-302 -/
def decodeOperation (input : Bytes) : CryptoResult Bytes := do
  let (event, unsupportedVersion) ← decodeEvent input
  match unsupportedVersion with
  | some version => return decodeResponseMagic ++ [2] ++ [version]
  | none =>
    let event ← okOr event CryptoError.internalFailure
    encodeProjection event (decodeResponseMagic ++ [if event.body = .unsupported then 1 else 0])

/-- The other operations of `application.rs`, which neither encode nor decode an event, and the
number that selects them. -/
abbrev OtherOperations := Nat → Bytes → CryptoResult Bytes

/-- mirrors :125-141 -/
def operation (others : OtherOperations) (op : Nat) (input : Bytes) : CryptoResult Bytes := do
  failIf (input.length > applicationMaxIoBytes) .inputTooLarge
  match op with
  | 1 => encodeOperation input
  | 2 => decodeOperation input
  | _ => if 3 ≤ op ∧ op ≤ 9 then others op input else .error .unsupportedOperation

end CommPlatform.Application
