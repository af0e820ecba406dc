import CommPlatform.L2Crypto.Provider

/-!
# Attachment streams

`attachment.rs`: sessions that cut a file into secretstream messages and
put it together again. A push session announces the size of the plaintext
and from it the size of the stream; a pull session checks what it opens
against the sizes in the header. The sessions live in one table under
random handles, and a call that fails may have changed its session: the
operations return the table besides their result.

The secretstream of libsodium and SHA-256 are parameters (`Primitives`).
The `u64` counters of a session are `Nat`: an addition that overflows
panics in this crate (`overflow-checks`), so it lets no call through.

Bare line numbers are those of `attachment.rs`.
-/
namespace CommPlatform.Attachment

open CommPlatform.Core L1 L2
open L1.Reader hiding failIf

def attachmentMaxIoBytes : Nat := 262144
def attachmentChunkBytes : Nat := 65536
def attachmentHeaderBytes : Nat := 66
def attachmentBuckets : List Nat := [65536, 262144, 1048576, 4194304, 16777216, 67108864]
def secretstreamHeaderBytes : Nat := 24
def secretstreamAbytes : Nat := 17

def requestCreate : Bytes := ascii "CPARQ001"
def requestPush : Bytes := ascii "CPAPR001"
def requestPull : Bytes := ascii "CPAPD001"
def requestChunk : Bytes := ascii "CPAPC001"
def requestClose : Bytes := ascii "CPAPX001"
def requestRandom : Bytes := ascii "CPAPN001"

def responseCreate : Bytes := ascii "CPARE001"
def responseChunk : Bytes := ascii "CPARO001"
def responseClose : Bytes := ascii "CPARX001"
def responseRandom : Bytes := ascii "CPARN001"

def headerMagic : Bytes := ascii "CPAFV001"
def formatVersion : UInt8 := 1

/-! ## Primitives -/

/-- The secretstream of libsodium behind `provider.rs:500-655`, and SHA-256. A push state is made
from the key and the stream header that libsodium draws. A message that does not open leaves the
pull state as it was. -/
structure Primitives where
  PushState : Type
  PullState : Type
  pushInit : Key → Block 24 → CryptoResult PushState
  push : PushState → (plaintext associatedData : Bytes) → (finalMessage : Bool) →
    CryptoResult (Bytes × PushState)
  pullInit : Key → Block 24 → CryptoResult PullState
  pull : PullState → (ciphertext associatedData : Bytes) →
    CryptoResult (Bytes × Bool × PullState)
  sha256 : Bytes → Block 32

/-- What the code relies on: a message is 17 bytes longer than its plaintext, and a pull state made
from the same key and header opens, in order, what was pushed. -/
structure Primitives.Lawful (S : Primitives) where
  Paired : S.PushState → S.PullState → Prop
  length_push : ∀ {s m ad f c s'}, S.push s m ad f = .ok (c, s') →
    c.length = m.length + secretstreamAbytes
  init : ∀ {key header s}, S.pushInit key header = .ok s →
    ∃ r, S.pullInit key header = .ok r ∧ Paired s r
  opens : ∀ {s r m ad f c s'}, Paired s r → S.push s m ad f = .ok (c, s') →
    ∃ r', S.pull r c ad = .ok (m, f, r') ∧ Paired s' r'

/-! ## Headers -/

/-- mirrors :47-52 -/
structure AttachmentHeader where
  bytes : Block 66
  plaintextSize : UInt64
  streamSize : UInt64

/-- The result of a checked `u64` operation. -/
def checkedU64 (value : Nat) : CryptoResult UInt64 :=
  if value < 2 ^ 64 then .ok (UInt64.ofNat value) else .error .inputTooLarge

/-- The number of messages `encrypted_stream_size` reckons with. -/
def chunkCount (plaintextSize : UInt64) (chunkSize : UInt32) : CryptoResult Nat :=
  if plaintextSize = 0 then .ok 1
  else do
    let padded ← checkedU64 (plaintextSize.toNat + (chunkSize.toNat - 1))
    return padded.toNat / chunkSize.toNat

/-- mirrors :323-337 -/
def encryptedStreamSize (plaintextSize : UInt64) (chunkSize : UInt32) : CryptoResult UInt64 := do
  let count ← chunkCount plaintextSize chunkSize
  let tags ← checkedU64 (count * secretstreamAbytes)
  checkedU64 (tags.toNat + plaintextSize.toNat)

/-- mirrors :339-350 -/
def bucketForStream (streamSize : UInt64) : CryptoResult UInt64 := do
  let required ← checkedU64 (streamSize.toNat + (attachmentHeaderBytes + secretstreamHeaderBytes))
  let bucket ← okOr (attachmentBuckets.find? (· ≥ required.toNat)) CryptoError.inputTooLarge
  return UInt64.ofNat bucket

def headerBytes (chunkSize : UInt32) (plaintextSize streamSize : UInt64) (bucketSize : UInt32)
    (metadataHash : Block 32) : Bytes := List.flatten [
  headerMagic, [formatVersion], [0], pushU32 chunkSize, pushU64 plaintextSize, pushU64 streamSize,
  pushU32 bucketSize, metadataHash.bytes]

theorem length_headerBytes (chunkSize : UInt32) (plaintextSize streamSize : UInt64)
    (bucketSize : UInt32) (metadataHash : Block 32) :
    (headerBytes chunkSize plaintextSize streamSize bucketSize metadataHash).length = 66 := by
  have hmagic : headerMagic.length = 8 := rfl
  simp [headerBytes, hmagic]

/-- mirrors :352-386 -/
def makeHeader (plaintextSize streamSize bucketSize : UInt64) (chunkSize : UInt32)
    (metadataHash : Block 32) : CryptoResult AttachmentHeader := do
  failIf (streamSize.toNat + (attachmentHeaderBytes + secretstreamHeaderBytes) ≥ 2 ^ 64 ∨
    streamSize.toNat + (attachmentHeaderBytes + secretstreamHeaderBytes) > bucketSize.toNat)
    .inputTooLarge
  let bucket ← tryU32 bucketSize.toNat .inputTooLarge
  return {
    bytes := ⟨headerBytes chunkSize plaintextSize streamSize bucket metadataHash,
      length_headerBytes _ _ _ _ _⟩
    plaintextSize
    streamSize }

/-- mirrors :389-401; the slices follow one another, so
they are read from front to back -/
def headerReader : Reader (UInt32 × UInt64 × UInt64 × UInt32 × Block 32) := do
  let magic ← take 8
  let version ← u8
  let reserved ← u8
  Reader.failIf (magic ≠ headerMagic ∨ version ≠ formatVersion ∨ reserved ≠ 0) .unsupportedVersion
  let chunkSize ← u32
  let plaintextSize ← u64
  let streamSize ← u64
  let bucketSize ← u32
  let metadataHash ← array 32
  return (chunkSize, plaintextSize, streamSize, bucketSize, metadataHash)

/-- mirrors :388-409 -/
def parseHeader (bytes : Block 66) : CryptoResult AttachmentHeader := do
  let (chunkSize, plaintextSize, streamSize, bucketSize, metadataHash) ←
    parse headerReader bytes.bytes
  failIf (chunkSize.toNat ≠ attachmentChunkBytes) .malformedInput
  let bucket ← bucketForStream streamSize
  failIf (bucket ≠ bucketSize.toUInt64) .malformedInput
  let expected ← encryptedStreamSize plaintextSize chunkSize
  failIf (expected ≠ streamSize) .malformedInput
  makeHeader plaintextSize streamSize bucketSize.toUInt64 chunkSize metadataHash

/-! ## Sessions -/

variable (S : Primitives)

structure PushSession where
  stream : S.PushState
  header : AttachmentHeader
  plaintextSeen : Nat
  streamSeen : Nat
  finalSeen : Bool

structure PullSession where
  stream : S.PullState
  header : AttachmentHeader
  plaintextSeen : Nat
  streamSeen : Nat
  finalSeen : Bool

/-- mirrors :54-69 -/
inductive Session
  | push (s : PushSession S)
  | pull (s : PullSession S)

variable {S}

def Session.finalSeen : Session S → Bool
  | .push s | .pull s => s.finalSeen

/-- mirrors :160-180 -/
def PushSession.push (s : PushSession S) (finalMessage : Bool) (plaintext : Bytes) :
    CryptoResult Bytes × PushSession S :=
  let seen := s.plaintextSeen + plaintext.length
  let size := s.header.plaintextSize.toNat
  if s.finalSeen = true ∨ seen > size then (.error .stateViolation, s)
  else if finalMessage = false ∧ seen ≥ size then (.error .stateViolation, s)
  else if finalMessage = true ∧ seen ≠ size then (.error .stateViolation, s)
  else
    match S.push s.stream plaintext s.header.bytes.bytes finalMessage with
    | .error e => (.error e, s)
    | .ok (encrypted, stream) =>
      let streamSeen := s.streamSeen + encrypted.length
      -- the counters are already moved when the stream turns out to be too long
      let counted := { s with stream, plaintextSeen := seen, streamSeen }
      if streamSeen > s.header.streamSize.toNat then (.error .stateViolation, counted)
      else (.ok encrypted, { counted with finalSeen := finalMessage })

/-- mirrors :241-257 -/
def PullSession.pull (s : PullSession S) (ciphertext : Bytes) :
    CryptoResult (Bytes × Bool) × PullSession S :=
  if s.finalSeen = true ∨ ciphertext.length > attachmentChunkBytes + secretstreamAbytes then
    (.error .stateViolation, s)
  else
    match S.pull s.stream ciphertext s.header.bytes.bytes with
    | .error e => (.error e, s)
    | .ok (plaintext, finalMessage, stream) =>
      let streamSeen := s.streamSeen + ciphertext.length
      let plaintextSeen := s.plaintextSeen + plaintext.length
      if streamSeen > s.header.streamSize.toNat ∨ plaintextSeen > s.header.plaintextSize.toNat then
        (.error .stateViolation, { s with stream })
      else
        -- the counters are already moved when a final message turns out to come too early
        let counted := { s with stream, plaintextSeen, streamSeen }
        if finalMessage = true ∧ (streamSeen ≠ s.header.streamSize.toNat ∨
            plaintextSeen ≠ s.header.plaintextSize.toNat) then (.error .stateViolation, counted)
        else (.ok (plaintext, finalMessage), { counted with finalSeen := finalMessage })

/-! ## Requests -/

/-- mirrors protocol.rs:36-42 -/
def expect (expected : Bytes) : Reader Unit := do
  let value ← take expected.length
  Reader.failIf (value ≠ expected) .malformedInput

/-- `reader.take(reader.remaining())` -/
def remaining : Reader Bytes := fun r => .ok (r, [])

/-- `reader.framed()?` with the bound on metadata. -/
def framedMetadata : Reader Bytes := do
  let metadata ← framed
  Reader.failIf (metadata.length > 4096) .inputTooLarge
  return metadata

structure CreateRequest where
  plaintextSize : UInt64
  chunkSize : UInt32
  bucketSize : UInt64
  metadata : Bytes

/-- mirrors :93-104 -/
def parseCreate (input : Bytes) : CryptoResult CreateRequest :=
  parse (do
    expect requestCreate
    let plaintextSize ← u64
    let chunkSize ← u32
    let bucketSize ← u64
    let metadata ← framedMetadata
    let finished ← isFinished
    Reader.failIf (!finished || chunkSize.toNat != attachmentChunkBytes) .malformedInput
    return { plaintextSize, chunkSize, bucketSize, metadata }) input

structure PushRequest where
  handle : UInt64
  finalMessage : Bool
  plaintext : Bytes

/-- mirrors :138-145 -/
def parsePush (input : Bytes) : CryptoResult PushRequest :=
  parse (do
    expect requestPush
    let handle ← u64
    let finalMessage ← u8
    let plaintext ← remaining
    Reader.failIf (plaintext.length > attachmentChunkBytes) .inputTooLarge
    return { handle, finalMessage := finalMessage != 0, plaintext }) input

structure PullRequest where
  key : Key
  header : Block 66
  streamHeader : Block 24
  metadata : Bytes

/-- mirrors :189-200 -/
def parsePull (input : Bytes) : CryptoResult PullRequest :=
  parse (do
    expect requestPull
    let key ← array 32
    let header ← array 66
    let streamHeader ← array 24
    let metadata ← framedMetadata
    let finished ← isFinished
    Reader.failIf (!finished) .malformedInput
    return { key, header, streamHeader, metadata }) input

structure ChunkRequest where
  handle : UInt64
  ciphertext : Bytes

/-- mirrors :220-226 -/
def parseChunk (input : Bytes) : CryptoResult ChunkRequest :=
  parse (do
    expect requestChunk
    let handle ← u64
    let ciphertext ← remaining
    Reader.failIf (ciphertext.length < secretstreamAbytes) .malformedInput
    return { handle, ciphertext }) input

structure CloseRequest where
  handle : UInt64
  abort : Bool

/-- mirrors :266-272 -/
def parseClose (input : Bytes) : CryptoResult CloseRequest :=
  parse (do
    expect requestClose
    let handle ← u64
    let abort ← u8
    let finished ← isFinished
    Reader.failIf (!finished) .malformedInput
    return { handle, abort := abort != 0 }) input

/-! ## The table of sessions -/

variable (S) in
abbrev Sessions := List (UInt64 × Session S)

namespace Sessions

def get (table : Sessions S) (handle : UInt64) : Option (Session S) := table.lookup handle

/-- The session behind `locked.get_mut(&handle)` after it was changed. -/
def set (table : Sessions S) (handle : UInt64) (s : Session S) : Sessions S :=
  table.map fun entry => if entry.1 = handle then (handle, s) else entry

def remove (table : Sessions S) (handle : UInt64) : Sessions S :=
  table.filter fun entry => entry.1 ≠ handle

/-- mirrors :303-321 -/
def allocateHandle (table : Sessions S) (handleBytes : Block 8) (s : Session S) :
    CryptoResult (UInt64 × Sessions S) := do
  let drawn := UInt64.ofNat (ofBe handleBytes.bytes)
  let handle := if drawn = 0 then 1 else drawn
  failIf (table.length ≥ 64) .resourceExhausted
  failIf ((table.get handle).isSome = true) .resourceExhausted
  return (handle, (handle, s) :: table)

end Sessions

/-! ## Operations -/

/-- An operation that changes the table only when it succeeds. -/
def orUnchanged (table : Sessions S) (result : CryptoResult (Bytes × Sessions S)) :
    CryptoResult Bytes × Sessions S :=
  match result with
  | .ok (output, table') => (.ok output, table')
  | .error e => (.error e, table)

/-- mirrors :92-135 -/
def createPush (input entropy : Bytes) (table : Sessions S) :
    CryptoResult Bytes × Sessions S :=
  orUnchanged table do
    let request ← parseCreate input
    let metadataHash := S.sha256 request.metadata
    let streamSize ← encryptedStreamSize request.plaintextSize request.chunkSize
    let bucket ← bucketForStream streamSize
    failIf (request.bucketSize ≠ bucket) .malformedInput
    let header ← makeHeader request.plaintextSize streamSize request.bucketSize request.chunkSize
      metadataHash
    let (key, entropy) ← randomArray 32 entropy
    let (streamHeader, entropy) ← randomArray 24 entropy
    let stream ← S.pushInit key streamHeader
    let (handleBytes, _) ← randomArray 8 entropy
    let (handle, table') ← table.allocateHandle handleBytes
      (.push { stream, header, plaintextSeen := 0, streamSeen := 0, finalSeen := false })
    return (List.flatten [responseCreate, pushU64 handle, key.bytes, header.bytes.bytes,
      streamHeader.bytes, pushU64 streamSize], table')

/-- mirrors :137-186 -/
def pushChunk (input : Bytes) (table : Sessions S) : CryptoResult Bytes × Sessions S :=
  match parsePush input with
  | .error e => (.error e, table)
  | .ok request =>
    match table.get request.handle with
    | none => (.error .invalidHandle, table)
    | some (.pull _) => (.error .wrongHandleType, table)
    | some (.push s) =>
      let (result, s') := s.push request.finalMessage request.plaintext
      (result.map (responseChunk ++ [0] ++ ·), table.set request.handle (.push s'))

/-- mirrors :188-217 -/
def createPull (input entropy : Bytes) (table : Sessions S) :
    CryptoResult Bytes × Sessions S :=
  orUnchanged table do
    let request ← parsePull input
    let header ← parseHeader request.header
    failIf (S.sha256 request.metadata ≠ header.bytes.slice 34 32) .authenticationFailed
    let stream ← S.pullInit request.key request.streamHeader
    let (handleBytes, _) ← randomArray 8 entropy
    let (handle, table') ← table.allocateHandle handleBytes
      (.pull { stream, header, plaintextSeen := 0, streamSeen := 0, finalSeen := false })
    return (responseCreate ++ pushU64 handle, table')

/-- mirrors :219-263 -/
def pullChunk (input : Bytes) (table : Sessions S) : CryptoResult Bytes × Sessions S :=
  match parseChunk input with
  | .error e => (.error e, table)
  | .ok request =>
    match table.get request.handle with
    | none => (.error .invalidHandle, table)
    | some (.push _) => (.error .wrongHandleType, table)
    | some (.pull s) =>
      let (result, s') := s.pull request.ciphertext
      (result.map fun (plaintext, finalMessage) =>
        responseChunk ++ [if finalMessage then 1 else 0] ++ plaintext,
        table.set request.handle (.pull s'))

/-- mirrors :265-285 -/
def closeSession (input : Bytes) (table : Sessions S) : CryptoResult Bytes × Sessions S :=
  orUnchanged table do
    let request ← parseClose input
    let session ← okOr (table.get request.handle) CryptoError.invalidHandle
    failIf (request.abort = false ∧ session.finalSeen = false) .stateViolation
    return (responseClose, table.remove request.handle)

/-- mirrors :287-301 -/
def randomBytes (input entropy : Bytes) : CryptoResult Bytes := do
  let length ← parse (do
    expect requestRandom
    let length ← u32
    let finished ← isFinished
    Reader.failIf (!finished || length.toNat > attachmentChunkBytes) .inputTooLarge
    return length) input
  let (bytes, _) ← L2.randomBytes length.toNat entropy
  return responseRandom ++ bytes

/-- mirrors :77-90 -/
def operation (op : UInt32) (input entropy : Bytes) (table : Sessions S) :
    CryptoResult Bytes × Sessions S :=
  if input.length > attachmentMaxIoBytes then (.error .inputTooLarge, table)
  else if op = 1 then createPush input entropy table
  else if op = 2 then pushChunk input table
  else if op = 3 then createPull input entropy table
  else if op = 4 then pullChunk input table
  else if op = 5 then closeSession input table
  else if op = 6 then (randomBytes input entropy, table)
  else (.error .unsupportedOperation, table)

end CommPlatform.Attachment
