import CommPlatform.L3Protocol.AttachmentRuns

/-!
# From a push session to a pull session

The size of a stream is reckoned for full chunks, while a file may be cut in
any way. A message is at most a full chunk and costs 17 bytes, so a stream
that holds the whole plaintext and is not too long has exactly the number of
messages that was reckoned with (`PushInv.complete`). Its messages, handed
to a pull session made from the response of the creation, are opened one
after the other (`feed_complete`).

A pull session counts a final message before it refuses it for coming too
early. Two final messages in a row are enough to take a file for complete
whose first chunk was never returned (`refused_chunk_counted`). In runs
without an early final message a complete pull session returned what its
header announces (`attachment_streams`).
-/
namespace CommPlatform.Attachment

open CommPlatform.Core L1 L2
open L1.Reader hiding failIf

variable {S : Primitives}

/-! ## The size of a complete stream -/

theorem checkedU64_eq_ok {value : Nat} {n : UInt64} (h : checkedU64 value = .ok n) :
    n.toNat = value := by
  unfold checkedU64 at h
  split at h
  · next hlt =>
    cases h
    exact UInt64.toNat_ofNat_of_lt' hlt
  · cases h

/-- The announced size: the plaintext, and a tag for each full chunk and for the rest. -/
theorem encryptedStreamSize_eq_ok {plaintextSize streamSize : UInt64}
    (h : encryptedStreamSize plaintextSize 65536 = .ok streamSize) :
    ∃ count, streamSize.toNat = plaintextSize.toNat + 17 * count ∧
      (plaintextSize.toNat = 0 → count = 1) ∧
      (0 < plaintextSize.toNat → count = (plaintextSize.toNat + 65535) / 65536) := by
  obtain ⟨count, hcount, h⟩ := bind_eq_ok.mp h
  obtain ⟨tags, htags, h⟩ := bind_eq_ok.mp h
  have htotal := checkedU64_eq_ok h
  have htags := checkedU64_eq_ok htags
  refine ⟨count, ?_, ?_⟩
  · rw [htotal, htags, secretstreamAbytes]
    omega
  unfold chunkCount at hcount
  split at hcount
  · next hzero =>
    cases hcount
    rw [hzero]
    exact ⟨fun _ => rfl, fun h => absurd h (by decide)⟩
  · next hpos =>
    obtain ⟨padded, hpadded, hcount⟩ := bind_eq_ok.mp hcount
    cases hcount
    refine ⟨fun hzero => absurd (UInt64.toNat_inj.mp hzero) hpos, fun _ => ?_⟩
    rw [checkedU64_eq_ok hpadded]
    rfl

variable {chunks : List Chunk}

theorem Pushed.ciphertextBytes_eq (L : S.Lawful) {header : Bytes} {start s : S.PushState}
    (h : Pushed S header start chunks s) :
    ciphertextBytes chunks = plaintextBytes chunks + 17 * chunks.length := by
  induction h with
  | nil => rfl
  | snoc _ hpush ih =>
    have hlength := L.length_push hpush
    simp only [ciphertextBytes_snoc, plaintextBytes_snoc, List.length_append, List.length_singleton,
      ih, hlength, secretstreamAbytes]
    omega

theorem plaintextBytes_le (h : ∀ c ∈ chunks, c.plaintext.length ≤ attachmentChunkBytes) :
    plaintextBytes chunks ≤ 65536 * chunks.length := by
  induction chunks with
  | nil => exact Nat.zero_le _
  | cons c chunks ih =>
    have hc := h c List.mem_cons_self
    have hrest := ih fun d hd => h d (List.mem_cons_of_mem _ hd)
    simp only [plaintextBytes, List.map_cons, List.sum_cons, List.length_cons,
      attachmentChunkBytes] at hc hrest ⊢
    omega

variable {log : Log}

theorem PushInv.complete (L : S.Lawful) {s : PushSession S} (h : PushInv s log)
    (hfinal : s.finalSeen = true) :
    s.plaintextSeen = s.header.plaintextSize.toNat ∧
      plaintextBytes log.chunks = s.header.plaintextSize.toNat ∧
      ciphertextBytes log.chunks = s.header.streamSize.toNat := by
  obtain ⟨start, horigin, hemitted⟩ := h.emitted
  obtain ⟨hle, hplain⟩ := h.final hfinal
  have hlog := hemitted hle
  obtain ⟨front, last, hchunks, -, -⟩ := hlog.final hfinal
  have hpos : 0 < log.chunks.length := by simp [hchunks]
  have hsum := hlog.pushed.ciphertextBytes_eq L
  have hfull := plaintextBytes_le hlog.chunk_le
  have hseen := hlog.plaintext
  have hstream := hlog.ciphertext
  obtain ⟨count, hsize, hzero, hcount⟩ := encryptedStreamSize_eq_ok horigin.sized
  -- not fewer than needed for the plaintext, and not more than the announced size allows
  exact ⟨hplain, by omega, by omega⟩

/-! ## The header -/

theorem parse_headerBytes (chunkSize : UInt32) (plaintextSize streamSize : UInt64)
    (bucketSize : UInt32) (metadataHash : Block 32) :
    parse headerReader (headerBytes chunkSize plaintextSize streamSize bucketSize metadataHash) =
      .ok (chunkSize, plaintextSize, streamSize, bucketSize, metadataHash) := by
  refine parse_eq_ok.mpr ⟨[], ?_⟩
  unfold headerReader headerBytes
  simp only [List.flatten_cons, List.flatten_nil]
  rw [run_bind_of ((take_exact 8).run (a := headerMagic) rfl _),
    run_bind_of (u8_exact.run trivial _),
    run_bind_of (u8_exact.run trivial _),
    run_bind_of (failIf_run_of (by decide)),
    run_bind_of (u32_exact.run trivial _),
    run_bind_of (u64_exact.run trivial _),
    run_bind_of (u64_exact.run trivial _),
    run_bind_of (u32_exact.run trivial _),
    run_bind_of ((array_exact 32).run trivial _)]
  rfl

variable {header : AttachmentHeader} {plaintextSize streamSize bucketSize : UInt64}
  {hash : Block 32}

theorem parseHeader_made (hsize : encryptedStreamSize plaintextSize 65536 = .ok streamSize)
    (hbucket : bucketForStream streamSize = .ok bucketSize)
    (h : makeHeader plaintextSize streamSize bucketSize 65536 hash = .ok header) :
    parseHeader header.bytes = .ok header := by
  obtain ⟨-, -, bucket, hnat, hbytes⟩ := makeHeader_eq_ok h
  have hsame : bucketSize = bucket.toUInt64 := by
    rw [← UInt64.toNat_inj, hnat, UInt32.toNat_toUInt64]
  have hparse := parse_headerBytes 65536 plaintextSize streamSize bucket hash
  rw [← hbytes] at hparse
  refine bind_eq_ok.mpr ⟨_, hparse, ?_⟩
  dsimp only
  rw [failIf_neg (by decide), ok_bind, hbucket, ok_bind, failIf_neg (by simpa using hsame), ok_bind,
    hsize, ok_bind, failIf_neg (by simp), ok_bind, ← hsame, h]

theorem slice_made (h : makeHeader plaintextSize streamSize bucketSize 65536 hash = .ok header) :
    header.bytes.slice 34 32 = hash := by
  obtain ⟨-, -, bucket, -, hbytes⟩ := makeHeader_eq_ok h
  ext1
  rw [Block.bytes_slice, hbytes]
  have hfront : (List.flatten [headerMagic, [formatVersion], [0], pushU32 65536,
      pushU64 plaintextSize, pushU64 streamSize, pushU32 bucket]).length = 34 := by
    have hmagic : headerMagic.length = 8 := rfl
    simp [hmagic]
  have hsplit : headerBytes 65536 plaintextSize streamSize bucket hash =
      List.flatten [headerMagic, [formatVersion], [0], pushU32 65536,
        pushU64 plaintextSize, pushU64 streamSize, pushU32 bucket] ++ hash.bytes := by
    simp [headerBytes]
  rw [hsplit, ← hfront, List.drop_left, List.take_of_length_le hash.length_bytes.le]

/-! ## Requests to the pull side -/

def pullInput (key : Key) (header : Block 66) (streamHeader : Block 24) (metadata : Bytes) : Bytes :=
  List.flatten [requestPull, key.bytes, header.bytes, streamHeader.bytes,
    be 4 metadata.length ++ metadata]

def chunkInput (handle : UInt64) (ciphertext : Bytes) : Bytes :=
  List.flatten [requestChunk, pushU64 handle, ciphertext]

theorem expect_run (expected rest : Bytes) :
    (expect expected).run (expected ++ rest) = .ok ((), rest) := by
  unfold expect
  rw [run_bind_of ((take_exact _).run rfl rest)]
  exact failIf_run_of (by simp)

variable {metadata : Bytes}

theorem parsePull_pullInput (key : Key) (header : Block 66) (streamHeader : Block 24)
    (hle : metadata.length ≤ 4096) :
    parsePull (pullInput key header streamHeader metadata) =
      .ok ⟨key, header, streamHeader, metadata⟩ := by
  refine parse_eq_ok.mpr ⟨[], ?_⟩
  unfold pullInput framedMetadata
  simp only [List.flatten_cons, List.flatten_nil]
  have hmax : metadata.length ≤ maxInputBytes := hle.trans (by decide)
  rw [run_bind_of (expect_run _ _),
    run_bind_of ((array_exact 32).run trivial _),
    run_bind_of ((array_exact 66).run trivial _),
    run_bind_of ((array_exact 24).run trivial _)]
  refine run_bind_eq_ok.mpr ⟨metadata, [], ?_, rfl⟩
  rw [run_bind_of (framed_exact.run hmax _), run_bind_of (failIf_run_of (by simpa using hle))]
  rfl

theorem parseChunk_chunkInput (handle : UInt64) {ciphertext : Bytes}
    (hle : secretstreamAbytes ≤ ciphertext.length) :
    parseChunk (chunkInput handle ciphertext) = .ok ⟨handle, ciphertext⟩ := by
  refine parse_eq_ok.mpr ⟨[], ?_⟩
  unfold chunkInput
  simp only [List.flatten_cons, List.flatten_nil, List.append_nil]
  rw [run_bind_of (expect_run _ _), run_bind_of (u64_exact.run trivial _)]
  refine run_bind_eq_ok.mpr ⟨ciphertext, [], rfl, ?_⟩
  rw [run_bind_of (failIf_run_of (by simpa using hle))]
  rfl

def drawnHandle (handleBytes : Block 8) : UInt64 :=
  if UInt64.ofNat (ofBe handleBytes.bytes) = 0 then 1 else UInt64.ofNat (ofBe handleBytes.bytes)

/-- There is room in the table, and the handle that is drawn next is not taken. -/
def Sessions.Room (table : Sessions S) (entropy : Bytes) : Prop :=
  table.length < 64 ∧ ∃ handleBytes rest, randomArray 8 entropy = .ok (handleBytes, rest) ∧
    table.get (drawnHandle handleBytes) = none

variable {handleBytes : Block 8}

theorem Sessions.allocateHandle_room {table : Sessions S}
    (hlength : table.length < 64) (hfree : table.get (drawnHandle handleBytes) = none)
    (s : Session S) : table.allocateHandle handleBytes s =
      .ok (drawnHandle handleBytes, (drawnHandle handleBytes, s) :: table) := by
  change (do
    failIf (table.length ≥ 64) CryptoError.resourceExhausted
    failIf ((table.get (drawnHandle handleBytes)).isSome = true) CryptoError.resourceExhausted
    return (drawnHandle handleBytes, (drawnHandle handleBytes, s) :: table)) = _
  rw [failIf_neg (by omega), hfree, failIf_neg (by simp), ok_bind]
  rfl

variable {start : S.PushState} {streamHeader : Block 24} {r : S.PullState}

theorem createPull_pullInput (horigin : Origin S header log start) {key : Key}
    (hinit : S.pullInit key streamHeader = .ok r) (entropy : Bytes) (table : Sessions S) :
    createPull (pullInput key header.bytes streamHeader log.metadata) entropy table =
      orUnchanged table do
        let (handleBytes, _) ← randomArray 8 entropy
        let (handle, table') ← table.allocateHandle handleBytes (.pull ⟨r, header, 0, 0, false⟩)
        return (responseCreate ++ pushU64 handle, table') := by
  obtain ⟨bucketSize, hbucket, hmade⟩ := horigin.made
  unfold createPull
  rw [parsePull_pullInput key header.bytes streamHeader horigin.metadata_le, ok_bind,
    parseHeader_made horigin.sized hbucket hmade, ok_bind, slice_made hmade,
    failIf_neg (by simp), ok_bind, hinit, ok_bind]

theorem length_pullInput (key : Key) (header : Block 66) (streamHeader : Block 24)
    (hle : metadata.length ≤ 4096) :
    (pullInput key header streamHeader metadata).length ≤ attachmentMaxIoBytes := by
  have hmagic : requestPull.length = 8 := rfl
  simp only [pullInput, List.flatten_cons, List.flatten_nil, List.length_append, hmagic,
    Block.length_bytes, length_be, List.length_nil, attachmentMaxIoBytes]
  omega

variable {w : World S}

theorem call_three {input entropy : Bytes} (hle : input.length ≤ attachmentMaxIoBytes) :
    w.call 3 input entropy = w.settle 3 input (createPull input entropy w.table) := by
  unfold World.call operation
  rw [if_neg (by omega), if_neg (by decide), if_neg (by decide), if_pos rfl]

variable {s : PullSession S}

theorem opened_of_created {input entropy output : Bytes} {result : CryptoResult Bytes × Sessions S}
    (h : result = orUnchanged w.table do
        let (handleBytes, _) ← randomArray 8 entropy
        let (handle, table') ← w.table.allocateHandle handleBytes (.pull s)
        return (responseCreate ++ pushU64 handle, table'))
    (hok : (w.settle 3 input result).1 = .ok output) :
    (w.settle 3 input result).2.table.get (handleOf output) = some (.pull s) := by
  obtain ⟨x, table⟩ := result
  obtain ⟨e, rfl, rfl⟩ | ⟨output', rfl, hcreate⟩ := orUnchanged_cases h.symm
  · cases hok
  cases hok
  obtain ⟨⟨handleBytes, rest⟩, -, hcreate⟩ := bind_eq_ok.mp hcreate
  obtain ⟨⟨handle, table'⟩, halloc, hcreate⟩ := bind_eq_ok.mp hcreate
  cases hcreate
  obtain rfl := allocateHandle_eq_ok halloc
  show Sessions.get ((handle, .pull s) :: w.table) _ = _
  have hhandle := handleOf_response handle []
  rw [List.append_nil] at hhandle
  rw [hhandle, Sessions.get_cons, if_pos rfl]

theorem call_pullInput (horigin : Origin S header log start) {key : Key}
    (hinit : S.pullInit key streamHeader = .ok r) {entropy rest : Bytes}
    (hlength : w.table.length < 64)
    (hdrawn : randomArray 8 entropy = .ok (handleBytes, rest))
    (hfree : w.table.get (drawnHandle handleBytes) = none) :
    w.call 3 (pullInput key header.bytes streamHeader log.metadata) entropy =
      (.ok (responseCreate ++ pushU64 (drawnHandle handleBytes)),
        ⟨(drawnHandle handleBytes, .pull ⟨r, header, 0, 0, false⟩) :: w.table,
          Function.update w.logs (drawnHandle handleBytes)
            ⟨responseCreate ++ pushU64 (drawnHandle handleBytes), log.metadata, []⟩⟩) := by
  rw [call_three (length_pullInput _ _ _ horigin.metadata_le),
    createPull_pullInput horigin hinit, hdrawn, ok_bind]
  dsimp only
  rw [Sessions.allocateHandle_room hlength hfree]
  have hparse := parsePull_pullInput key header.bytes streamHeader horigin.metadata_le
  have hrecord := record_created hparse (drawnHandle handleBytes) w.logs
  rw [← hrecord]
  rfl

/-! ## Opening what was pushed -/

def chunkResponse (c : Chunk) : CryptoResult Bytes :=
  .ok (responseChunk ++ [if c.finalMessage then 1 else 0] ++ c.plaintext)

/-- The messages handed to the session under `handle`, one after the other. -/
def feed (w : World S) (handle : UInt64) : List Chunk → List (CryptoResult Bytes) × World S
  | [] => ([], w)
  | c :: chunks =>
    let (result, w') := w.call 4 (chunkInput handle c.ciphertext) []
    let (results, w'') := feed w' handle chunks
    (result :: results, w'')

theorem feed_cons (w : World S) (handle : UInt64) (c : Chunk) (chunks : List Chunk) :
    feed w handle (c :: chunks) =
      ((w.call 4 (chunkInput handle c.ciphertext) []).1 ::
        (feed (w.call 4 (chunkInput handle c.ciphertext) []).2 handle chunks).1,
      (feed (w.call 4 (chunkInput handle c.ciphertext) []).2 handle chunks).2) := rfl

variable {handle : UInt64}

theorem feed_append {w w' w'' : World S} {front back : List Chunk}
    {results results' : List (CryptoResult Bytes)} (hfront : feed w handle front = (results, w'))
    (hback : feed w' handle back = (results', w'')) :
    feed w handle (front ++ back) = (results ++ results', w'') := by
  induction front generalizing w results with
  | nil =>
    obtain ⟨rfl, rfl⟩ := Prod.mk.inj hfront
    exact hback
  | cons c front ih =>
    rw [feed_cons] at hfront
    obtain ⟨rfl, hrest⟩ := Prod.mk.inj hfront
    rw [List.cons_append, feed_cons, ih (Prod.ext rfl hrest)]
    rfl

variable {p c : Bytes}

theorem PullSession.pull_pushed (L : S.Lawful) {f : Bool}
    {sender sender' : S.PushState} (hpair : L.Paired sender s.stream)
    (hpush : S.push sender p s.header.bytes.bytes f = .ok (c, sender'))
    (hopen : s.finalSeen = false) (hle : p.length ≤ attachmentChunkBytes)
    (hstream : s.streamSeen + c.length ≤ s.header.streamSize.toNat)
    (hplain : s.plaintextSeen + p.length ≤ s.header.plaintextSize.toNat)
    (hfinal : f = true → s.streamSeen + c.length = s.header.streamSize.toNat ∧
      s.plaintextSeen + p.length = s.header.plaintextSize.toNat) :
    ∃ stream, L.Paired sender' stream ∧ s.pull c =
      (.ok (p, f), ⟨stream, s.header, s.plaintextSeen + p.length, s.streamSeen + c.length, f⟩) := by
  obtain ⟨stream, hpull, hpair'⟩ := L.opens hpair hpush
  have hlength := L.length_push hpush
  refine ⟨stream, hpair', ?_⟩
  unfold PullSession.pull
  rw [if_neg (by rw [hopen, not_or]; exact ⟨nofun, by omega⟩), hpull]
  dsimp only
  rw [if_neg (by omega), if_neg]
  rintro ⟨hf, hne⟩
  have := hfinal hf
  omega

theorem call_four {s s' : PullSession S}
    {result : CryptoResult (Bytes × Bool)} (hget : w.table.get handle = some (.pull s))
    (hpull : s.pull c = (result, s')) (hle : secretstreamAbytes ≤ c.length)
    (hmax : c.length ≤ attachmentChunkBytes + secretstreamAbytes) :
    w.call 4 (chunkInput handle c) [] = w.settle 4 (chunkInput handle c)
      (result.map fun (p, f) => responseChunk ++ [if f then 1 else 0] ++ p,
        w.table.set handle (.pull s')) := by
  have hlength : (chunkInput handle c).length ≤ attachmentMaxIoBytes := by
    have hmagic : requestChunk.length = 8 := rfl
    simp only [chunkInput, List.flatten_cons, List.flatten_nil, List.length_append, hmagic,
      length_pushU64, List.length_nil]
    unfold attachmentMaxIoBytes
    unfold attachmentChunkBytes secretstreamAbytes at hmax
    omega
  unfold World.call operation pullChunk
  rw [if_neg (by omega), if_neg (by decide), if_neg (by decide), if_neg (by decide), if_pos rfl,
    parseChunk_chunkInput handle hle]
  dsimp only
  rw [hget]
  dsimp only
  rw [hpull]

def pushInput (handle : UInt64) (finalMessage : Bool) (plaintext : Bytes) : Bytes :=
  List.flatten [requestPush, pushU64 handle, [if finalMessage then 1 else 0], plaintext]

theorem parsePush_pushInput (handle : UInt64) (f : Bool) (hle : p.length ≤ attachmentChunkBytes) :
    parsePush (pushInput handle f p) = .ok ⟨handle, f, p⟩ := by
  refine parse_eq_ok.mpr ⟨[], ?_⟩
  unfold pushInput
  simp only [List.flatten_cons, List.flatten_nil, List.append_nil]
  rw [run_bind_of (expect_run _ _), run_bind_of (u64_exact.run trivial _),
    run_bind_of (u8_exact.run trivial _)]
  refine run_bind_eq_ok.mpr ⟨p, [], rfl, ?_⟩
  rw [run_bind_of (failIf_run_of (by simpa using hle))]
  cases f <;> rfl

theorem call_two {s s' : PushSession S} {f : Bool} (hget : w.table.get handle = some (.push s))
    (hpush : s.push f p = (.ok c, s')) (hle : p.length ≤ attachmentChunkBytes) :
    (w.call 2 (pushInput handle f p) []).2.table = w.table.set handle (.push s') := by
  have hlength : (pushInput handle f p).length ≤ attachmentMaxIoBytes := by
    have hmagic : requestPush.length = 8 := rfl
    simp only [pushInput, List.flatten_cons, List.flatten_nil, List.length_append, hmagic,
      length_pushU64, List.length_cons, List.length_nil]
    unfold attachmentMaxIoBytes
    unfold attachmentChunkBytes at hle
    omega
  unfold World.call operation pushChunk
  rw [if_neg (by omega), if_neg (by decide), if_pos rfl, parsePush_pushInput handle f hle]
  dsimp only
  rw [hget]
  dsimp only
  rw [hpush]
  rfl

def PullSession.opened (stream : S.PullState) (header : AttachmentHeader) (chunks : List Chunk)
    (finalSeen : Bool) : PullSession S :=
  ⟨stream, header, plaintextBytes chunks, ciphertextBytes chunks, finalSeen⟩

section Transfer

variable {w : World S} {handle : UInt64} {header : AttachmentHeader} {start s s' : S.PushState}
  {r : S.PullState} {chunks : List Chunk} {c : Chunk}

theorem feed_one (L : S.Lawful) (hpair : L.Paired s r)
    (hget : w.table.get handle = some (.pull (.opened r header chunks false)))
    (hpush : S.push s c.plaintext header.bytes.bytes c.finalMessage = .ok (c.ciphertext, s'))
    (hle : c.plaintext.length ≤ attachmentChunkBytes)
    (hstream : ciphertextBytes (chunks ++ [c]) ≤ header.streamSize.toNat)
    (hplain : plaintextBytes (chunks ++ [c]) ≤ header.plaintextSize.toNat)
    (hfinal : c.finalMessage = true → ciphertextBytes (chunks ++ [c]) = header.streamSize.toNat ∧
      plaintextBytes (chunks ++ [c]) = header.plaintextSize.toNat) :
    ∃ w' r', feed w handle [c] = ([chunkResponse c], w') ∧ L.Paired s' r' ∧
      w'.table.get handle = some (.pull (.opened r' header (chunks ++ [c]) c.finalMessage)) := by
  simp only [ciphertextBytes_snoc, plaintextBytes_snoc] at hstream hplain hfinal
  have hlength := L.length_push hpush
  obtain ⟨r', hpair', hpull⟩ := PullSession.pull_pushed L
    (s := .opened r header chunks false) hpair hpush rfl hle hstream hplain hfinal
  refine ⟨_, r', by unfold feed; rw [call_four hget hpull (by omega) (by omega)]; rfl, hpair', ?_⟩
  rw [Sessions.get_set, if_pos rfl, hget]
  simp [PullSession.opened]

theorem Pushed.snoc_inv {h : Bytes} (hpushed : Pushed S h start (chunks ++ [c]) s') :
    ∃ s, Pushed S h start chunks s ∧ S.push s c.plaintext h c.finalMessage =
      .ok (c.ciphertext, s') := by
  generalize hall : chunks ++ [c] = all at hpushed
  cases hpushed with
  | nil => simp at hall
  | @snoc front s _ d hfront hpush =>
    obtain ⟨rfl, hlast⟩ := List.append_inj' hall rfl
    obtain rfl := List.head_eq_of_cons_eq hlast
    exact ⟨s, hfront, hpush⟩

variable (L : S.Lawful) (hpushed : Pushed S header.bytes.bytes start chunks s)
  (hpair : L.Paired start r) (hget : w.table.get handle = some (.pull ⟨r, header, 0, 0, false⟩))
  (hle : ∀ c ∈ chunks, c.plaintext.length ≤ attachmentChunkBytes)
include hpushed hpair hget hle

theorem feed_front (hflags : ∀ c ∈ chunks, c.finalMessage = false)
    (hstream : ciphertextBytes chunks ≤ header.streamSize.toNat)
    (hplain : plaintextBytes chunks ≤ header.plaintextSize.toNat) :
    ∃ w' r', feed w handle chunks = (chunks.map chunkResponse, w') ∧ L.Paired s r' ∧
      w'.table.get handle = some (.pull (.opened r' header chunks false)) := by
  induction hpushed with
  | nil => exact ⟨w, r, rfl, hpair, hget⟩
  | @snoc front s₁ s₂ c hfront hpush ih =>
    have hc : c ∈ front ++ [c] := List.mem_append_right _ (List.mem_singleton.mpr rfl)
    have hmem : ∀ d ∈ front, d ∈ front ++ [c] := fun d hd => List.mem_append_left _ hd
    have hstream' := hstream
    have hplain' := hplain
    rw [ciphertextBytes_snoc] at hstream'
    rw [plaintextBytes_snoc] at hplain'
    obtain ⟨w₁, r₁, hfeed, hpair₁, hget₁⟩ := ih (fun d hd => hle d (hmem d hd))
      (fun d hd => hflags d (hmem d hd)) (by omega) (by omega)
    have hflag := hflags c hc
    obtain ⟨w₂, r₂, hone, hpair₂, hget₂⟩ := feed_one L hpair₁ hget₁ hpush (hle c hc) hstream hplain
      fun hf => by rw [hflag] at hf; cases hf
    rw [hflag] at hget₂
    refine ⟨w₂, r₂, ?_, hpair₂, hget₂⟩
    rw [feed_append hfeed hone, List.map_append]
    rfl

theorem feed_complete (hends : EndsFinal chunks)
    (hstream : ciphertextBytes chunks = header.streamSize.toNat)
    (hplain : plaintextBytes chunks = header.plaintextSize.toNat) :
    ∃ w' s', feed w handle chunks = (chunks.map chunkResponse, w') ∧
      w'.table.get handle = some (.pull s') ∧ s'.finalSeen = true := by
  obtain ⟨front, last, rfl, hflag, hflags⟩ := hends
  obtain ⟨s₁, hfront, hpush⟩ := hpushed.snoc_inv
  have hstream' := hstream
  have hplain' := hplain
  rw [ciphertextBytes_snoc] at hstream'
  rw [plaintextBytes_snoc] at hplain'
  obtain ⟨w₁, r₁, hfeed, hpair₁, hget₁⟩ := feed_front L hfront hpair hget
    (fun d hd => hle d (List.mem_append_left _ hd)) hflags (by omega) (by omega)
  obtain ⟨w₂, r₂, hone, -, hget₂⟩ := feed_one L hpair₁ hget₁ hpush
    (hle last (List.mem_append_right _ (List.mem_singleton.mpr rfl))) hstream.le hplain.le
    fun _ => ⟨hstream, hplain⟩
  refine ⟨w₂, _, ?_, hget₂, hflag⟩
  rw [feed_append hfeed hone, List.map_append]
  rfl

end Transfer

/-! ## Main result -/

def World.Closes (w : World S) (handle : UInt64) : Prop :=
  ∃ input entropy output, parseClose input = .ok ⟨handle, false⟩ ∧
    (w.call 5 input entropy).1 = .ok output

theorem World.Closes.finalSeen {s : Session S}
    (h : w.Closes handle) (hget : w.table.get handle = some s) : s.finalSeen = true := by
  obtain ⟨input, entropy, output, hparse, hcall⟩ := h
  unfold World.call operation at hcall
  split at hcall
  · cases hcall
  cases hclose : closeSession input w.table with
  | mk result table =>
    rw [hclose] at hcall
    obtain ⟨e, rfl, rfl⟩ | ⟨output', rfl, hsession⟩ := orUnchanged_cases hclose
    · cases hcall
    rw [hparse, ok_bind, hget] at hsession
    obtain ⟨hdone, -⟩ := unit_bind_eq_ok.mp hsession
    simpa using hdone

/-- What the bytes of a complete push session do on the pull side. -/
theorem PushInv.transfers (L : S.Lawful) {s : PushSession S} (h : PushInv s log)
    (hfinal : s.finalSeen = true) :
    ∃ handle key streamHeader, log.created = createdResponse handle key s.header streamHeader ∧
      ∀ (w : World S) (entropy : Bytes) (result : CryptoResult Bytes × World S),
        result = w.call 3 (pullInput key s.header.bytes streamHeader log.metadata) entropy →
        (w.table.Room entropy → ∃ output, result.1 = .ok output) ∧
        ∀ output, result.1 = .ok output → ∃ w' s',
          feed result.2 (handleOf output) log.chunks = (log.chunks.map chunkResponse, w') ∧
          w'.table.get (handleOf output) = some (.pull s') ∧ s'.finalSeen = true := by
  obtain ⟨-, hplain, hstream⟩ := h.complete L hfinal
  obtain ⟨start, horigin, hemitted⟩ := h.emitted
  have hlog := hemitted (h.final hfinal).1
  obtain ⟨handle, key, streamHeader, hinit, hcreated⟩ := horigin.created
  obtain ⟨r, hpull, hpair⟩ := L.init hinit
  refine ⟨handle, key, streamHeader, hcreated, fun w entropy result hresult => ?_⟩
  constructor
  · rintro ⟨hlength, handleBytes, rest, hdrawn, hfree⟩
    rw [hresult, call_pullInput horigin hpull hlength hdrawn hfree]
    exact ⟨_, rfl⟩
  · intro output hok
    rw [call_three (length_pullInput _ _ _ horigin.metadata_le)] at hresult
    subst hresult
    have hcreate := createPull_pullInput horigin hpull entropy w.table
    exact feed_complete L hlog.pushed hpair (opened_of_created hcreate hok) hlog.chunk_le
      (hlog.final hfinal) hstream hplain

/-- A push session that has seen its final message emitted exactly what its header announces, and
the pull side gives it back. A pull session that has seen its final message, or that closes without
abort, returned exactly what its header announces, in every run in which no final message comes too
early. -/
theorem attachment_streams (L : S.Lawful) :
    (∀ w, (system S).Reachable w → ∀ h s, w.table.get h = some (.push s) → s.finalSeen = true →
      s.plaintextSeen = s.header.plaintextSize.toNat ∧
      plaintextBytes (w.logs h).chunks = s.header.plaintextSize.toNat ∧
      ciphertextBytes (w.logs h).chunks = s.header.streamSize.toNat ∧
      ∃ handle key streamHeader,
        (w.logs h).created = createdResponse handle key s.header streamHeader ∧
        ∀ (w₀ : World S) (entropy : Bytes) (result : CryptoResult Bytes × World S),
          result = w₀.call 3 (pullInput key s.header.bytes streamHeader (w.logs h).metadata) entropy →
          (w₀.table.Room entropy → ∃ output, result.1 = .ok output) ∧
          ∀ output, result.1 = .ok output → ∃ w' s',
            feed result.2 (handleOf output) (w.logs h).chunks =
              ((w.logs h).chunks.map chunkResponse, w') ∧
            w'.table.get (handleOf output) = some (.pull s') ∧ s'.finalSeen = true) ∧
    (∀ w, (careful S).Reachable w → ∀ h s, w.table.get h = some (.pull s) →
      s.finalSeen = true ∨ w.Closes h →
      ciphertextBytes (w.logs h).chunks = s.header.streamSize.toNat ∧
      plaintextBytes (w.logs h).chunks = s.header.plaintextSize.toNat) := by
  constructor
  · intro w hw h s hget hfinal
    have hinv := push_inductive.reachable hw h _ hget
    obtain ⟨hseen, hplain, hstream⟩ := hinv.complete L hfinal
    exact ⟨hseen, hplain, hstream, hinv.transfers L hfinal⟩
  · intro w hw h s hget hdone
    have hinv := pull_inductive.reachable hw h _ hget
    have hfinal := hdone.elim id fun hcloses => hcloses.finalSeen hget
    obtain ⟨hstream, hplain⟩ := hinv.final hfinal
    exact ⟨hinv.ciphertext ▸ hstream, hinv.plaintext ▸ hplain⟩

/-! ## A final message that comes too early -/

/-- A message in the clear: a byte for the tag, the plaintext and sixteen zeros. -/
def plainMessage (finalMessage : Bool) (plaintext : Bytes) : Bytes :=
  (if finalMessage then 1 else 0) :: (plaintext ++ List.replicate 16 0)

def plainStream : Primitives where
  PushState := Unit
  PullState := Unit
  pushInit _ _ := .ok ()
  push _ plaintext _ finalMessage := .ok (plainMessage finalMessage plaintext, ())
  pullInit _ _ := .ok ()
  pull _ ciphertext _ :=
    match ciphertext with
    | [] => .error .authenticationFailed
    | tag :: rest =>
      if rest.length < 16 then .error .authenticationFailed
      else .ok (rest.take (rest.length - 16), tag == 1, ())
  sha256 _ := .fill 32 0

theorem plainStream_pull (finalMessage : Bool) (plaintext associatedData : Bytes) :
    plainStream.pull () (plainMessage finalMessage plaintext) associatedData =
      .ok (plaintext, finalMessage, ()) := by
  have hflag : ((if finalMessage then (1 : UInt8) else 0) == 1) = finalMessage := by
    cases finalMessage <;> rfl
  simp [plainStream, plainMessage, hflag]

def plainLawful : plainStream.Lawful where
  Paired _ _ := True
  length_push h := by
    cases h
    simp [plainMessage, secretstreamAbytes]
  init _ := ⟨(), rfl, trivial⟩
  opens _ h := by
    cases h
    exact ⟨(), plainStream_pull _ _ _, trivial⟩

def idle : World plainStream := ⟨[], fun _ => ⟨[], [], []⟩⟩

def twoChunks : AttachmentHeader where
  bytes := ⟨headerBytes 65536 65537 65571 262144 (.fill 32 0), length_headerBytes _ _ _ _ _⟩
  plaintextSize := 65537
  streamSize := 65571

theorem twoChunks_origin :
    Origin plainStream twoChunks ⟨createdResponse 1 (.fill 32 0) twoChunks (.fill 24 0),
      [], []⟩ () where
  sized := by decide
  made := ⟨262144, by decide, rfl⟩
  metadata_le := Nat.zero_le _
  created := ⟨1, .fill 32 0, .fill 24 0, rfl, rfl⟩

def waitingHandle : UInt64 := drawnHandle (.fill 8 1)

def waiting : World plainStream where
  table := [(waitingHandle, .pull ⟨(), twoChunks, 0, 0, false⟩)]
  logs := Function.update idle.logs waitingHandle ⟨responseCreate ++ pushU64 waitingHandle, [], []⟩

theorem waiting_call : waiting = (idle.call 3
    (pullInput (.fill 32 0) twoChunks.bytes (.fill 24 0) []) (List.replicate 8 1)).2 := by
  have hdrawn : randomArray 8 (List.replicate 8 1) = .ok (.fill 8 1, []) := by decide
  have hinit : plainStream.pullInit (.fill 32 0) (.fill 24 0) = .ok () := rfl
  have hcall := call_pullInput twoChunks_origin hinit (w := idle) (by decide) hdrawn rfl
  exact (congrArg Prod.snd hcall).symm

theorem length_plainMessage (f : Bool) (p : Bytes) : (plainMessage f p).length = p.length + 17 := by
  simp [plainMessage]

def sending : World plainStream :=
  (idle.call 1 (List.flatten [requestCreate, pushU64 65537, pushU32 65536, pushU64 262144, pushU32 0])
    (List.replicate 64 1)).2

set_option maxRecDepth 4000 in
theorem sending_session :
    sending.table.get waitingHandle = some (.push ⟨(), twoChunks, 0, 0, false⟩) := by
  rfl

def sent (p : Bytes) : World plainStream :=
  ((sending.call 2 (pushInput waitingHandle false p) []).2.call 2
    (pushInput waitingHandle true [0]) []).2

theorem sent_reachable (p : Bytes) : (system plainStream).Reachable (sent p) :=
  .step (.step (.step (.init (s := idle) rfl) ⟨1, _, _, rfl⟩) ⟨2, _, _, rfl⟩) ⟨2, _, _, rfl⟩

theorem sent_session (hp : p.length = 65536) : (sent p).table.get waitingHandle =
    some (.push ⟨(), twoChunks, 65537, 65571, true⟩) := by
  have hfirst : PushSession.push (S := plainStream) ⟨(), twoChunks, 0, 0, false⟩ false p =
      (.ok (plainMessage false p), ⟨(), twoChunks, 65536, 65553, false⟩) := by
    simp [PushSession.push, plainStream, twoChunks, length_plainMessage, hp]
  have hget : (sending.call 2 (pushInput waitingHandle false p) []).2.table.get waitingHandle =
      some (.push ⟨(), twoChunks, 65536, 65553, false⟩) := by
    rw [call_two sending_session hfirst hp.le, Sessions.get_set, if_pos rfl, sending_session]
    rfl
  rw [sent, call_two (f := true) (p := [0]) hget rfl (by decide), Sessions.get_set, if_pos rfl, hget]
  rfl

def received (p : Bytes) : World plainStream :=
  ((waiting.call 4 (chunkInput waitingHandle (plainMessage false p)) []).2.call 4
    (chunkInput waitingHandle (plainMessage true [0])) []).2

theorem received_careful (hp : p.length = 65536) : (careful plainStream).Reachable (received p) ∧
    (received p).table.get waitingHandle = some (.pull ⟨(), twoChunks, 65537, 65571, true⟩) := by
  have hlength := length_plainMessage false p
  rw [hp] at hlength
  have hopen := plainStream_pull false p twoChunks.bytes.bytes
  have hget : waiting.table.get waitingHandle = some (.pull ⟨(), twoChunks, 0, 0, false⟩) := rfl
  have hpull : PullSession.pull (S := plainStream) ⟨(), twoChunks, 0, 0, false⟩
      (plainMessage false p) = (.ok (p, false), ⟨(), twoChunks, 65536, 65553, false⟩) := by
    unfold PullSession.pull
    rw [if_neg (by rw [hlength]; decide)]
    dsimp only
    rw [hopen]
    simp [hp, hlength, twoChunks]
  have hfull : secretstreamAbytes ≤ (plainMessage false p).length := by rw [hlength]; decide
  have hfirst := call_four hget hpull hfull (by rw [hlength]; decide)
  have hget' : (waiting.call 4 (chunkInput waitingHandle (plainMessage false p)) []).2.table.get
      waitingHandle = some (.pull ⟨(), twoChunks, 65536, 65553, false⟩) := by
    rw [hfirst]
    rfl
  constructor
  · refine .step (.step (.step (.init (s := idle) rfl) ⟨3, _, _, waiting_call,
      fun h => absurd h (by decide)⟩) ⟨4, _, [], rfl, ?_⟩) ⟨4, _, [], rfl, ?_⟩
    · rintro - request s hparse hs ⟨plaintext, stream, hearly, -⟩
      rw [parseChunk_chunkInput _ hfull] at hparse
      cases hparse
      cases hget.symm.trans hs
      cases hopen.symm.trans hearly
    · rintro - request s hparse hs ⟨plaintext, stream, hearly, -, -, hne⟩
      rw [parseChunk_chunkInput _ (by decide)] at hparse
      cases hparse
      cases hget'.symm.trans hs
      cases hearly
      exact hne.elim (fun h => h rfl) fun h => h rfl
  · rw [received, call_four (c := plainMessage true [0]) hget' rfl (by decide) (by decide)]
    change Sessions.get (Sessions.set _ _ _) _ = _
    rw [Sessions.get_set, if_pos rfl, hget']
    rfl

/-- A file of two chunks: what is sent for it, what that does on a pull side with nothing open, and
a careful run of the pull side. -/
theorem attachment_streams_two : ∃ p, (plaintextBytes ((sent p).logs waitingHandle).chunks = 65537 ∧
      ciphertextBytes ((sent p).logs waitingHandle).chunks = 65571 ∧
      ∃ key streamHeader output w', (idle.call 3 (pullInput key twoChunks.bytes streamHeader
          ((sent p).logs waitingHandle).metadata) (List.replicate 8 1)).1 = .ok output ∧
        feed (idle.call 3 (pullInput key twoChunks.bytes streamHeader
          ((sent p).logs waitingHandle).metadata) (List.replicate 8 1)).2 (handleOf output)
          ((sent p).logs waitingHandle).chunks =
            (((sent p).logs waitingHandle).chunks.map chunkResponse, w')) ∧
    ciphertextBytes ((received p).logs waitingHandle).chunks = 65571 ∧
    plaintextBytes ((received p).logs waitingHandle).chunks = 65537 := by
  have hp : (List.replicate 65536 (0 : UInt8)).length = 65536 := List.length_replicate
  obtain ⟨hpush, hpull⟩ := attachment_streams plainLawful
  obtain ⟨-, hplain, hstream, _, key, streamHeader, -, htransfer⟩ :=
    hpush _ (sent_reachable _) _ _ (sent_session hp) rfl
  obtain ⟨hroom, hfeed⟩ := htransfer idle (List.replicate 8 1) _ rfl
  obtain ⟨output, houtput⟩ := hroom ⟨by decide, .fill 8 1, [], by decide, rfl⟩
  obtain ⟨w', -, hfed, -⟩ := hfeed output houtput
  obtain ⟨hcareful, hget⟩ := received_careful hp
  exact ⟨_, ⟨hplain, hstream, key, streamHeader, output, w', houtput, hfed⟩,
    hpull _ hcareful _ _ hget (.inl rfl)⟩

theorem PullSession.pull_early {stream : S.PullState}
    (hpull : S.pull s.stream c s.header.bytes.bytes = .ok (p, true, stream))
    (hopen : s.finalSeen = false) (hmax : c.length ≤ attachmentChunkBytes + secretstreamAbytes)
    (hstream : s.streamSeen + c.length < s.header.streamSize.toNat)
    (hplain : s.plaintextSeen + p.length ≤ s.header.plaintextSize.toNat) :
    s.pull c = (.error .stateViolation,
      ⟨stream, s.header, s.plaintextSeen + p.length, s.streamSeen + c.length, false⟩) := by
  unfold PullSession.pull
  rw [if_neg (by rw [hopen, not_or]; exact ⟨nofun, by omega⟩), hpull]
  dsimp only
  rw [if_neg (by omega), if_pos ⟨rfl, .inl (by omega)⟩, hopen]

def refused : World plainStream where
  table := [(waitingHandle, .pull ⟨(), twoChunks, 65536, 65553, false⟩)]
  logs := waiting.logs

theorem waiting_refuses (hp : p.length = 65536) :
    (waiting.call 4 (chunkInput waitingHandle (plainMessage true p)) []).2 = refused := by
  have hlength := length_plainMessage true p
  rw [hp] at hlength
  have hget : waiting.table.get waitingHandle = some (.pull ⟨(), twoChunks, 0, 0, false⟩) := rfl
  let s : PullSession plainStream := ⟨(), twoChunks, 0, 0, false⟩
  have hpull := s.pull_early
    (plainStream_pull true p twoChunks.bytes.bytes) rfl
    (by rw [hlength]; decide) (by rw [hlength]; decide) (by rw [hp]; decide)
  simp only [s, hlength, hp, Nat.zero_add, Nat.reduceAdd] at hpull
  rw [call_four hget hpull (by rw [hlength]; decide) (by rw [hlength]; decide)]
  rfl

theorem refused_reachable : (system plainStream).Reachable refused :=
  .step (.step (.init (s := idle) rfl) ⟨3, _, _, waiting_call⟩)
    ⟨4, _, [], (waiting_refuses (List.length_replicate (n := 65536) (a := 0))).symm⟩

def cutShort : World plainStream where
  table := [(waitingHandle, .pull ⟨(), twoChunks, 65537, 65571, true⟩)]
  logs := Function.update waiting.logs waitingHandle
    ((waiting.logs waitingHandle).append ⟨[0], plainMessage true [0], true⟩)

theorem cutShort_reachable : (system plainStream).Reachable cutShort := by
  refine .step refused_reachable ⟨4, chunkInput waitingHandle (plainMessage true [0]), [], ?_⟩
  have hget : refused.table.get waitingHandle =
      some (.pull ⟨(), twoChunks, 65536, 65553, false⟩) := rfl
  have hpull : PullSession.pull (S := plainStream) ⟨(), twoChunks, 65536, 65553, false⟩
      (plainMessage true [0]) = (.ok ([0], true), ⟨(), twoChunks, 65537, 65571, true⟩) := rfl
  have hparse : parseChunk (chunkInput waitingHandle (plainMessage true [0])) =
      .ok ⟨waitingHandle, plainMessage true [0]⟩ :=
    parseChunk_chunkInput waitingHandle (by decide)
  have hrecord := record_chunk hparse true [0] waiting.logs
  unfold cutShort
  rfl

theorem cutShort_closes : cutShort.Closes waitingHandle :=
  ⟨List.flatten [requestClose, pushU64 waitingHandle, [0]], [], responseClose, rfl, rfl⟩

/-- The file is taken for complete after one byte of 65537. -/
theorem refused_chunk_counted : (system plainStream).Reachable cutShort ∧
    ∃ s, cutShort.table.get waitingHandle = some (.pull s) ∧
      s.finalSeen = true ∧ cutShort.Closes waitingHandle ∧
      (ciphertextBytes (cutShort.logs waitingHandle).chunks = 18 ∧ s.header.streamSize = 65571) ∧
      plaintextBytes (cutShort.logs waitingHandle).chunks = 1 ∧ s.header.plaintextSize = 65537 :=
  ⟨cutShort_reachable, _, rfl, rfl, cutShort_closes, ⟨rfl, rfl⟩, rfl, rfl⟩

end CommPlatform.Attachment
