import CommPlatform.Core.Runs
import CommPlatform.L3Protocol.AttachmentStream

/-!
# What attachment sessions add up to

A `World` is the table of sessions together with what the calls on each
handle returned since it was created. The invariant of a push session says
that its counters are the sums of what it emitted, as long as the stream is
not too long; a message is never longer than a chunk, so a stream that is
complete and not too long has exactly the messages that were reckoned with.
-/
namespace CommPlatform.Attachment

open CommPlatform.Core L1 L2
open Function (update update_of_ne update_self)

variable {S : Primitives}

/-! ## The table -/

namespace Sessions

variable {table : Sessions S} {h h' : UInt64} {s s' : Session S}

theorem get_cons : get ((h, s) :: table) h' = if h' = h then some s else get table h' := by
  unfold get
  rw [List.lookup_cons]
  by_cases heq : h' = h
  · rw [if_pos heq, beq_iff_eq.mpr heq]
  · rw [if_neg heq, beq_false_of_ne heq]

theorem get_set :
    get (set table h s') h' = if h' = h then (get table h).map fun _ => s' else get table h' := by
  induction table with
  | nil => simp [get, set]
  | cons entry table ih =>
    obtain ⟨k, v⟩ := entry
    show get ((if k = h then (h, s') else (k, v)) :: set table h s') h' = _
    by_cases hk : k = h
    · subst hk
      rw [if_pos rfl, get_cons, ih, get_cons, get_cons, if_pos rfl]
      split <;> rfl
    · rw [if_neg hk, get_cons, ih, get_cons, get_cons, if_neg (Ne.symm hk)]
      by_cases heq : h' = h
      · subst heq
        rw [if_neg (Ne.symm hk), if_pos rfl, if_pos rfl]
      · rw [if_neg heq, if_neg heq]

theorem get_remove : get (remove table h) h' = if h' = h then none else get table h' := by
  induction table with
  | nil => simp [get, remove]
  | cons entry table ih =>
    obtain ⟨k, v⟩ := entry
    unfold remove at ih ⊢
    rw [List.filter_cons]
    by_cases hk : k = h
    · subst hk
      rw [if_neg (by simp), get_cons]
      split <;> simp_all
    · rw [if_pos (by simpa using hk), get_cons, ih, get_cons]
      split
      · next heq => rw [heq, if_neg hk]
      · rfl

end Sessions

/-! ## Runs -/

structure Chunk where
  plaintext : Bytes
  ciphertext : Bytes
  finalMessage : Bool

/-- What the calls on a handle returned: the response it was created with, the metadata of that
request, and the messages of the calls that succeeded, in order. -/
structure Log where
  created : Bytes
  metadata : Bytes
  chunks : List Chunk

def Log.append (log : Log) (chunk : Chunk) : Log := { log with chunks := log.chunks ++ [chunk] }

variable (S) in
structure World where
  table : Sessions S
  logs : UInt64 → Log

def handleOf (output : Bytes) : UInt64 := UInt64.ofNat (ofBe ((output.drop 8).take 8))

/-- What a successful call adds to the logs. -/
def record (op : UInt32) (input output : Bytes) (logs : UInt64 → Log) : UInt64 → Log :=
  if op = 1 then
    match parseCreate input with
    | .ok request => update logs (handleOf output) ⟨output, request.metadata, []⟩
    | .error _ => logs
  else if op = 2 then
    match parsePush input with
    | .ok request => update logs request.handle
        ((logs request.handle).append ⟨request.plaintext, output.drop 9, request.finalMessage⟩)
    | .error _ => logs
  else if op = 3 then
    match parsePull input with
    | .ok request => update logs (handleOf output) ⟨output, request.metadata, []⟩
    | .error _ => logs
  else if op = 4 then
    match parseChunk input with
    | .ok request => update logs request.handle ((logs request.handle).append
        ⟨output.drop 9, request.ciphertext, output.drop 8 |>.head? |>.isEqSome 1⟩)
    | .error _ => logs
  else logs

/-- The result of a call and the table it left, with the logs. -/
def World.settle (w : World S) (op : UInt32) (input : Bytes) :
    CryptoResult Bytes × Sessions S → CryptoResult Bytes × World S
  | (.ok output, table) => (.ok output, ⟨table, record op input output w.logs⟩)
  | (.error e, table) => (.error e, ⟨table, w.logs⟩)

def World.call (w : World S) (op : UInt32) (input entropy : Bytes) :
    CryptoResult Bytes × World S :=
  w.settle op input (operation op input entropy w.table)

variable (S) in
def system : System (World S) where
  init w := w.table = []
  step w w' := ∃ op input entropy, w' = (w.call op input entropy).2

def plaintextBytes (chunks : List Chunk) : Nat := (chunks.map (·.plaintext.length)).sum

def ciphertextBytes (chunks : List Chunk) : Nat := (chunks.map (·.ciphertext.length)).sum

variable {f : Bool}

/-! ## One call on a session -/

variable {s s' : PushSession S} {p c : Bytes}

theorem PushSession.push_ok (h : s.push f p = (.ok c, s')) :
    s.plaintextSeen + p.length ≤ s.header.plaintextSize.toNat ∧
      (f = true → s.plaintextSeen + p.length = s.header.plaintextSize.toNat) ∧
      s.finalSeen = false ∧ s.streamSeen + c.length ≤ s.header.streamSize.toNat ∧
      ∃ stream, S.push s.stream p s.header.bytes.bytes f = .ok (c, stream) ∧
        s' = ⟨stream, s.header, s.plaintextSeen + p.length, s.streamSeen + c.length, f⟩ := by
  unfold PushSession.push at h
  dsimp only at h
  split at h
  · cases h
  next hopen =>
  split at h
  · cases h
  split at h
  · cases h
  next hfinal =>
  split at h
  · cases h
  next encrypted stream hpush =>
  split at h
  · cases h
  next hlong =>
  cases h
  rw [not_or, Bool.not_eq_true] at hopen
  refine ⟨by omega, fun hf => ?_, hopen.1, by omega, stream, hpush, rfl⟩
  by_contra hne
  exact hfinal ⟨hf, hne⟩

variable {e : CryptoError}

theorem PushSession.push_error (h : s.push f p = (.error e, s')) :
    s' = s ∨ (s'.header = s.header ∧ s'.header.streamSize.toNat < s'.streamSeen ∧
      s'.finalSeen = false) := by
  unfold PushSession.push at h
  dsimp only at h
  split at h
  · cases h; exact .inl rfl
  next hopen =>
  split at h
  · cases h; exact .inl rfl
  split at h
  · cases h; exact .inl rfl
  split at h
  · cases h; exact .inl rfl
  next encrypted stream hpush =>
  split at h
  · next hlong =>
    cases h
    rw [not_or, Bool.not_eq_true] at hopen
    exact .inr ⟨rfl, hlong, hopen.1⟩
  · cases h

theorem PullSession.pull_ok {s s' : PullSession S} (h : s.pull c = (.ok (p, f), s')) :
    s.finalSeen = false ∧
      (f = true → s.streamSeen + c.length = s.header.streamSize.toNat ∧
        s.plaintextSeen + p.length = s.header.plaintextSize.toNat) ∧
      ∃ stream, S.pull s.stream c s.header.bytes.bytes = .ok (p, f, stream) ∧
        s' = ⟨stream, s.header, s.plaintextSeen + p.length, s.streamSeen + c.length, f⟩ := by
  unfold PullSession.pull at h
  dsimp only at h
  split at h
  · cases h
  next hopen =>
  split at h
  · cases h
  next plaintext finalMessage stream hpull =>
  split at h
  · cases h
  split at h
  · cases h
  next hearly =>
  cases h
  rw [not_or, Bool.not_eq_true] at hopen
  refine ⟨hopen.1, fun hf => ?_, stream, hpull, rfl⟩
  by_contra hne
  exact hearly ⟨hf, by omega⟩

/-- The message opens as the final one, fits the announced sizes, and comes before they are
reached. -/
def PullSession.EarlyFinal (s : PullSession S) (ciphertext : Bytes) : Prop :=
  ∃ plaintext stream, S.pull s.stream ciphertext s.header.bytes.bytes =
    .ok (plaintext, true, stream) ∧
    s.streamSeen + ciphertext.length ≤ s.header.streamSize.toNat ∧
    s.plaintextSeen + plaintext.length ≤ s.header.plaintextSize.toNat ∧
    (s.streamSeen + ciphertext.length ≠ s.header.streamSize.toNat ∨
      s.plaintextSeen + plaintext.length ≠ s.header.plaintextSize.toNat)

theorem PullSession.pull_error {s s' : PullSession S} (h : s.pull c = (.error e, s')) :
    s.EarlyFinal c ∨ ∃ stream, s' = { s with stream } := by
  unfold PullSession.pull at h
  dsimp only at h
  split at h
  · cases h; exact .inr ⟨_, rfl⟩
  split at h
  · cases h; exact .inr ⟨_, rfl⟩
  next plaintext finalMessage stream hpull =>
  split at h
  · cases h; exact .inr ⟨_, rfl⟩
  next hfits =>
  split at h
  · next hearly =>
    obtain ⟨rfl, hne⟩ := hearly
    exact .inl ⟨plaintext, stream, hpull, by omega, by omega, hne⟩
  · cases h

/-! ## What a call can do -/

def createdResponse (handle : UInt64) (key : Key) (header : AttachmentHeader)
    (streamHeader : Block 24) : Bytes := List.flatten [
  responseCreate, pushU64 handle, key.bytes, header.bytes.bytes, streamHeader.bytes,
  pushU64 header.streamSize]

variable (S) in
/-- What a push session is made from. -/
structure Origin (header : AttachmentHeader) (log : Log) (stream : S.PushState) : Prop where
  sized : encryptedStreamSize header.plaintextSize 65536 = .ok header.streamSize
  made : ∃ bucketSize, bucketForStream header.streamSize = .ok bucketSize ∧
    makeHeader header.plaintextSize header.streamSize bucketSize 65536 (S.sha256 log.metadata) =
      .ok header
  metadata_le : log.metadata.length ≤ 4096
  created : ∃ handle key streamHeader, S.pushInit key streamHeader = .ok stream ∧
    log.created = createdResponse handle key header streamHeader

inductive Effect (op : UInt32) (input : Bytes) (w : World S) : World S → Prop
  | keeps {w' : World S} (htable : ∀ h s, w'.table.get h = some s → w.table.get h = some s)
      (hlogs : w'.logs = w.logs) : Effect op input w w'
  | createdPush {handle : UInt64} {stream : S.PushState} {header : AttachmentHeader} {log : Log}
      (horigin : Origin S header log stream) (hchunks : log.chunks = []) :
      Effect op input w ⟨(handle, .push ⟨stream, header, 0, 0, false⟩) :: w.table,
        update w.logs handle log⟩
  | createdPull {handle : UInt64} {stream : S.PullState} {header : AttachmentHeader} {log : Log}
      (hchunks : log.chunks = []) :
      Effect op input w ⟨(handle, .pull ⟨stream, header, 0, 0, false⟩) :: w.table,
        update w.logs handle log⟩
  | pushed {handle : UInt64} {s s' : PushSession S} {f : Bool} {p c : Bytes}
      (hget : w.table.get handle = some (.push s)) (hle : p.length ≤ attachmentChunkBytes)
      (hpush : s.push f p = (.ok c, s')) :
      Effect op input w ⟨w.table.set handle (.push s'),
        update w.logs handle ((w.logs handle).append ⟨p, c, f⟩)⟩
  | pushFailed {handle : UInt64} {s s' : PushSession S} {f : Bool} {p : Bytes} {e : CryptoError}
      (hget : w.table.get handle = some (.push s)) (hpush : s.push f p = (.error e, s')) :
      Effect op input w ⟨w.table.set handle (.push s'), w.logs⟩
  | pulled {request : ChunkRequest} {s s' : PullSession S} {f : Bool} {p : Bytes}
      (hget : w.table.get request.handle = some (.pull s))
      (hpull : s.pull request.ciphertext = (.ok (p, f), s')) :
      Effect op input w ⟨w.table.set request.handle (.pull s'), update w.logs request.handle
        ((w.logs request.handle).append ⟨p, request.ciphertext, f⟩)⟩
  | pullFailed {request : ChunkRequest} {s s' : PullSession S} {e : CryptoError} (hop : op = 4)
      (hparse : parseChunk input = .ok request)
      (hget : w.table.get request.handle = some (.pull s))
      (hpull : s.pull request.ciphertext = (.error e, s')) :
      Effect op input w ⟨w.table.set request.handle (.pull s'), w.logs⟩

theorem allocateHandle_eq_ok {table table' : Sessions S} {handleBytes : Block 8} {s : Session S}
    {handle : UInt64} (h : table.allocateHandle handleBytes s = .ok (handle, table')) :
    table' = (handle, s) :: table := by
  obtain ⟨-, h⟩ := unit_bind_eq_ok.mp h
  obtain ⟨-, h⟩ := unit_bind_eq_ok.mp h
  cases h
  rfl

theorem orUnchanged_cases {table t : Sessions S} {x : CryptoResult (Bytes × Sessions S)}
    {r : CryptoResult Bytes} (h : orUnchanged table x = (r, t)) :
    (∃ e, r = .error e ∧ t = table) ∨ ∃ output, r = .ok output ∧ x = .ok (output, t) := by
  unfold orUnchanged at h
  split at h
  · obtain ⟨rfl, rfl⟩ := Prod.mk.inj h
    exact .inr ⟨_, rfl, rfl⟩
  · obtain ⟨rfl, rfl⟩ := Prod.mk.inj h
    exact .inl ⟨_, rfl, rfl⟩

variable {input : Bytes} {op : UInt32}

theorem Effect.of_unchanged {w : World S} : Effect op input w ⟨w.table, w.logs⟩ :=
  .keeps (fun _ _ h => h) rfl

theorem handleOf_response (handle : UInt64) (rest : Bytes) :
    handleOf (responseCreate ++ (pushU64 handle ++ rest)) = handle := by
  have hmagic : responseCreate.length = 8 := rfl
  have hpush := length_pushU64 handle
  rw [handleOf, ← hmagic, List.drop_left, hmagic, ← hpush, List.take_left, pushU64,
    ofBe_be (by have := handle.toNat_lt; omega), UInt64.ofNat_toNat]

variable {header : AttachmentHeader}

theorem parseCreate_eq_ok {request : CreateRequest} (h : parseCreate input = .ok request) :
    request.chunkSize = 65536 ∧ request.metadata.length ≤ 4096 := by
  obtain ⟨rest, hread⟩ := Reader.parse_eq_ok.mp h
  simp only [framedMetadata, Reader.run_bind_eq_ok, Reader.failIf_run_eq_ok] at hread
  obtain ⟨_, _, -, _, _, -, chunkSize, _, -, _, _, -, metadata, _, ⟨_, _, -, _, _, ⟨hle, -⟩, hmeta⟩,
    _, _, -, _, _, ⟨hchunk, -⟩, hret⟩ := hread
  cases hmeta
  cases hret
  simp only [Bool.or_eq_false_iff, bne_eq_false_iff_eq] at hchunk
  refine ⟨?_, by simpa using hle⟩
  rw [← UInt32.toNat_inj]
  exact hchunk.2

theorem makeHeader_eq_ok {plaintextSize streamSize bucketSize : UInt64} {chunkSize : UInt32}
    {hash : Block 32}
    (h : makeHeader plaintextSize streamSize bucketSize chunkSize hash = .ok header) :
    header.plaintextSize = plaintextSize ∧ header.streamSize = streamSize ∧
      ∃ bucket : UInt32, bucketSize.toNat = bucket.toNat ∧
        header.bytes.bytes = headerBytes chunkSize plaintextSize streamSize bucket hash := by
  obtain ⟨-, h⟩ := unit_bind_eq_ok.mp h
  obtain ⟨bucket, hbucket, h⟩ := bind_eq_ok.mp h
  cases h
  exact ⟨rfl, rfl, bucket, tryU32_eq_ok'.mp hbucket, rfl⟩

variable {table : Sessions S}

theorem createPush_effect {w : World S} {entropy output : Bytes}
    (h : createPush input entropy w.table = (.ok output, table)) :
    Effect 1 input w ⟨table, record 1 input output w.logs⟩ := by
  obtain ⟨e, he, -⟩ | ⟨output', houtput, h⟩ := orUnchanged_cases h
  · cases he
  cases houtput
  simp only [ok_steps, Prod.mk.injEq] at h
  obtain ⟨request, hrequest, streamSize, hsize, bucket, hbucket, _, hsame, header, hheader, ⟨key, _⟩,
    -, ⟨streamHeader, _⟩, -, stream, hinit, _, -, ⟨handle, _⟩, halloc, rfl, rfl⟩ := h
  obtain rfl := allocateHandle_eq_ok halloc
  obtain ⟨hchunk, hmeta⟩ := parseCreate_eq_ok hrequest
  obtain rfl : request.bucketSize = bucket := not_not.mp hsame
  obtain ⟨hplaintext, rfl, -⟩ := makeHeader_eq_ok hheader
  rw [hchunk, ← hplaintext] at hsize hheader
  have hrecord : record 1 input (createdResponse handle key header streamHeader) w.logs =
      update w.logs handle ⟨createdResponse handle key header streamHeader,
        request.metadata, []⟩ := by
    simp only [record, if_pos, hrequest]
    rw [createdResponse, List.flatten_cons, List.flatten_cons, handleOf_response]
  show Effect 1 input w ⟨_, record 1 input (createdResponse handle key header streamHeader) w.logs⟩
  rw [hrecord]
  exact .createdPush ⟨hsize, ⟨request.bucketSize, hbucket, hheader⟩, hmeta, handle, key,
    streamHeader, hinit, rfl⟩ rfl

theorem record_created {request : PullRequest}
    (hparse : parsePull input = .ok request) (handle : UInt64) (logs : UInt64 → Log) :
    record 3 input (responseCreate ++ pushU64 handle) logs =
      update logs handle ⟨responseCreate ++ pushU64 handle, request.metadata, []⟩ := by
  have hhandle := handleOf_response handle []
  rw [List.append_nil] at hhandle
  rw [record, if_neg (by decide), if_neg (by decide), if_pos rfl, hparse]
  rw [hhandle]

theorem createPull_effect {w : World S} {entropy output : Bytes}
    (h : createPull input entropy w.table = (.ok output, table)) :
    Effect 3 input w ⟨table, record 3 input output w.logs⟩ := by
  obtain ⟨e, he, -⟩ | ⟨output', houtput, h⟩ := orUnchanged_cases h
  · cases he
  cases houtput
  simp only [ok_steps, Prod.mk.injEq] at h
  obtain ⟨request, hrequest, header, -, _, -, stream, -, _, -, ⟨handle, _⟩, halloc, rfl, rfl⟩ := h
  obtain rfl := allocateHandle_eq_ok halloc
  rw [record_created hrequest]
  exact .createdPull rfl

theorem parsePush_eq_ok {request : PushRequest}
    (h : parsePush input = .ok request) : request.plaintext.length ≤ attachmentChunkBytes := by
  obtain ⟨rest, hread⟩ := Reader.parse_eq_ok.mp h
  simp only [Reader.run_bind_eq_ok, Reader.failIf_run_eq_ok] at hread
  obtain ⟨_, _, -, _, _, -, _, _, -, _, _, -, _, _, ⟨hle, -⟩, hret⟩ := hread
  cases hret
  simpa using hle

theorem drop_responseChunk (flag : UInt8) (b : Bytes) : (responseChunk ++ [flag] ++ b).drop 9 = b ∧
      ((responseChunk ++ [flag] ++ b).drop 8).head? = some flag := by
  have hmagic : responseChunk.length = 8 := rfl
  constructor
  · have hlength : (responseChunk ++ [flag]).length = 9 := rfl
    rw [← hlength, List.drop_left]
  · rw [List.append_assoc, ← hmagic]
    rfl

variable (w : World S)

theorem pushChunk_effect (input : Bytes) :
    Effect 2 input w (w.settle 2 input (pushChunk input w.table)).2 := by
  unfold pushChunk
  cases hparse : parsePush input with
  | error e => exact .of_unchanged
  | ok request =>
    dsimp only
    cases hget : w.table.get request.handle with
    | none => exact .of_unchanged
    | some session =>
      cases session with
      | pull s => exact .of_unchanged
      | push s =>
        dsimp only
        cases hpush : s.push request.finalMessage request.plaintext with
        | mk result s' =>
          cases result with
          | error e => exact .pushFailed hget hpush
          | ok c =>
            show Effect 2 input w ⟨_, record 2 input (responseChunk ++ [0] ++ c) w.logs⟩
            have hrecord : record 2 input (responseChunk ++ [0] ++ c) w.logs =
                update w.logs request.handle ((w.logs request.handle).append
                  ⟨request.plaintext, c, request.finalMessage⟩) := by
              rw [record, if_neg (by decide), if_pos rfl, hparse, (drop_responseChunk 0 c).1]
            rw [hrecord]
            exact .pushed hget (parsePush_eq_ok hparse) hpush

theorem record_chunk {request : ChunkRequest}
    (hparse : parseChunk input = .ok request) (f : Bool) (p : Bytes) (logs : UInt64 → Log) :
    record 4 input (responseChunk ++ [if f then 1 else 0] ++ p) logs =
      update logs request.handle
        ((logs request.handle).append ⟨p, request.ciphertext, f⟩) := by
  have hflag : (some (if f then (1 : UInt8) else 0)).isEqSome 1 = f := by
    cases f <;> rfl
  obtain ⟨hdrop, hhead⟩ := drop_responseChunk (if f then 1 else 0) p
  rw [record, if_neg (by decide), if_neg (by decide), if_neg (by decide), if_pos rfl, hparse]
  rw [hdrop, hhead, hflag]

theorem pullChunk_effect (input : Bytes) :
    Effect 4 input w (w.settle 4 input (pullChunk input w.table)).2 := by
  unfold pullChunk
  cases hparse : parseChunk input with
  | error e => exact .of_unchanged
  | ok request =>
    dsimp only
    cases hget : w.table.get request.handle with
    | none => exact .of_unchanged
    | some session =>
      cases session with
      | push s => exact .of_unchanged
      | pull s =>
        dsimp only
        cases hpull : s.pull request.ciphertext with
        | mk result s' =>
          cases result with
          | error e => exact .pullFailed rfl hparse hget hpull
          | ok r =>
            obtain ⟨p, f⟩ := r
            show Effect 4 input w
              ⟨_, record 4 input (responseChunk ++ [if f then 1 else 0] ++ p) w.logs⟩
            rw [record_chunk hparse]
            exact .pulled hget hpull

theorem closeSession_effect (input : Bytes) :
    Effect 5 input w (w.settle 5 input (closeSession input w.table)).2 := by
  cases hclose : closeSession input w.table with
  | mk result table =>
    obtain ⟨e, rfl, rfl⟩ | ⟨output, rfl, h⟩ := orUnchanged_cases hclose
    · exact .of_unchanged
    obtain ⟨request, -, h⟩ := bind_eq_ok.mp h
    obtain ⟨session, -, h⟩ := bind_eq_ok.mp h
    obtain ⟨-, h⟩ := unit_bind_eq_ok.mp h
    cases h
    refine .keeps (fun h' s hs => ?_) ?_
    · change Sessions.get (w.table.remove request.handle) h' = some s at hs
      rw [Sessions.get_remove] at hs
      split at hs
      · cases hs
      · exact hs
    · rfl

theorem call_effect (op : UInt32) (input entropy : Bytes) :
    Effect op input w (w.call op input entropy).2 := by
  unfold World.call operation
  split
  · exact .of_unchanged
  split
  · next hop =>
    subst hop
    cases hcreate : createPush input entropy w.table with
    | mk result table =>
      obtain ⟨e, rfl, rfl⟩ | ⟨output, rfl, -⟩ := orUnchanged_cases hcreate
      · exact .of_unchanged
      · exact createPush_effect hcreate
  split
  · next hop =>
    subst hop
    exact pushChunk_effect w input
  split
  · next hop =>
    subst hop
    cases hcreate : createPull input entropy w.table with
    | mk result table =>
      obtain ⟨e, rfl, rfl⟩ | ⟨output, rfl, -⟩ := orUnchanged_cases hcreate
      · exact .of_unchanged
      · exact createPull_effect hcreate
  split
  · next hop =>
    subst hop
    exact pullChunk_effect w input
  split
  · next hop =>
    subst hop
    exact closeSession_effect w input
  split
  · next hop =>
    subst hop
    cases randomBytes input entropy with
    | error e => exact .of_unchanged
    | ok output => exact .keeps (fun _ _ h => h) rfl
  · exact .of_unchanged

/-! ## The invariant of a push session -/

section Sums

variable {chunks : List Chunk} {chunk : Chunk}

@[simp] theorem plaintextBytes_snoc :
    plaintextBytes (chunks ++ [chunk]) = plaintextBytes chunks + chunk.plaintext.length := by
  simp [plaintextBytes]

@[simp] theorem ciphertextBytes_snoc :
    ciphertextBytes (chunks ++ [chunk]) = ciphertextBytes chunks + chunk.ciphertext.length := by
  simp [ciphertextBytes]

end Sums

variable (S) in
/-- `chunks` are what `push` makes of their plaintexts, one after the other. -/
inductive Pushed (header : Bytes) (start : S.PushState) : List Chunk → S.PushState → Prop
  | nil : Pushed header start [] start
  | snoc {chunks : List Chunk} {s s' : S.PushState} {c : Chunk} (h : Pushed header start chunks s)
      (hpush : S.push s c.plaintext header c.finalMessage = .ok (c.ciphertext, s')) :
      Pushed header start (chunks ++ [c]) s'

/-- The last message is the only final one. -/
def EndsFinal (chunks : List Chunk) : Prop :=
  ∃ front last, chunks = front ++ [last] ∧ last.finalMessage = true ∧
    ∀ c ∈ front, c.finalMessage = false

/-- The counters of the session are the sums of what it emitted. -/
structure Emitted (s : PushSession S) (log : Log) (start : S.PushState) : Prop where
  pushed : Pushed S s.header.bytes.bytes start log.chunks s.stream
  plaintext : s.plaintextSeen = plaintextBytes log.chunks
  ciphertext : s.streamSeen = ciphertextBytes log.chunks
  chunk_le : ∀ c ∈ log.chunks, c.plaintext.length ≤ attachmentChunkBytes
  flags : s.finalSeen = false → ∀ c ∈ log.chunks, c.finalMessage = false
  final : s.finalSeen = true → EndsFinal log.chunks

structure PushInv (s : PushSession S) (log : Log) : Prop where
  emitted : ∃ start, Origin S s.header log start ∧
    (s.streamSeen ≤ s.header.streamSize.toNat → Emitted s log start)
  final : s.finalSeen = true →
    s.streamSeen ≤ s.header.streamSize.toNat ∧ s.plaintextSeen = s.header.plaintextSize.toNat

variable {stream : S.PushState} {log : Log}

theorem PushInv.created (horigin : Origin S header log stream) (hchunks : log.chunks = []) :
    PushInv ⟨stream, header, 0, 0, false⟩ log := by
  refine ⟨⟨stream, horigin, fun _ => ?_⟩, nofun⟩
  rw [show log = ⟨log.created, log.metadata, []⟩ from hchunks ▸ rfl]
  exact ⟨.nil, rfl, rfl, nofun, fun _ => nofun, nofun⟩

theorem Origin.append
    (h : Origin S header log stream) (c : Chunk) : Origin S header (log.append c) stream :=
  ⟨h.sized, h.made, h.metadata_le, h.created⟩

theorem PushInv.pushed (hinv : PushInv s log) (hle : p.length ≤ attachmentChunkBytes)
    (hpush : s.push f p = (.ok c, s')) : PushInv s' (log.append ⟨p, c, f⟩) := by
  obtain ⟨-, hall, hopen, hfits, stream, hstream, rfl⟩ := PushSession.push_ok hpush
  obtain ⟨start, horigin, hemitted⟩ := hinv.emitted
  have hbefore := hemitted (by omega)
  refine ⟨⟨start, horigin.append _, fun _ => ?_⟩, fun hf => ⟨hfits, hall hf⟩⟩
  constructor
  case pushed => exact .snoc hbefore.pushed hstream
  case plaintext => simp [Log.append, hbefore.plaintext]
  case ciphertext => simp [Log.append, hbefore.ciphertext]
  case chunk_le =>
    intro d hd
    obtain hd | hd := List.mem_append.mp hd
    · exact hbefore.chunk_le d hd
    · rw [List.mem_singleton.mp hd]
      exact hle
  case flags =>
    intro hf d hd
    obtain hd | hd := List.mem_append.mp hd
    · exact hbefore.flags hopen d hd
    · rw [List.mem_singleton.mp hd]
      exact hf
  case final =>
    intro hf
    exact ⟨log.chunks, _, rfl, hf, hbefore.flags hopen⟩

theorem PushInv.pushFailed (hinv : PushInv s log) (hpush : s.push f p = (.error e, s')) :
    PushInv s' log := by
  obtain rfl | ⟨hheader, hlong, hopen⟩ := PushSession.push_error hpush
  · exact hinv
  · obtain ⟨start, horigin, -⟩ := hinv.emitted
    refine ⟨⟨start, hheader ▸ horigin, fun hle => by omega⟩, fun hf => ?_⟩
    rw [hopen] at hf
    cases hf

/-! ## Invariants of the table -/

/-- `I` holds of every session and what was returned on its handle. -/
def World.All (I : Session S → Log → Prop) (w : World S) : Prop :=
  ∀ h s, w.table.get h = some s → I s (w.logs h)

section Table

variable {I : Session S → Log → Prop} {w : World S} {handle : UInt64} {log : Log}

theorem World.All.insert (hinv : w.All I) {new : Session S} (hnew : I new log) :
    World.All I ⟨(handle, new) :: w.table, update w.logs handle log⟩ := by
  intro h s hs
  rw [Sessions.get_cons] at hs
  show I s (update w.logs handle log h)
  split at hs
  · next heq =>
    cases hs
    rwa [heq, update_self]
  · next hne =>
    rw [update_of_ne hne]
    exact hinv h s hs

variable {old new : Session S}

theorem World.All.set (hinv : w.All I) (hget : w.table.get handle = some old) (hnew : I new log) :
    World.All I ⟨w.table.set handle new, update w.logs handle log⟩ := by
  intro h s hs
  rw [Sessions.get_set, hget] at hs
  show I s (update w.logs handle log h)
  split at hs
  · next heq =>
    cases hs
    rwa [heq, update_self]
  · next hne =>
    rw [update_of_ne hne]
    exact hinv h s hs

theorem World.All.setSession (hinv : w.All I)
    (hget : w.table.get handle = some old) (hnew : I new (w.logs handle)) :
    World.All I ⟨w.table.set handle new, w.logs⟩ := by
  have h := hinv.set hget hnew
  rwa [Function.update_eq_self] at h

end Table

/-- What `I` has to survive; `Early` says when a pull that fails is looked at. -/
structure Kept (I : Session S → Log → Prop) (Early : PullSession S → Bytes → Prop) : Prop where
  createdPush : ∀ {stream header log}, Origin S header log stream → log.chunks = [] →
    I (.push ⟨stream, header, 0, 0, false⟩) log
  createdPull : ∀ {stream header log}, log.chunks = [] →
    I (.pull ⟨stream, header, 0, 0, false⟩) log
  pushed : ∀ {s s' log f p c}, I (.push s) log → p.length ≤ attachmentChunkBytes →
    s.push f p = (.ok c, s') → I (.push s') (log.append ⟨p, c, f⟩)
  pushFailed : ∀ {s s' log f p e}, I (.push s) log → s.push f p = (.error e, s') → I (.push s') log
  pulled : ∀ {s s' log c p f}, I (.pull s) log → s.pull c = (.ok (p, f), s') →
    I (.pull s') (log.append ⟨p, c, f⟩)
  pullFailed : ∀ {s s' log c e}, I (.pull s) log → ¬ Early s c → s.pull c = (.error e, s') →
    I (.pull s') log

theorem Effect.all {I : Session S → Log → Prop} {Early : PullSession S → Bytes → Prop}
    (hkept : Kept I Early) {w w' : World S}
    (heffect : Effect op input w w') (hinv : w.All I)
    (hearly : op = 4 → ∀ request s, parseChunk input = .ok request →
      w.table.get request.handle = some (.pull s) → ¬ Early s request.ciphertext) : w'.All I := by
  cases heffect with
  | keeps htable hlogs =>
    intro h s hs
    rw [hlogs]
    exact hinv h s (htable _ _ hs)
  | createdPush horigin hchunks => exact hinv.insert (hkept.createdPush horigin hchunks)
  | createdPull hchunks => exact hinv.insert (hkept.createdPull hchunks)
  | pushed hget hle hpush => exact hinv.set hget (hkept.pushed (hinv _ _ hget) hle hpush)
  | pushFailed hget hpush => exact hinv.setSession hget (hkept.pushFailed (hinv _ _ hget) hpush)
  | pulled hget hpull => exact hinv.set hget (hkept.pulled (hinv _ _ hget) hpull)
  | pullFailed hop hparse hget hpull =>
    exact hinv.setSession hget
      (hkept.pullFailed (hinv _ _ hget) (hearly hop _ _ hparse hget) hpull)

/-- The invariant of push sessions; nothing is said of the others. -/
def PushI : Session S → Log → Prop
  | .push s, log => PushInv s log
  | .pull _, _ => True

theorem push_kept : Kept (S := S) PushI fun _ _ => False where
  createdPush := .created
  createdPull _ := trivial
  pushed hinv hle hpush := PushInv.pushed hinv hle hpush
  pushFailed hinv hpush := PushInv.pushFailed hinv hpush
  pulled _ _ := trivial
  pullFailed _ _ _ := trivial

theorem push_inductive : (system S).Inductive (World.All PushI) where
  init w hw h s hs := by
    rw [show w.table = [] from hw] at hs
    cases hs
  step w w' hinv hstep := by
    obtain ⟨op, input, entropy, rfl⟩ := hstep
    exact (call_effect w op input entropy).all push_kept hinv fun _ _ _ _ _ h => h

/-! ## The invariant of a pull session -/

structure PullInv (s : PullSession S) (log : Log) : Prop where
  plaintext : s.plaintextSeen = plaintextBytes log.chunks
  ciphertext : s.streamSeen = ciphertextBytes log.chunks
  final : s.finalSeen = true → s.streamSeen = s.header.streamSize.toNat ∧
    s.plaintextSeen = s.header.plaintextSize.toNat

def PullI : Session S → Log → Prop
  | .push _, _ => True
  | .pull s, log => PullInv s log

theorem pull_kept : Kept (S := S) PullI PullSession.EarlyFinal where
  createdPush _ _ := trivial
  createdPull hchunks := ⟨by rw [hchunks]; rfl, by rw [hchunks]; rfl, nofun⟩
  pushed _ _ _ := trivial
  pushFailed _ _ := trivial
  pulled := by
    intro s s' log c p f hinv hpull
    obtain ⟨-, hall, stream, -, rfl⟩ := PullSession.pull_ok hpull
    refine ⟨?_, ?_, hall⟩
    · simp [Log.append, hinv.plaintext]
    · simp [Log.append, hinv.ciphertext]
  pullFailed := by
    intro s s' log c e hinv hearly hpull
    obtain h | ⟨stream, rfl⟩ := PullSession.pull_error hpull
    · exact absurd h hearly
    · exact ⟨hinv.plaintext, hinv.ciphertext, hinv.final⟩

variable (S) in
/-- Any calls, but no pull session is handed a final message that comes too early. -/
def careful : System (World S) where
  init w := w.table = []
  step w w' := ∃ op input entropy, w' = (w.call op input entropy).2 ∧
    (op = 4 → ∀ request s, parseChunk input = .ok request →
      w.table.get request.handle = some (.pull s) → ¬ s.EarlyFinal request.ciphertext)

theorem pull_inductive : (careful S).Inductive (World.All PullI) where
  init w hw h s hs := by
    rw [show w.table = [] from hw] at hs
    cases hs
  step w w' hinv hstep := by
    obtain ⟨op, input, entropy, rfl, hearly⟩ := hstep
    exact (call_effect w op input entropy).all pull_kept hinv hearly

end CommPlatform.Attachment
