import CommPlatform.L3Protocol.ApplicationEvent

/-!
# Application events round trip

`ApplicationEvent.Admits` is what the two readers of `application.rs` check:
the reader of the CBOR that is sent and the reader of the projection frame
that Dart hands in. Both turn out to check the same, and to be the inverse
of their writer on the events that pass.
-/
namespace CommPlatform.Application

open CommPlatform.Core L1 L1.Decoder
open L1.Reader hiding failIf
open List (append_assoc append_nil flatten_cons length_append length_replicate)

/-! ## The events that pass -/

@[mk_iff]
structure AttachmentDescriptor.Admits (a : AttachmentDescriptor) : Prop where
  capabilityId : Fits capabilityIdLength capabilityIdLength true a.capabilityId
  capability : capabilityIdRefused a.capabilityId = false
  displayName : Fits 128 128 true a.displayName
  mimeType : Fits 128 128 true a.mimeType
  mediaKind : a.mediaKind ≤ 1
  caption : ∀ t, a.caption = some t → Fits maxTextBytes maxTextScalars true t
  thumbnail : (a.thumbnail.getD []).length ≤ 65536
  thumbnail_ne : a.thumbnail ≠ some []

@[mk_iff]
structure MessageCreate.Admits (m : MessageCreate) : Prop where
  contentType : m.contentType ≤ 2
  text : Fits maxTextBytes maxTextScalars (m.contentType == 0) m.text
  quoteFallback : ∀ t, m.quoteFallback = some t → Fits maxQuoteBytes maxQuoteScalars true t
  length_le : m.attachments.length ≤ 32
  attachments : ∀ a ∈ m.attachments, a.Admits
  empty : (m.contentType == 0) = m.attachments.isEmpty

@[mk_iff]
structure MessageEdit.Admits (m : MessageEdit) : Prop where
  revision : m.revision ≠ 0
  replacement : Fits maxTextBytes maxTextScalars true m.replacement

@[mk_iff]
structure ReactionSet.Admits (r : ReactionSet) : Prop where
  emoji : ∀ t, r.emoji = some t → Fits maxEmojiBytes maxEmojiBytes true t
  single : emojiRefused r.emoji = false

/-- At most `MAX_REFERENCES` ids, all different. -/
@[mk_iff]
structure IdsAdmit (ids : List Id) : Prop where
  length_le : ids.length ≤ maxReferences
  distinct : hasDuplicates ids = false

def EventBody.Admits (kind : UInt16) : EventBody → Prop
  | .messageCreate m => kind = kindMessageCreate ∧ m.Admits
  | .messageEdit m => kind = kindMessageEdit ∧ m.Admits
  | .messageDelete _ => kind = kindMessageDelete
  | .reactionSet r => kind = kindReactionSet ∧ r.Admits
  | .pinSet _ => kind = kindPinSet
  | .receipt ids => (kind = kindReceiptDelivered ∨ kind = kindReceiptRead) ∧ IdsAdmit ids ∧ ids ≠ []
  | .typingSet _ => kind = kindTypingSet
  | .unsupported => False

@[mk_iff]
structure EventHead.Admits (head : EventHead) : Prop where
  version : head.version = applicationVersion
  senderCounter : head.senderCounter ≠ 0
  references : IdsAdmit head.references

structure ApplicationEvent.Admits (event : ApplicationEvent) : Prop where
  head : event.toEventHead.Admits
  body : event.body.Admits event.kind

/-- Each reader of a body is the inverse of `write` on what its shape admits. -/
structure BodyReaders.Exact (r : BodyReaders) (write : EventBody → Bytes) : Prop where
  messageCreate : Core.Exact r.messageCreate MessageCreate.Admits fun m => write (.messageCreate m)
  messageEdit : Core.Exact r.messageEdit MessageEdit.Admits fun m => write (.messageEdit m)
  messageDelete : Core.Exact r.messageDelete (fun _ => True) fun t => write (.messageDelete t)
  reactionSet : Core.Exact r.reactionSet ReactionSet.Admits fun m => write (.reactionSet m)
  pinSet : Core.Exact r.pinSet (fun _ => True) fun p => write (.pinSet p)
  receipt : Core.Exact r.receipt (fun ids => IdsAdmit ids ∧ ids ≠ []) fun ids => write (.receipt ids)
  typingSet : Core.Exact r.typingSet (fun _ => True) fun t => write (.typingSet t)

/-- One branch of the match on the kind: `c` is the shape `kind` stands for. -/
theorem ofKind_exact {r : BodyReaders} {write : EventBody → Bytes} (h : r.Exact write)
    (kind : UInt16) : Exact (r.ofKind kind) (EventBody.Admits kind) write := by
  have hkinds : [kindMessageCreate, kindMessageEdit, kindMessageDelete, kindReactionSet, kindPinSet,
      kindReceiptDelivered, kindReceiptRead, kindTypingSet].Nodup := by decide
  simp only [List.nodup_cons, List.mem_cons, not_or, List.not_mem_nil] at hkinds
  unfold BodyReaders.ofKind
  split_ifs with hk hk hk hk hk hk hk
  · refine .branch h.messageCreate fun body => ?_
    cases body <;> simp_all [EventBody.Admits]
  · refine .branch h.messageEdit fun body => ?_
    cases body <;> simp_all [EventBody.Admits]
  · refine .branch h.messageDelete fun body => ?_
    cases body <;> simp_all [EventBody.Admits]
  · refine .branch h.reactionSet fun body => ?_
    cases body <;> simp_all [EventBody.Admits]
  · refine .branch h.pinSet fun body => ?_
    cases body <;> simp_all [EventBody.Admits]
  · refine .branch h.receipt fun body => ?_
    obtain rfl | rfl := hk <;> cases body <;> simp_all [EventBody.Admits]
  · refine .branch h.typingSet fun body => ?_
    cases body <;> simp_all [EventBody.Admits]
  · refine .failed fun body hbody => ?_
    cases body <;> simp_all [EventBody.Admits]

/-! ## CBOR -/

theorem thumbnail_iff {o : Option Bytes} {b : Bytes} :
    (if b = [] then none else some b) = o ↔ b = o.getD [] ∧ o ≠ some [] := by
  cases o with
  | none => cases b <;> simp
  | some x => cases b <;> simp +contextual [eq_comm]

theorem readCborAttachment_exact :
    Exact readCborAttachment AttachmentDescriptor.Admits encodeCborAttachment := by
  rintro input ⟨_, _, _, _, _, _, _, _, _, _, _, _, _, thumbnail⟩ rest
  simp only [AttachmentDescriptor.admits_iff]
  have hlength : (thumbnail.getD []).length ≤ 65536 → (thumbnail.getD []).length < 2 ^ 64 := by omega
  simp [readCborAttachment, encodeCborAttachment, Exact.bind_run, thumbnail_iff, encodeOptionalText,
    capabilityIdLength, maxTextBytes, -StateT.run_bind, -bind_pure_comp] at hlength ⊢
  tauto

theorem readMessageEdit_exact :
    Exact readMessageEdit MessageEdit.Admits fun m => bodyBytes (.messageEdit m) := by
  rintro input ⟨target, revision, replacement⟩ rest
  simp [readMessageEdit, Exact.bind_run, MessageEdit.admits_iff, bodyBytes, maxTextBytes,
    -StateT.run_bind, -bind_pure_comp]
  tauto

theorem readMessageDelete_exact :
    Exact readMessageDelete (fun _ => True) fun target => bodyBytes (.messageDelete target) := by
  intro input target rest
  simp [readMessageDelete, Exact.bind_run, bodyBytes, -StateT.run_bind]

theorem readReactionSet_exact :
    Exact readReactionSet ReactionSet.Admits fun r => bodyBytes (.reactionSet r) := by
  rintro input ⟨target, emoji⟩ rest
  simp [readReactionSet, Exact.bind_run, ReactionSet.admits_iff, bodyBytes, encodeOptionalText,
    maxEmojiBytes, -StateT.run_bind, -bind_pure_comp]
  tauto

theorem readPinSet_exact : Exact readPinSet (fun _ => True) fun p => bodyBytes (.pinSet p) := by
  rintro input ⟨target, pinned⟩ rest
  simp [readPinSet, Exact.bind_run, bodyBytes, -StateT.run_bind, -bind_pure_comp]

theorem readTypingSet_exact :
    Exact readTypingSet (fun _ => True) fun t => bodyBytes (.typingSet t) := by
  rintro input ⟨isTyping, expiresMs⟩ rest
  simp [readTypingSet, Exact.bind_run, bodyBytes, -StateT.run_bind, -bind_pure_comp]

theorem readIds_exact (count : Nat) : Exact (Reader.many (readExactBytes 16) count)
    (fun ids => ids.length = count) fun ids => ids.flatMap fun id => Cbor.bytes id.bytes :=
  (Reader.many_exact (readExactBytes_exact (by decide)) count).congr (fun ids => by simp)
    fun _ _ => rfl

theorem readReceipt_exact :
    Exact readReceipt (fun ids => IdsAdmit ids ∧ ids ≠ []) fun ids => bodyBytes (.receipt ids) := by
  intro input ids rest
  have hlength : ids.length ≤ maxReferences → ids.length < 2 ^ 64 := by unfold maxReferences; omega
  simp [readReceipt, Exact.bind_run, readIds_exact _ _ _ _, idsAdmit_iff, bodyBytes, encodeIds,
    -StateT.run_bind, -bind_pure_comp] at hlength ⊢
  tauto

theorem readAttachments_exact (mapLen : Nat) :
    Exact (readAttachments mapLen) (fun l => (mapLen = 6 ↔ l.isEmpty = false) ∧ l.length ≤ 32 ∧
      ∀ a ∈ l, a.Admits) encodeAttachments := by
  intro input l rest
  have hlength : l.length ≤ 32 → l.length < 2 ^ 64 := by omega
  unfold readAttachments
  split
  · next hsix =>
    cases l <;> simp [hsix, Exact.bind_run, Reader.many_exact readCborAttachment_exact _ _ _ _,
      encodeAttachments, -StateT.run_bind] at hlength ⊢
    tauto
  · next hsix => cases l <;> simp [hsix, encodeAttachments]

theorem toUInt64_eq_zero (v : UInt8) : (v.toUInt64 == 0) = (v == 0) := by
  rw [Bool.eq_iff_iff, beq_iff_eq, beq_iff_eq, ← UInt64.toNat_inj, ← UInt8.toNat_inj]
  simp

theorem readMessageCreate_exact :
    Exact readMessageCreate MessageCreate.Admits fun m => bodyBytes (.messageCreate m) := by
  rintro input ⟨messageId, contentType, text, replyTo, quoteFallback, attachments⟩ rest
  have htype : ∀ v : UInt64, v.toNat = contentType.toNat ↔ v = contentType.toUInt64 := fun v => by
    rw [← UInt64.toNat_inj, UInt8.toNat_toUInt64]
  have hle : contentType.toUInt64 ≤ 2 ↔ contentType ≤ 2 := by
    rfl
  -- the number of entries is the one the attachments ask for
  have hentries : ∀ n, (¬ n = 5 → n = 6) ∧ (n = 6 ↔ ¬ attachments = []) ↔
      n = if attachments = [] then 5 else 6 := fun n => by
    split
    · simp_all
      omega
    · simp_all
  simp [readMessageCreate, Exact.bind_run, readAttachments_exact _ _ _ _, bind_eq_ok, tryU8_eq_ok,
    htype, toUInt64_eq_zero, hle, MessageCreate.admits_iff, bodyBytes, encodeOptionalText,
    encodeOptionalId, maxTextBytes, maxQuoteBytes, -StateT.run_bind, -bind_pure_comp]
  constructor
  · rintro ⟨n, ⟨-, rfl⟩, hn, htype, htext, hquote, ⟨hsix, hrest⟩, hempty⟩
    rw [(hentries n).mp ⟨hn, hsix⟩]
    exact ⟨⟨htype, htext, hquote, hrest.1, hrest.2, hempty⟩, rfl⟩
  · rintro ⟨⟨htype, htext, hquote, hlength, hall, hempty⟩, rfl⟩
    obtain ⟨hn, hsix⟩ := (hentries _).mpr rfl
    exact ⟨_, ⟨by split <;> decide, rfl⟩, hn, htype, htext, hquote, ⟨hsix, hlength, hall⟩, hempty⟩

theorem decodeCborBody_exact (kind : UInt16) :
    Exact (decodeCborBody kind) (EventBody.Admits kind) bodyBytes :=
  ofKind_exact {
    messageCreate := readMessageCreate_exact
    messageEdit := readMessageEdit_exact
    messageDelete := readMessageDelete_exact
    reactionSet := readReactionSet_exact
    pinSet := readPinSet_exact
    receipt := readReceipt_exact
    typingSet := readTypingSet_exact } kind

/-- The entries of an event after the version. -/
def restBytes (head : EventHead) : Bytes := List.flatten [
  encodeKey 1, Cbor.bytes head.eventId.bytes,
  encodeKey 2, Cbor.bytes head.conversationId.bytes,
  encodeKey 3, Cbor.uint head.kind.toNat,
  encodeKey 4, Cbor.bytes head.senderUserId.bytes,
  encodeKey 5, Cbor.bytes head.senderDeviceId.bytes,
  encodeKey 6, Cbor.uint head.senderCounter.toNat,
  encodeKey 7, Cbor.uint head.createdMs.toNat,
  encodeKey 8, encodeIds head.references]

theorem readHead_exact : Exact (readHead applicationVersion) EventHead.Admits restBytes := by
  rintro input ⟨version, _, _, _, _, _, _, _, references⟩ rest
  have hlength : references.length ≤ maxReferences → references.length < 2 ^ 64 := by
    unfold maxReferences; omega
  simp [readHead, Exact.bind_run, readIds_exact _ _ _ _, EventHead.admits_iff, idsAdmit_iff, restBytes,
    encodeIds, -StateT.run_bind, -bind_pure_comp] at hlength ⊢
  tauto

/-- What an event with an admitted body is encoded as. -/
def cborBytes (event : ApplicationEvent) : Bytes :=
  headBytes event.toEventHead ++ (encodeKey 9 ++ bodyBytes event.body)

variable {kind : UInt16} {body : EventBody}

theorem EventBody.Admits.supported (h : body.Admits kind) : isSupportedKind kind = true := by
  cases body with
  | messageCreate m | messageEdit m => rw [h.1]; decide
  | messageDelete target => rw [show kind = _ from h]; decide
  | reactionSet r => rw [h.1]; decide
  | pinSet p => rw [show kind = _ from h]; decide
  | receipt ids =>
    obtain rfl | rfl := h.1
    · decide
    · decide
  | typingSet t => rw [show kind = _ from h]; decide
  | unsupported => exact h.elim

variable {event : ApplicationEvent}

theorem encodeEventBody_of_admits (h : body.Admits kind) :
    encodeEventBody body = .ok (bodyBytes body) := by
  cases body with
  | messageCreate m =>
    have hm : ¬ ((m.contentType == 0) != m.attachments.isEmpty) = true := by
      rw [h.2.empty]
      simp
    rw [encodeEventBody, failIf_neg hm]
    rfl
  | unsupported => exact h.elim
  | _ => rfl

theorem encodeEvent_of_admits (h : event.Admits) :
    encodeEvent event =
      if (cborBytes event).length ≤ applicationMaxIoBytes then .ok (cborBytes event)
      else .error .inputTooLarge := by
  rw [encodeEvent, encodeEventBody_of_admits h.body]
  change (failIf ((cborBytes event).length > maxCborBytes ∨
    (cborBytes event).length > applicationMaxIoBytes) CryptoError.inputTooLarge >>= fun _ =>
      pure (cborBytes event)) = _
  have hmax : applicationMaxIoBytes ≤ maxCborBytes := by decide
  split
  · next hle =>
    rw [failIf_neg (by omega)]
    rfl
  · next hgt =>
    rw [failIf_pos (by omega)]
    rfl

theorem headBytes_eq (head : EventHead) : headBytes head =
      Cbor.map 10 ++ (encodeKey 0 ++ (Cbor.uint head.version.toNat ++ restBytes head)) := rfl

variable {input : Bytes}

theorem decodeEvent_eq_ok (hkind : isSupportedKind event.kind = true) :
    decodeEvent input = .ok (some event, none) ↔
      event.Admits ∧ input = cborBytes event ∧ input.length ≤ applicationMaxIoBytes := by
  unfold decodeEvent
  rw [unit_bind_eq_ok, unit_bind_eq_ok, failIf_eq_ok, failIf_eq_ok, parse_eq_ok, not_lt]
  constructor
  · rintro ⟨-, hlength, rest, hread⟩
    obtain ⟨fields, mid₁, hmap, hread₁⟩ := Exact.bind_run.mp hread
    obtain ⟨-, hinput⟩ := readMapLen_exact.read hmap
    obtain ⟨_, mid₂, hkey, hread₂⟩ := Exact.bind_run.mp hread₁
    obtain ⟨-, rfl⟩ := (readKey_exact 0).read hkey
    obtain ⟨version, mid₃, hversion, hread₃⟩ := Exact.bind_run.mp hread₂
    obtain ⟨-, rfl⟩ := readU8_exact.read hversion
    split at hread₃
    · cases (Prod.mk.inj (Except.ok.inj hread₃)).1
    · next hv =>
      obtain rfl : version = applicationVersion := not_not.mp hv
      obtain ⟨_, _, hten, hread₄⟩ := Exact.bind_run.mp hread₃
      obtain ⟨hfields, rfl⟩ := failIf_run_eq_ok.mp hten
      obtain ⟨head, mid₅, hhead, hread₅⟩ := Exact.bind_run.mp hread₄
      obtain ⟨hadmits, rfl⟩ := readHead_exact.read hhead
      obtain ⟨_, mid₆, hnine, hread₆⟩ := Exact.bind_run.mp hread₅
      obtain ⟨-, rfl⟩ := (readKey_exact 9).read hnine
      obtain ⟨body, mid₇, hbody, hread₇⟩ := Exact.bind_run.mp hread₆
      obtain ⟨rfl, hret⟩ := finished_run_eq_ok.mp hread₇
      obtain ⟨hevent, rfl⟩ := Prod.mk.inj (Except.ok.inj hret)
      cases (Prod.mk.inj hevent).1
      rw [readBody, if_pos hkind] at hbody
      obtain ⟨hadmitsBody, rfl⟩ := (decodeCborBody_exact _).read hbody
      refine ⟨⟨hadmits, hadmitsBody⟩, ?_, hlength⟩
      rw [hinput, bne_eq_false_iff_eq.mp hfields, cborBytes, headBytes_eq, hadmits.version]
      simp only [append_assoc, append_nil]
  · rintro ⟨h, rfl, hlength⟩
    refine ⟨?_, hlength, [], ?_⟩
    · rw [cborBytes]
      exact Bool.false_ne_true
    · have hversion : event.version = applicationVersion := h.head.version
      have hbody : (readBody event.kind).run (bodyBytes event.body ++ []) =
          .ok (event.body, []) := by
        rw [readBody, if_pos hkind]
        exact (decodeCborBody_exact _).run h.body []
      rw [cborBytes, headBytes_eq, append_assoc, append_assoc, append_assoc,
        run_bind_of (readMapLen_exact.run (by decide) _),
        run_bind_of ((readKey_exact 0).run (a := ()) trivial _),
        run_bind_of (readU8_exact.run trivial _), if_neg (not_not.mpr hversion),
        run_bind_of (failIf_run_of (bne_self_eq_false 10)), hversion,
        run_bind_of (readHead_exact.run h.head _),
        run_bind_of ((readKey_exact 9).run (a := ()) trivial _), ← append_nil (bodyBytes _),
        run_bind_of hbody]
      exact finished_run_eq_ok.mpr ⟨rfl, rfl⟩

/-- What is decoded as an event of a supported kind is what the event is encoded as, and nothing
else is decoded as that event. -/
theorem event_encoding_canonical {input : Bytes}
    (hdecode : decodeEvent input = .ok (some event, none))
    (hkind : isSupportedKind event.kind = true) :
    encodeEvent event = .ok input ∧
      ∀ input', decodeEvent input' = .ok (some event, none) → input' = input := by
  obtain ⟨hadmits, rfl, hlength⟩ := (decodeEvent_eq_ok hkind).mp hdecode
  refine ⟨?_, fun input' hinput' => ?_⟩
  · rw [encodeEvent_of_admits hadmits, if_pos hlength]
  · exact ((decodeEvent_eq_ok hkind).mp hinput').2.1

def pinEvent : ApplicationEvent where
  version := 1
  eventId := .fill 16 1
  conversationId := .fill 32 2
  kind := kindPinSet
  senderUserId := .fill 16 3
  senderDeviceId := .fill 16 4
  senderCounter := 1
  createdMs := 1700000000000
  references := []
  body := .pinSet { target := .fill 16 5, pinned := true }

theorem pinEvent_admits : pinEvent.Admits := ⟨⟨rfl, by decide, by decide, by decide⟩, rfl⟩

theorem length_pinEvent : (cborBytes pinEvent).length ≤ applicationMaxIoBytes := by
  have hlength : (cborBytes pinEvent).length = 130 := rfl
  rw [hlength]
  decide

theorem event_encoding_canonical_pin :
    decodeEvent (cborBytes pinEvent) = .ok (some pinEvent, none) ∧
      encodeEvent pinEvent = .ok (cborBytes pinEvent) := by
  have hdecode : decodeEvent (cborBytes pinEvent) = .ok (some pinEvent, none) :=
    (decodeEvent_eq_ok rfl).mpr ⟨pinEvent_admits, rfl, length_pinEvent⟩
  exact ⟨hdecode, (event_encoding_canonical hdecode rfl).1⟩

/-! ## Projection frames -/

/-- The frame of a byte string of fewer than `2 ^ 32` bytes. -/
def frame (b : Bytes) : Bytes := be 4 b.length ++ b

theorem framedText_exact {maximumBytes : Nat} (h : maximumBytes ≤ maxInputBytes)
    (maximumScalars : Nat) (requireNonEmpty : Bool) :
    Exact (framedText maximumBytes maximumScalars requireNonEmpty)
      (Fits maximumBytes maximumScalars requireNonEmpty) fun t => frame t.bytes := by
  intro input t rest
  simp [framedText, Exact.bind_run, bind_eq_ok, okOr_eq_ok, Text.ofBytes?_eq_some, frame,
    -StateT.run_bind, -bind_pure_comp]
  constructor
  · rintro ⟨⟨-, hinput⟩, hlength, hne, hchars⟩
    exact ⟨⟨hlength, hchars, hne⟩, hinput⟩
  · rintro ⟨⟨hlength, hchars, hne⟩, hinput⟩
    exact ⟨⟨hlength.trans h, hinput⟩, hlength, hne, hchars⟩

/-- A flag, and the value after a one. -/
def flagged {α : Type} (w : α → Bytes) : Option α → Bytes
  | none => [0]
  | some a => [1] ++ w a

theorem optional_exact {α : Type} {x : Reader α} {P : α → Prop} {w : α → Bytes} (hx : Exact x P w) :
    Exact (optional x) (fun o => ∀ a, o = some a → P a) (flagged w) := by
  refine .of fun input o rest => ?_
  rw [optional, Exact.bind_run]
  constructor
  · rintro ⟨flag, mid, hflag, hread⟩
    obtain ⟨-, rfl⟩ := u8_exact.read hflag
    split at hread
    · next hzero =>
      subst hzero
      cases hread
      exact ⟨nofun, rfl⟩
    · split at hread
      · next hone =>
        subst hone
        obtain ⟨a, mid', hvalue, hret⟩ := Exact.bind_run.mp hread
        obtain ⟨ha, rfl⟩ := hx.read hvalue
        cases hret
        refine ⟨fun a' ha' => ?_, rfl⟩
        rw [← Option.some.inj ha']
        exact ha
      · cases hread
  · rintro ⟨ho, rfl⟩
    cases o with
    | none => exact ⟨0, rest, rfl, rfl⟩
    | some a =>
      exact ⟨1, w a ++ rest, rfl, Exact.bind_run.mpr ⟨a, rest, hx.run (ho a rfl) rest, rfl⟩⟩

section Equations

variable {maximumBytes maximumScalars : Nat} {input rest : Bytes}

@[simp] theorem framedText_run_eq_ok {requireNonEmpty : Bool} {t : Text}
    (h : maximumBytes ≤ 1048576) :
    (framedText maximumBytes maximumScalars requireNonEmpty).run input = .ok (t, rest) ↔
      Fits maximumBytes maximumScalars requireNonEmpty t ∧ input = frame t.bytes ++ rest :=
  framedText_exact h _ _ _ _ _

@[simp] theorem optionalText_run_eq_ok {o : Option Text} (h : maximumBytes ≤ 1048576) :
    (optionalText maximumBytes maximumScalars).run input = .ok (o, rest) ↔
      (∀ t, o = some t → Fits maximumBytes maximumScalars true t) ∧
        input = flagged (fun t => frame t.bytes) o ++ rest :=
  optional_exact (framedText_exact h _ _) _ _ _

@[simp] theorem optionalId_run_eq_ok {o : Option Id} :
    optionalId.run input = .ok (o, rest) ↔ input = flagged Block.bytes o ++ rest :=
  (optional_exact (array_exact 16) _ _ _).trans (and_iff_right fun _ _ => trivial)

end Equations

theorem optionalThumbnail_exact :
    Exact optionalThumbnail (fun o => o ≠ some [] ∧ (o.getD []).length ≤ 65536)
      fun o => frame (o.getD []) := by
  refine .of fun input o rest => ?_
  rw [optionalThumbnail, Exact.bind_run]
  constructor
  · rintro ⟨len, mid, hlen, hread⟩
    obtain ⟨-, rfl⟩ := u32_exact.read hlen
    obtain ⟨_, _, hcheck, hread₁⟩ := Exact.bind_run.mp hread
    obtain ⟨hle, rfl⟩ := failIf_run_eq_ok.mp hcheck
    rw [decide_eq_false_iff_not, not_lt] at hle
    split at hread₁
    · next hzero =>
      cases hread₁
      refine ⟨⟨nofun, Nat.zero_le _⟩, ?_⟩
      rw [pushU32, hzero]
      rfl
    · next hzero =>
      obtain ⟨b, mid', htake, hret⟩ := Exact.bind_run.mp hread₁
      obtain ⟨hb, rfl⟩ := (take_exact _).read htake
      cases hret
      refine ⟨⟨?_, hb.trans_le hle⟩, ?_⟩
      · rintro ⟨⟩
        exact hzero hb.symm
      · rw [pushU32, ← hb, Option.getD_some, frame, append_assoc]
  · rintro ⟨⟨hne, hle⟩, rfl⟩
    have hlen : (UInt32.ofNat (o.getD []).length).toNat = (o.getD []).length :=
      UInt32.toNat_ofNat_of_lt' (hle.trans_lt (by decide))
    have hread := u32_exact.run (a := UInt32.ofNat (o.getD []).length) trivial
      (o.getD [] ++ rest)
    rw [pushU32, hlen] at hread
    refine ⟨UInt32.ofNat (o.getD []).length, o.getD [] ++ rest, ?_, ?_⟩
    · rw [frame]
      exact hread
    · rw [hlen, run_bind_of (failIf_run_of (by simpa using hle))]
      cases o with
      | none => rfl
      | some b =>
        have hzero : ¬ b.length = 0 := fun h => hne (by rw [List.length_eq_zero_iff.mp h])
        rw [Option.getD_some, if_neg hzero]
        exact Exact.bind_run.mpr ⟨b, rest, (take_exact _).run rfl rest, rfl⟩

def attachmentFrame (a : AttachmentDescriptor) : Bytes := List.flatten [
  frame a.capabilityId.bytes, a.key.bytes, a.header.bytes, a.streamHeader.bytes,
  pushU64 a.encryptedSize, pushU64 a.bucketSize, pushU64 a.plaintextSize,
  frame a.displayName.bytes, frame a.mimeType.bytes, [a.mediaKind], pushU32 a.width,
  pushU32 a.height, flagged (fun t => frame t.bytes) a.caption, frame (a.thumbnail.getD [])]

theorem decodeProjectionAttachment_exact :
    Exact decodeProjectionAttachment AttachmentDescriptor.Admits attachmentFrame := by
  rintro input ⟨_, _, _, _, _, _, _, _, _, _, _, _, _, _⟩ rest
  simp [decodeProjectionAttachment, Exact.bind_run, optionalThumbnail_exact _ _ _,
    AttachmentDescriptor.admits_iff, attachmentFrame, capabilityIdLength, maxTextBytes,
    -StateT.run_bind, -bind_pure_comp]
  tauto

def countedFrame {α : Type} (w : α → Bytes) (l : List α) : Bytes :=
  [UInt8.ofNat l.length] ++ l.flatMap w

def bodyFrame : EventBody → Bytes
  | .messageCreate m => List.flatten [
      m.messageId.bytes, [m.contentType], frame m.text.bytes, flagged Block.bytes m.replyTo,
      flagged (fun t => frame t.bytes) m.quoteFallback,
      if m.attachments.isEmpty then [] else countedFrame attachmentFrame m.attachments]
  | .messageEdit m => List.flatten [m.target.bytes, pushU32 m.revision, frame m.replacement.bytes]
  | .messageDelete target => target.bytes
  | .reactionSet r => List.flatten [r.target.bytes, flagged (fun t => frame t.bytes) r.emoji]
  | .pinSet p => List.flatten [p.target.bytes, [if p.pinned then 1 else 0]]
  | .receipt ids => countedFrame Block.bytes ids
  | .typingSet t => List.flatten [[if t.isTyping then 1 else 0], pushU64 t.expiresMs]
  | .unsupported => []

theorem projectedAttachments_exact (contentType : UInt8) :
    Exact (projectedAttachments contentType) (fun l => (contentType = 0 → l = []) ∧
      l.length ≤ 32 ∧ ∀ a ∈ l, a.Admits)
      fun l => if contentType = 0 then [] else countedFrame attachmentFrame l := by
  intro input l rest
  have hlength : l.length ≤ 32 → l.length < 256 := by omega
  unfold projectedAttachments
  split
  · next hzero => cases l <;> simp [hzero]
  · next hzero =>
    simp [hzero, counted_exact decodeProjectionAttachment_exact _ _ _ _ _, countedFrame]
    tauto

theorem projectedMessageCreate_exact :
    Exact projectedMessageCreate MessageCreate.Admits fun m => bodyFrame (.messageCreate m) := by
  rintro input ⟨messageId, contentType, text, replyTo, quoteFallback, attachments⟩ rest
  have hempty : (contentType == 0) = attachments.isEmpty ↔ (contentType = 0 ↔ attachments = []) := by
    rw [Bool.eq_iff_iff, beq_iff_eq, List.isEmpty_iff]
  simp [projectedMessageCreate, Exact.bind_run, projectedAttachments_exact _ _ _ _,
    MessageCreate.admits_iff, bodyFrame, hempty, maxTextBytes, maxQuoteBytes,
    -StateT.run_bind, -bind_pure_comp]
  by_cases hzero : contentType = 0 <;> by_cases hnil : attachments = [] <;> simp [hzero, hnil]
  all_goals tauto

theorem projectedMessageEdit_exact :
    Exact projectedMessageEdit MessageEdit.Admits fun m => bodyFrame (.messageEdit m) := by
  rintro input ⟨target, revision, replacement⟩ rest
  simp [projectedMessageEdit, Exact.bind_run, MessageEdit.admits_iff, bodyFrame, maxTextBytes,
    -StateT.run_bind, -bind_pure_comp]
  tauto

theorem projectedReactionSet_exact :
    Exact projectedReactionSet ReactionSet.Admits fun r => bodyFrame (.reactionSet r) := by
  rintro input ⟨target, emoji⟩ rest
  simp [projectedReactionSet, Exact.bind_run, ReactionSet.admits_iff, bodyFrame, maxEmojiBytes,
    -StateT.run_bind, -bind_pure_comp]
  tauto

theorem projectedPinSet_exact :
    Exact projectedPinSet (fun _ => True) fun p => bodyFrame (.pinSet p) := by
  rintro input ⟨target, pinned⟩ rest
  simp [projectedPinSet, Exact.bind_run, bodyFrame, -StateT.run_bind, -bind_pure_comp]

theorem projectedTypingSet_exact :
    Exact projectedTypingSet (fun _ => True) fun t => bodyFrame (.typingSet t) := by
  rintro input ⟨isTyping, expiresMs⟩ rest
  simp [projectedTypingSet, Exact.bind_run, bodyFrame, -StateT.run_bind, -bind_pure_comp]

theorem projectedReceipt_exact :
    Exact projectedReceipt (fun ids => IdsAdmit ids ∧ ids ≠ []) fun ids => bodyFrame (.receipt ids) := by
  intro input ids rest
  have hlength : ids.length ≤ maxReferences → ids.length < 256 := by unfold maxReferences; omega
  simp [projectedReceipt, Exact.bind_run, counted_exact (array_exact 16) _ _ _ _ _,
    idsAdmit_iff, bodyFrame, countedFrame, -StateT.run_bind, -bind_pure_comp]
  tauto

theorem decodeProjectionBody_exact (kind : UInt16) :
    Exact (decodeProjectionBody kind) (EventBody.Admits kind) bodyFrame :=
  ofKind_exact {
    messageCreate := projectedMessageCreate_exact
    messageEdit := projectedMessageEdit_exact
    messageDelete := array_exact 16
    reactionSet := projectedReactionSet_exact
    pinSet := projectedPinSet_exact
    receipt := projectedReceipt_exact
    typingSet := projectedTypingSet_exact } kind

def headFrame (head : EventHead) : Bytes := List.flatten [
  [head.version], head.eventId.bytes, head.conversationId.bytes, pushU16 head.kind,
  head.senderUserId.bytes, head.senderDeviceId.bytes, pushU64 head.senderCounter,
  pushU64 head.createdMs, countedFrame Block.bytes head.references]

theorem projectedHead_exact : Exact projectedHead EventHead.Admits headFrame := by
  rintro input ⟨version, _, _, _, _, _, _, _, references⟩ rest
  have hlength : references.length ≤ maxReferences → references.length < 256 := by
    unfold maxReferences; omega
  simp [projectedHead, Exact.bind_run, counted_exact (array_exact 16) _ _ _ _ _,
    EventHead.admits_iff, idsAdmit_iff, headFrame, countedFrame, -StateT.run_bind, -bind_pure_comp]
  by_cases hversion : version = applicationVersion
  · subst hversion
    tauto
  · simp [hversion, Ne.symm hversion]

def projectionBytes (event : ApplicationEvent) : Bytes :=
  headFrame event.toEventHead ++ bodyFrame event.body

theorem decodeProjectionRequest_eq_ok : decodeProjectionRequest input = .ok event ↔
      event.Admits ∧ input = encodeRequestMagic ++ projectionBytes event := by
  rw [decodeProjectionRequest, parse_eq_ok]
  constructor
  · rintro ⟨rest, hread⟩
    obtain ⟨magic, mid₁, hmagic, hread₁⟩ := Exact.bind_run.mp hread
    obtain ⟨-, rfl⟩ := (take_exact _).read hmagic
    obtain ⟨_, _, hcheck, hread₂⟩ := Exact.bind_run.mp hread₁
    obtain ⟨hsame, rfl⟩ := failIf_run_eq_ok.mp hcheck
    obtain ⟨head, mid₂, hhead, hread₃⟩ := Exact.bind_run.mp hread₂
    obtain ⟨hadmits, rfl⟩ := projectedHead_exact.read hhead
    obtain ⟨body, mid₃, hbody, hread₄⟩ := Exact.bind_run.mp hread₃
    obtain ⟨hadmitsBody, rfl⟩ := (decodeProjectionBody_exact _).read hbody
    obtain ⟨rfl, hret⟩ := finished_run_eq_ok.mp hread₄
    cases hret
    rw [bne_eq_false_iff_eq.mp hsame, append_nil]
    exact ⟨⟨hadmits, hadmitsBody⟩, rfl⟩
  · rintro ⟨h, rfl⟩
    refine ⟨[], ?_⟩
    have hbody := (decodeProjectionBody_exact event.kind).run h.body []
    rw [append_nil] at hbody
    rw [run_bind_of ((take_exact _).run rfl _),
      run_bind_of (failIf_run_of (bne_self_eq_false _)), projectionBytes,
      run_bind_of (projectedHead_exact.run h.head _), run_bind_of hbody]
    exact finished_run_eq_ok.mpr ⟨rfl, rfl⟩

/-! ## The writer of the projection does not fail on them -/

variable {maximumBytes maximumScalars : Nat}

theorem pushFrame_of_fits {requireNonEmpty : Bool} {t : Text}
    (h : Fits maximumBytes maximumScalars requireNonEmpty t) (hmax : maximumBytes < 2 ^ 32) :
    pushFrame t.bytes = .ok (frame t.bytes) :=
  pushFrame_of_lt (h.length_le.trans_lt hmax)

theorem pushOptionalText_of_fits {o : Option Text}
    (h : ∀ t, o = some t → Fits maximumBytes maximumScalars true t) (hmax : maximumBytes < 2 ^ 32) :
    pushOptionalText o = .ok (flagged (fun t => frame t.bytes) o) := by
  cases o with
  | none => rfl
  | some t =>
    rw [pushOptionalText, pushFrame_of_fits (h t rfl) hmax]
    rfl

theorem pushProjectionAttachment_of_admits {a : AttachmentDescriptor} (h : a.Admits) :
    pushProjectionAttachment a = .ok (attachmentFrame a) := by
  have hlength : (a.thumbnail.getD []).length < 2 ^ 32 := h.thumbnail.trans_lt (by decide)
  rw [pushProjectionAttachment, pushFrame_of_fits h.capabilityId (by decide),
    pushFrame_of_fits h.displayName (by decide), pushFrame_of_fits h.mimeType (by decide),
    pushOptionalText_of_fits h.caption (by decide)]
  simp only [ok_bind]
  rw [tryU32_of_lt hlength, ok_bind, pushU32_ofNat hlength]
  rfl

theorem pushIds_of_lt {ids : List Id} (h : ids.length < 256) :
    pushIds ids = .ok (countedFrame Block.bytes ids) := by
  rw [pushIds, tryU8_of_lt h]
  rfl

theorem pushAttachments_of_admits {l : List AttachmentDescriptor} (hlength : l.length < 256)
    (h : ∀ a ∈ l, a.Admits) :
    pushAttachments l = .ok (if l.isEmpty then [] else countedFrame attachmentFrame l) := by
  have hframes : l.mapM pushProjectionAttachment = .ok (l.map attachmentFrame) := by
    induction l with
    | nil => rfl
    | cons a l ih =>
      obtain ⟨ha, hl⟩ := List.forall_mem_cons.mp h
      rw [List.mapM_cons, pushProjectionAttachment_of_admits ha, ok_bind,
        ih ((Nat.lt_succ_self _).trans hlength) hl]
      rfl
  unfold pushAttachments
  split
  · rfl
  · rw [tryU8_of_lt hlength, hframes, ok_bind, countedFrame, List.flatMap_def]
    rfl

theorem pushBody_of_admits (h : body.Admits kind) : pushBody body = .ok (bodyFrame body) := by
  cases body with
  | messageCreate m =>
    obtain ⟨-, hm⟩ := h
    rw [pushBody, pushFrame_of_fits hm.text (by decide),
      pushOptionalText_of_fits hm.quoteFallback (by decide),
      pushAttachments_of_admits (hm.length_le.trans_lt (by decide)) hm.attachments]
    cases hreply : m.replyTo with
    | none | some id => simp only [ok_bind, bodyFrame, hreply]; rfl
  | messageEdit m =>
    rw [pushBody, pushFrame_of_fits h.2.replacement (by decide)]
    rfl
  | messageDelete target => rfl
  | reactionSet r =>
    rw [pushBody, pushOptionalText_of_fits h.2.emoji (by decide)]
    rfl
  | pinSet p => rfl
  | receipt ids => exact pushIds_of_lt (h.2.1.length_le.trans_lt (by decide))
  | typingSet t => rfl
  | unsupported => rfl

theorem encodeProjection_of_admits (h : event.Admits) (output : Bytes) :
    encodeProjection event output =
      if (output ++ projectionBytes event).length ≤ applicationMaxIoBytes then
        .ok (output ++ projectionBytes event)
      else .error .inputTooLarge := by
  rw [encodeProjection, pushIds_of_lt (h.head.references.length_le.trans_lt (by decide)),
    pushBody_of_admits h.body, ok_bind, ok_bind]
  change (failIf ((output ++ projectionBytes event).length > applicationMaxIoBytes)
    CryptoError.inputTooLarge >>= fun _ => pure (output ++ projectionBytes event)) = _
  split
  · next hle =>
    rw [failIf_neg (by omega)]
    rfl
  · next hgt =>
    rw [failIf_pos (by omega)]
    rfl

variable {others : OtherOperations}

/-! ## Operations 1 and 2 -/

theorem operation_encode_eq_ok {input output : Bytes} : operation others 1 input = .ok output ↔
      ∃ event : ApplicationEvent, event.Admits ∧ input = encodeRequestMagic ++ projectionBytes event ∧
        input.length ≤ applicationMaxIoBytes ∧
        (cborBytes event).length ≤ applicationMaxIoBytes ∧
        output = encodeResponseMagic ++ cborBytes event := by
  have hreserve : ∀ n ≤ applicationMaxIoBytes, reserve (encodeResponseMagic.length + n) = .ok () := by
    intro n hn
    refine failIf_neg ?_
    have hmagic : encodeResponseMagic.length = 8 := by decide
    have hmax : applicationMaxIoBytes + 8 ≤ maxInputBytes := by decide
    omega
  change (failIf (input.length > applicationMaxIoBytes) CryptoError.inputTooLarge >>= fun _ =>
    encodeOperation input) = _ ↔ _
  rw [unit_bind_eq_ok, failIf_eq_ok, not_lt, encodeOperation]
  constructor
  · rintro ⟨hlength, h⟩
    obtain ⟨event, hevent, h⟩ := bind_eq_ok.mp h
    obtain ⟨hadmits, hinput⟩ := decodeProjectionRequest_eq_ok.mp hevent
    obtain ⟨encoded, hencoded, h⟩ := bind_eq_ok.mp h
    rw [encodeEvent_of_admits hadmits] at hencoded
    split at hencoded
    · next hcbor =>
      cases hencoded
      rw [hreserve _ hcbor] at h
      exact ⟨event, hadmits, hinput, hlength, hcbor, (Except.ok.inj h).symm⟩
    · cases hencoded
  · rintro ⟨event, hadmits, hinput, hlength, hcbor, rfl⟩
    refine ⟨hlength, ?_⟩
    rw [decodeProjectionRequest_eq_ok.mpr ⟨hadmits, hinput⟩, ok_bind, encodeEvent_of_admits hadmits,
      if_pos hcbor, ok_bind, hreserve _ hcbor]
    rfl

theorem operation_decode (h : event.Admits)
    (hcbor : (cborBytes event).length ≤ applicationMaxIoBytes) :
    operation others 2 (cborBytes event) =
      if (projectionBytes event).length + 9 ≤ applicationMaxIoBytes then
        .ok (decodeResponseMagic ++ [0] ++ projectionBytes event)
      else .error .inputTooLarge := by
  have hdecode := (decodeEvent_eq_ok h.body.supported).mpr ⟨h, rfl, hcbor⟩
  have hbody : event.body ≠ .unsupported := by
    intro hnone
    have hb := h.body
    rw [hnone] at hb
    exact hb
  change (failIf ((cborBytes event).length > applicationMaxIoBytes) CryptoError.inputTooLarge >>=
    fun _ => decodeOperation (cborBytes event)) = _
  rw [failIf_neg (not_lt.mpr hcbor), decodeOperation, hdecode, ok_bind]
  change encodeProjection event (decodeResponseMagic ++
    [if event.body = .unsupported then 1 else 0]) = _
  rw [if_neg hbody, encodeProjection_of_admits h]
  have hlength : (decodeResponseMagic ++ [0] ++ projectionBytes event).length =
      (projectionBytes event).length + 9 := by
    have hmagic : decodeResponseMagic.length = 8 := by decide
    rw [length_append, length_append, List.length_singleton]
    omega
  rw [hlength]

/-- Operation 2 gives back the projection that operation 1 encoded, unless the request already had
the largest length: the answer is one byte longer than the request. -/
theorem decode_undoes_encode {input output : Bytes} (h : operation others 1 input = .ok output) :
    operation others 2 (output.drop encodeResponseMagic.length) =
        .ok (decodeResponseMagic ++ [0] ++ input.drop encodeRequestMagic.length) ↔
      input.length < applicationMaxIoBytes := by
  obtain ⟨event, hadmits, rfl, hlength, hcbor, rfl⟩ := operation_encode_eq_ok.mp h
  have hrequest : (encodeRequestMagic ++ projectionBytes event).length =
      (projectionBytes event).length + 8 := by
    have hmagic : encodeRequestMagic.length = 8 := by decide
    rw [length_append, hmagic, Nat.add_comm]
  rw [List.drop_left, operation_decode hadmits hcbor, hrequest]
  split
  · next hle => exact iff_of_true rfl hle
  · next hgt => exact iff_of_false nofun hgt

def noOthers : OtherOperations := fun _ _ => .error .unsupportedOperation

def pinRequest : Bytes := encodeRequestMagic ++ projectionBytes pinEvent

theorem length_pinRequest : pinRequest.length < applicationMaxIoBytes := by
  have hlength : pinRequest.length = 125 := rfl
  rw [hlength]
  decide

theorem pinRequest_encodes :
    operation noOthers 1 pinRequest = .ok (encodeResponseMagic ++ cborBytes pinEvent) :=
  operation_encode_eq_ok.mpr
    ⟨pinEvent, pinEvent_admits, rfl, length_pinRequest.le, length_pinEvent, rfl⟩

theorem decode_undoes_encode_pin :
    operation noOthers 2 ((encodeResponseMagic ++ cborBytes pinEvent).drop
        encodeResponseMagic.length) =
      .ok (decodeResponseMagic ++ [0] ++ pinRequest.drop encodeRequestMagic.length) :=
  (decode_undoes_encode pinRequest_encodes).mpr length_pinRequest

def emptyFile : AttachmentDescriptor where
  capabilityId := ⟨List.replicate 43 0x41, by decide⟩
  key := .fill 32 0
  header := .fill 66 0
  streamHeader := .fill 24 0
  encryptedSize := 0
  bucketSize := 0
  plaintextSize := 0
  displayName := ⟨[0x61], by decide⟩
  mimeType := ⟨[0x61], by decide⟩
  mediaKind := 0
  width := 0
  height := 0
  caption := none
  thumbnail := none

def pictured : AttachmentDescriptor :=
  { emptyFile with thumbnail := some (List.replicate 65286 0) }

theorem pictured_admits : pictured.Admits where
  capabilityId := ⟨by decide, by decide, fun _ => by decide⟩
  capability := by decide
  displayName := ⟨by decide, by decide, fun _ => by decide⟩
  mimeType := ⟨by decide, by decide, fun _ => by decide⟩
  mediaKind := by decide
  caption := nofun
  thumbnail := by
    show (List.replicate 65286 (0 : UInt8)).length ≤ 65536
    rw [length_replicate]
    decide
  thumbnail_ne := by
    intro h
    have hlength := congrArg List.length (Option.some.inj h)
    rw [length_replicate] at hlength
    cases hlength

theorem length_withThumbnail (a : AttachmentDescriptor) (b : Bytes) :
    (encodeCborAttachment { a with thumbnail := some b }).length + 1 =
        (encodeCborAttachment { a with thumbnail := none }).length + (Cbor.bytes b).length ∧
      (attachmentFrame { a with thumbnail := some b }).length + 4 =
        (attachmentFrame { a with thumbnail := none }).length + (frame b).length := by
  have hbytes : (Cbor.bytes []).length = 1 := rfl
  have hframe : (frame []).length = 4 := rfl
  simp only [encodeCborAttachment, attachmentFrame, flatten_cons, List.flatten_nil,
    length_append, List.length_nil, Option.getD_some, Option.getD_none]
  omega

theorem length_pictured :
    (encodeCborAttachment pictured).length = 65488 ∧ (attachmentFrame pictured).length = 65503 := by
  have hcbor : (encodeCborAttachment emptyFile).length = 200 := rfl
  have hframe : (attachmentFrame emptyFile).length = 217 := rfl
  have hbytes : (Cbor.bytes (List.replicate 65286 0)).length = 3 + 65286 := by
    have hhead : (Cbor.head 2 65286).length = 3 := by decide
    rw [Cbor.bytes, length_append, length_replicate, hhead]
  have hthumbnail : (frame (List.replicate 65286 0)).length = 4 + 65286 := by
    rw [frame, length_append, length_replicate, length_be]
  have hempty : { emptyFile with thumbnail := none } = emptyFile := rfl
  have hlength := length_withThumbnail emptyFile (List.replicate 65286 0)
  rw [hbytes, hthumbnail, hempty, hframe] at hlength
  rw [pictured]
  omega

/-- A message with four such attachments: a request of 262144 bytes. -/
def largestEvent : ApplicationEvent where
  version := 1
  eventId := .fill 16 1
  conversationId := .fill 32 2
  kind := kindMessageCreate
  senderUserId := .fill 16 3
  senderDeviceId := .fill 16 4
  senderCounter := 1
  createdMs := 0
  references := []
  body := .messageCreate {
    messageId := .fill 16 5
    contentType := 1
    text := ⟨[], by decide⟩
    replyTo := none
    quoteFallback := none
    attachments := [pictured, pictured, pictured, pictured] }

theorem largestEvent_admits : largestEvent.Admits := by
  refine ⟨⟨rfl, by decide, by decide, by decide⟩, rfl, ?_⟩
  refine ⟨by decide, ⟨by decide, by decide, nofun⟩, nofun, by decide, fun a ha => ?_, rfl⟩
  have hpictured : a = pictured :=
    List.eq_of_mem_replicate (show a ∈ List.replicate 4 pictured from ha)
  rw [hpictured]
  exact pictured_admits

theorem length_largestEvent : (cborBytes largestEvent).length ≤ applicationMaxIoBytes ∧
      (projectionBytes largestEvent).length = 262136 := by
  have hhead : (headBytes largestEvent.toEventHead ++ encodeKey 9).length = 101 := rfl
  have hheadFrame : (headFrame largestEvent.toEventHead).length = 100 := rfl
  obtain ⟨hcbor, hframe⟩ := length_pictured
  constructor
  · rw [cborBytes, ← append_assoc, length_append]
    simp only [largestEvent, bodyBytes, encodeAttachments, flatten_cons, List.flatMap_cons,
      length_append, List.isEmpty_cons, if_neg Bool.false_ne_true, hcbor]
    exact Nat.le_of_ble_eq_true rfl
  · rw [projectionBytes, length_append]
    simp only [largestEvent, bodyFrame, countedFrame, List.isEmpty_cons, List.flatMap_cons,
      flatten_cons, length_append, if_neg Bool.false_ne_true, hframe]
    rfl

/-- Operation 1 accepts this event, and operation 2 refuses what operation 1 made of it. -/
theorem largest_request_not_decoded : ∃ output,
      operation noOthers 1 (encodeRequestMagic ++ projectionBytes largestEvent) = .ok output ∧
      operation noOthers 2 (output.drop encodeResponseMagic.length) = .error .inputTooLarge := by
  obtain ⟨hcbor, hprojection⟩ := length_largestEvent
  have hmagic : encodeRequestMagic.length = 8 := by decide
  have hmax : applicationMaxIoBytes = 262144 := by decide
  refine ⟨encodeResponseMagic ++ cborBytes largestEvent, operation_encode_eq_ok.mpr
    ⟨largestEvent, largestEvent_admits, rfl, ?_, hcbor, rfl⟩, ?_⟩
  · rw [length_append]
    omega
  · rw [List.drop_left, operation_decode largestEvent_admits hcbor, if_neg]
    omega

end CommPlatform.Application
