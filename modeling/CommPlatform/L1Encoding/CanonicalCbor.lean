import CommPlatform.Core.Cbor
import CommPlatform.L1Encoding.Protocol

/-!
# Deterministic CBOR

The readers and writers `application.rs` and the control events share. Each
reader looks at the first byte of the item before `minicbor` reads it, and
refuses a head that is not the shortest: `readHead_exact` says what this
check leaves, and one `_exact` lemma for each reader that it accepts exactly
what the encoder writes. `minicbor` itself is `Core.Cbor`.

Bare line numbers are those of `application.rs`.
-/
namespace CommPlatform.L1

open CommPlatform.Core
open Core.Cbor (head firstByte)
open L1.Reader hiding failIf

/-- The bytes after `decoder.position()`. -/
abbrev Decoder := Reader

namespace Decoder

/-- mirrors :1509-1515 -/
def peek : Decoder UInt8 := fun
  | b :: r => .ok (b, b :: r)
  | [] => .error .malformedInput

/-- mirrors :1517-1525 -/
def canonicalLengthHeader (first : UInt8) (length : Nat) (major : UInt8) : Bool :=
  if length ≤ 23 then first == (major <<< 5) ||| UInt8.ofNat length
  else if length ≤ 0xff then first == (major <<< 5) ||| 0x18
  else if length ≤ 0xffff then first == (major <<< 5) ||| 0x19
  else if length ≤ 0xffffffff then first == (major <<< 5) ||| 0x1a
  else first == (major <<< 5) ||| 0x1b

/-- The first byte does not start a definite item of type `major`. -/
def wrongHead (first major : UInt8) : Bool :=
  first >>> 5 != major || first &&& 0x1f == 0x1f

/-- The family of readers below: an item `x` of type `major` whose head, for the argument `len`
finds in the item, has to be the shortest. -/
def readItem {α : Type} (major : UInt8) (x : Decoder α) (len : α → Nat) : Decoder α := do
  let first ← peek
  Reader.failIf (wrongHead first major) .malformedInput
  let a ← x
  Reader.failIf (!canonicalLengthHeader first (len a) major) .malformedInput
  return a

/-- mirrors :1368-1380 -/
def readMapLen : Decoder Nat := readItem 5 (Cbor.Decode.map .malformedInput) id

/-- mirrors :1361-1366 -/
def readExactMap (expected : Nat) : Decoder Unit := do
  let n ← readMapLen
  Reader.failIf (n != expected) .malformedInput

/-- mirrors :1389-1406; the match on the value is the
one of `canonicalLengthHeader` for type 0 -/
def readUint : Decoder UInt64 := do
  let n ← readItem 0 (Cbor.Decode.uint .malformedInput) id
  return UInt64.ofNat n

/-- `u8::try_from(read_uint(decoder)?)`, an overflow mapped to `MalformedInput`. -/
def readU8 : Decoder UInt8 := do
  let value ← readUint
  tryU8 value.toNat .malformedInput

def readU16 : Decoder UInt16 := do
  let value ← readUint
  tryU16 value.toNat .malformedInput

def readU32 : Decoder UInt32 := do
  let value ← readUint
  tryU32 value.toNat .malformedInput

/-- mirrors :1382-1387 -/
def readKey (expected : UInt8) : Decoder Unit := do
  let key ← readUint
  Reader.failIf (key != expected.toUInt64) .malformedInput

/-- mirrors :1189-1194 -/
def encodeKey (key : UInt8) : Bytes := Cbor.uint key.toNat

/-- mirrors :1408-1429; the match on the length is the
one of `canonicalLengthHeader` for type 4 -/
def readArrayLen : Decoder Nat := readItem 4 (Cbor.Decode.array .malformedInput) id

/-- mirrors :1438-1448 -/
def readBytes : Decoder Bytes := readItem 2 (Cbor.Decode.bytes .malformedInput) List.length

/-- mirrors :1431-1436 -/
def readExactBytes (n : Nat) : Decoder (Block n) := do
  let b ← readBytes
  if h : b.length = n then return ⟨b, h⟩ else throw .malformedInput

/-- mirrors :1450-1471 -/
def readText (maximumBytes maximumScalars : Nat) (requireNonEmpty : Bool) : Decoder Text := do
  let t ← readItem 3 (Cbor.Decode.str .malformedInput) (·.bytes.length)
  Reader.failIf (t.bytes.length > maximumBytes || t.chars.length > maximumScalars) .inputTooLarge
  Reader.failIf (requireNonEmpty && t.bytes.isEmpty) .malformedInput
  return t

/-- `null` or what `x` reads; mirrors :1473-1493 -/
def readNullable {α : Type} (x : Decoder α) : Decoder (Option α) := do
  let first ← peek
  if first = 0xf6 then
    Cbor.Decode.null .malformedInput
    return none
  else
    let a ← x
    return some a

/-- mirrors :1473-1480 -/
def readNullableId : Decoder (Option (Block 16)) := readNullable (readExactBytes 16)

/-- mirrors :1482-1493 -/
def readNullableText (maximumBytes maximumScalars : Nat) : Decoder (Option Text) :=
  readNullable (readText maximumBytes maximumScalars true)

/-- mirrors :1495-1507 -/
def readBool : Decoder Bool := do
  let first ← peek
  if first = 0xf4 then
    let _ ← Cbor.Decode.bool .malformedInput
    return false
  else if first = 0xf5 then
    let _ ← Cbor.Decode.bool .malformedInput
    return true
  else throw .malformedInput

/-! ## What the readers accept -/

variable {major : Nat} {n : Nat}

theorem shift_or {major k : Nat} (hmajor : major < 8) (hk : k < 32) :
    (UInt8.ofNat major <<< 5) ||| UInt8.ofNat k = UInt8.ofNat (major * 32 + k) := by
  have hall : ∀ (m : Fin 8) (k : Fin 32), (UInt8.ofNat m <<< 5) ||| UInt8.ofNat k =
      UInt8.ofNat (m * 32 + k) := by decide +kernel
  exact hall ⟨major, hmajor⟩ ⟨k, hk⟩

variable {first : UInt8}

theorem canonicalLengthHeader_iff (hmajor : major < 8) :
    canonicalLengthHeader first n (UInt8.ofNat major) = true ↔ first = firstByte major n := by
  have hlow : ∀ k < 32, (first == (UInt8.ofNat major <<< 5) ||| UInt8.ofNat k) = true ↔
      first = UInt8.ofNat (major * 32 + k) := by
    intro k hk
    rw [beq_iff_eq, shift_or hmajor hk]
  unfold canonicalLengthHeader firstByte Cbor.info
  by_cases h₀ : n < 24
  · rw [if_pos (Nat.le_of_lt_succ h₀), if_pos h₀]
    exact hlow n (by omega)
  · rw [if_neg (by omega), if_neg h₀]
    by_cases h₁ : n < 2 ^ 8
    · rw [if_pos (Nat.le_of_lt_succ h₁), if_pos h₁]
      exact hlow 24 (by decide)
    · rw [if_neg (by omega), if_neg h₁]
      by_cases h₂ : n < 2 ^ 16
      · rw [if_pos (Nat.le_of_lt_succ h₂), if_pos h₂]
        exact hlow 25 (by decide)
      · rw [if_neg (by omega), if_neg h₂]
        by_cases h₃ : n < 2 ^ 32
        · rw [if_pos (Nat.le_of_lt_succ h₃), if_pos h₃]
          exact hlow 26 (by decide)
        · rw [if_neg (by omega), if_neg h₃]
          exact hlow 27 (by decide)

theorem wrongHead_firstByte (hmajor : major < 8) (n : Nat) :
    wrongHead (firstByte major n) (UInt8.ofNat major) = false := by
  have hhigh : firstByte major n >>> 5 = UInt8.ofNat major := by
    rw [← UInt8.toNat_inj, UInt8.toNat_shiftRight, UInt8.toNat_ofNat']
    simp only [UInt8.reduceToNat, Nat.reduceMod, Nat.shiftRight_eq_div_pow]
    rw [Cbor.firstByte_div hmajor n]
    omega
  have hlow : firstByte major n &&& 0x1f ≠ 0x1f := by
    intro h
    have hnat := congrArg UInt8.toNat h
    rw [UInt8.toNat_and, show (0x1f : UInt8).toNat = 2 ^ 5 - 1 from rfl,
      Nat.and_two_pow_sub_one_eq_mod, Cbor.firstByte_mod hmajor n] at hnat
    have hlt := Cbor.info_lt n
    omega
  simp [wrongHead, hhigh, hlow]

variable {α : Type} {x : Decoder α}

/-- An item whose bytes start with the shortest head of `len`. -/
theorem readItem_exact (hmajor : major < 8) {len : α → Nat} {P : α → Prop} {w : α → Bytes}
    (hx : ∀ b tail a rest, x.run (b :: tail) = .ok (a, rest) ∧ b = firstByte major (len a) ↔
      P a ∧ b :: tail = w a ++ rest) (hw : ∀ a, w a ≠ []) :
    Exact (readItem (UInt8.ofNat major) x len) P w := by
  intro input a rest
  cases input with
  | nil =>
    constructor
    · intro h
      cases h
    · rintro ⟨-, h⟩
      exact absurd (List.append_eq_nil_iff.mp h.symm).1 (hw a)
  | cons b tail =>
    have hpeek : peek.run (b :: tail) = .ok (b, b :: tail) := rfl
    rw [readItem, run_bind_of hpeek]
    constructor
    · intro h
      obtain ⟨_, _, hcheck, hrest⟩ := run_bind_eq_ok.mp h
      obtain ⟨-, rfl⟩ := failIf_run_eq_ok.mp hcheck
      obtain ⟨a', mid, hread, hlast⟩ := run_bind_eq_ok.mp hrest
      obtain ⟨_, _, hcanonical, hret⟩ := run_bind_eq_ok.mp hlast
      obtain ⟨hfirst, rfl⟩ := failIf_run_eq_ok.mp hcanonical
      cases hret
      rw [Bool.not_eq_false', canonicalLengthHeader_iff hmajor] at hfirst
      exact (hx _ _ _ _).mp ⟨hread, hfirst⟩
    · intro h
      obtain ⟨hread, hfirst⟩ := (hx _ _ _ _).mpr h
      have hcanonical := (canonicalLengthHeader_iff hmajor).mpr hfirst
      have hhead : wrongHead b (UInt8.ofNat major) = false := by
        rw [hfirst]
        exact wrongHead_firstByte hmajor _
      rw [run_bind_of (failIf_run_of hhead), run_bind_of hread,
        run_bind_of (failIf_run_of (by rw [hcanonical]; rfl))]
      rfl

theorem readHead_exact (hmajor : major < 8) :
    Exact (readItem (UInt8.ofNat major) (Cbor.Decode.item .malformedInput major) id)
      (fun n => n < 2 ^ 64) (head major) :=
  readItem_exact hmajor (fun _ _ _ _ => Cbor.item_run _ hmajor) fun _ => List.cons_ne_nil _ _

theorem readMapLen_exact : Exact readMapLen (fun n => n < 2 ^ 64) Cbor.map :=
  readHead_exact (by decide)

theorem readArrayLen_exact : Exact readArrayLen (fun n => n < 2 ^ 64) Cbor.array :=
  readHead_exact (by decide)

theorem readUint_exact : Exact readUint (fun _ => True) fun v => Cbor.uint v.toNat := by
  intro input v rest
  rw [readUint, Exact.bind_run]
  constructor
  · rintro ⟨n, mid, hread, hret⟩
    obtain ⟨hn, rfl⟩ := (readHead_exact (by decide)).read hread
    obtain ⟨rfl, rfl⟩ := Exact.pure_run.mp hret
    dsimp only
    rw [UInt64.toNat_ofNat_of_lt' hn]
    exact ⟨trivial, rfl⟩
  · rintro ⟨-, rfl⟩
    exact ⟨v.toNat, rest, (readHead_exact (by decide)).run v.toNat_lt rest,
      Exact.pure_run.mpr ⟨UInt64.ofNat_toNat.symm, rfl⟩⟩

theorem readExactMap_exact (hn : n < 2 ^ 64) :
    Exact (readExactMap n) (fun _ => True) fun _ => Cbor.map n := by
  intro input u rest
  rw [readExactMap, Exact.bind_run]
  constructor
  · rintro ⟨m, mid, hread, hcheck⟩
    obtain ⟨-, rfl⟩ := readMapLen_exact.read hread
    obtain ⟨hm, rfl⟩ := failIf_run_eq_ok.mp hcheck
    exact ⟨trivial, by rw [bne_eq_false_iff_eq.mp hm]⟩
  · rintro ⟨-, rfl⟩
    exact ⟨n, rest, (readMapLen_exact _ _ _).mpr ⟨hn, rfl⟩,
      failIf_run_eq_ok.mpr ⟨bne_eq_false_iff_eq.mpr rfl, rfl⟩⟩

theorem readKey_exact (k : UInt8) : Exact (readKey k) (fun _ => True) fun _ => encodeKey k := by
  intro input u rest
  rw [readKey, Exact.bind_run]
  constructor
  · rintro ⟨m, mid, hread, hcheck⟩
    obtain ⟨-, rfl⟩ := readUint_exact.read hread
    obtain ⟨hm, rfl⟩ := failIf_run_eq_ok.mp hcheck
    rw [bne_eq_false_iff_eq.mp hm]
    exact ⟨trivial, rfl⟩
  · rintro ⟨-, rfl⟩
    exact ⟨k.toUInt64, rest, (readUint_exact _ _ _).mpr ⟨trivial, rfl⟩,
      failIf_run_eq_ok.mpr ⟨bne_eq_false_iff_eq.mpr rfl, rfl⟩⟩

variable {e : CryptoError}

theorem string_run (hmajor : major < 8) {tail b rest : Bytes} :
    (Cbor.Decode.item e major >>= takeFront e).run (first :: tail) = .ok (b, rest) ∧
        first = firstByte major b.length ↔
      b.length < 2 ^ 64 ∧ first :: tail = (head major b.length ++ b) ++ rest := by
  rw [Exact.bind_run]
  constructor
  · rintro ⟨⟨n, mid, hitem, htake⟩, hfirst⟩
    obtain ⟨rfl, rfl⟩ := (takeFront_exact _ _ _ _ _).mp htake
    obtain ⟨hlt, heq⟩ := (Cbor.item_run _ hmajor).mp ⟨hitem, hfirst⟩
    exact ⟨hlt, by rw [heq, List.append_assoc]⟩
  · rintro ⟨hlt, heq⟩
    rw [List.append_assoc] at heq
    obtain ⟨hitem, hfirst⟩ := (Cbor.item_run e hmajor).mpr ⟨hlt, heq⟩
    exact ⟨⟨b.length, b ++ rest, hitem, (takeFront_exact _ _ _ _ _).mpr ⟨rfl, rfl⟩⟩, hfirst⟩

theorem readBytes_exact : Exact readBytes (fun b => b.length < 2 ^ 64) Cbor.bytes :=
  readItem_exact (by decide) (fun _ _ _ _ => string_run (by decide)) fun _ => List.cons_ne_nil _ _

theorem readExactBytes_exact (hn : n < 2 ^ 64) :
    Exact (readExactBytes n) (fun _ => True) fun b => Cbor.bytes b.bytes := by
  intro input b rest
  rw [readExactBytes, Exact.bind_run]
  constructor
  · rintro ⟨x, mid, hread, hret⟩
    obtain ⟨-, rfl⟩ := readBytes_exact.read hread
    split at hret
    · cases hret
      exact ⟨trivial, rfl⟩
    · cases hret
  · rintro ⟨-, rfl⟩
    refine ⟨b.bytes, rest, (readBytes_exact _ _ _).mpr ⟨?_, rfl⟩, ?_⟩
    · show b.bytes.length < 2 ^ 64
      rw [b.length_bytes]
      exact hn
    · rw [dif_pos b.length_bytes]
      rfl

theorem narrow_exact {narrow : Nat → CryptoResult α} {toNat : α → Nat}
    (hnarrow : ∀ n a, narrow n = .ok a ↔ n = toNat a) (hlt : ∀ a, toNat a < 2 ^ 64) :
    Exact (readUint >>= fun value => (narrow value.toNat : CryptoResult α)) (fun _ => True)
      fun a => Cbor.uint (toNat a) := by
  intro input a rest
  rw [Exact.bind_run]
  constructor
  · rintro ⟨v, mid, hread, hnext⟩
    obtain ⟨-, rfl⟩ := readUint_exact.read hread
    obtain ⟨ha, rfl⟩ := (lift_exact _ _ _ _).mp hnext
    rw [(hnarrow _ _).mp ha]
    exact ⟨trivial, rfl⟩
  · rintro ⟨-, rfl⟩
    have hback := UInt64.toNat_ofNat_of_lt' (hlt a)
    refine ⟨UInt64.ofNat (toNat a), rest, readUint_exact.iff.mpr (by rw [hback]),
      (lift_exact _ _ _ _).mpr ⟨(hnarrow _ _).mpr hback, rfl⟩⟩

theorem readU8_exact : Exact readU8 (fun _ => True) fun v => Cbor.uint v.toNat :=
  narrow_exact (fun _ _ => tryU8_eq_ok) fun a => a.toNat_lt.trans (by decide)

theorem readU16_exact : Exact readU16 (fun _ => True) fun v => Cbor.uint v.toNat :=
  narrow_exact (fun _ _ => tryU16_eq_ok') fun a => a.toNat_lt.trans (by decide)

theorem readU32_exact : Exact readU32 (fun _ => True) fun v => Cbor.uint v.toNat :=
  narrow_exact (fun _ _ => tryU32_eq_ok') fun a => a.toNat_lt.trans (by decide)

/-- What a text field admits. -/
structure Fits (maximumBytes maximumScalars : Nat) (requireNonEmpty : Bool) (t : Text) : Prop where
  length_le : t.bytes.length ≤ maximumBytes
  chars_le : t.chars.length ≤ maximumScalars
  nonEmpty : requireNonEmpty = true → t.bytes ≠ []

theorem str_run {input rest : Bytes} {t : Text} : (Cbor.Decode.str e).run input = .ok (t, rest) ↔
      (Cbor.Decode.item e 3 >>= takeFront e).run input = .ok (t.bytes, rest) := by
  rw [Cbor.Decode.str, Exact.bind_run, Exact.bind_run]
  refine exists_congr fun n => exists_congr fun mid => and_congr_right fun _ => ?_
  rw [Exact.bind_run]
  constructor
  · rintro ⟨b, mid', htake, hret⟩
    split at hret
    · next ht =>
      cases hret
      rw [← Text.ofBytes?_eq_some.mp ht]
      exact htake
    · cases hret
  · intro htake
    refine ⟨t.bytes, rest, htake, ?_⟩
    rw [Text.ofBytes?_eq_some.mpr rfl]
    rfl

variable {maximumBytes : Nat}

theorem readText_exact (h : maximumBytes < 2 ^ 64) (maximumScalars : Nat) (requireNonEmpty : Bool) :
    Exact (readText maximumBytes maximumScalars requireNonEmpty)
      (Fits maximumBytes maximumScalars requireNonEmpty) Cbor.str := by
  have hitem : Exact (readItem 3 (Cbor.Decode.str .malformedInput) (·.bytes.length))
      (fun t : Text => t.bytes.length < 2 ^ 64) Cbor.str := by
    refine readItem_exact (by decide) (fun b tail t rest => ?_) fun _ => List.cons_ne_nil _ _
    rw [str_run]
    exact string_run (by decide)
  intro input t rest
  simp only [readText, Exact.bind_run, hitem _ _ _, failIf_run_eq_ok, Exact.pure_run]
  constructor
  · rintro ⟨t, mid, ⟨-, rfl⟩, _, _, ⟨hsize, rfl⟩, _, _, ⟨hne, rfl⟩, rfl, rfl⟩
    simp only [Bool.or_eq_false_iff, decide_eq_false_iff_not, not_lt] at hsize
    exact ⟨⟨hsize.1, hsize.2, by simpa using hne⟩, rfl⟩
  · rintro ⟨⟨hlength, hchars, hne⟩, rfl⟩
    exact ⟨t, rest, ⟨hlength.trans_lt h, rfl⟩, (), rest, ⟨by simp [hlength, hchars], rfl⟩, (), rest,
      ⟨by simpa using hne, rfl⟩, rfl, rfl⟩

def nullable {α : Type} (w : α → Bytes) : Option α → Bytes
  | none => Cbor.null
  | some a => w a

theorem firstByte_ne_null (h : major < 7) (n : Nat) : firstByte major n ≠ 0xf6 := by
  intro heq
  have hdiv := Cbor.firstByte_div (h.trans (by decide)) n
  rw [heq] at hdiv
  exact absurd hdiv.symm (Nat.ne_of_lt h)

theorem readNullable_exact {P : α → Prop} {w : α → Bytes}
    (hx : Exact x P w) (hmajor : major < 7) (len : α → Nat)
    (hw : ∀ a, ∃ r, w a = firstByte major (len a) :: r) :
    Exact (readNullable x) (fun o => ∀ a, o = some a → P a) (nullable w) := by
  intro input o rest
  rw [readNullable, Exact.bind_run]
  constructor
  · rintro ⟨first, mid, hpeek, hrest⟩
    cases input with
    | nil => cases hpeek
    | cons b tail =>
      cases hpeek
      split at hrest
      · next hb =>
        subst hb
        cases hrest
        exact ⟨nofun, rfl⟩
      · obtain ⟨a, mid', hread, hret⟩ := Exact.bind_run.mp hrest
        cases hret
        obtain ⟨ha, heq⟩ := hx.read hread
        refine ⟨fun a' ha' => ?_, heq⟩
        rw [← Option.some.inj ha']
        exact ha
  · rintro ⟨ho, rfl⟩
    cases o with
    | none => exact ⟨0xf6, _, rfl, rfl⟩
    | some a =>
      obtain ⟨r, hr⟩ := hw a
      have hread := hx.run (ho a rfl) rest
      refine ⟨firstByte major (len a), w a ++ rest, ?_, ?_⟩
      · show peek.run (w a ++ rest) = _
        rw [hr]
        rfl
      · rw [if_neg (firstByte_ne_null hmajor _)]
        exact Exact.bind_run.mpr ⟨a, rest, hread, rfl⟩

theorem readBool_exact : Exact readBool (fun _ => True) Cbor.bool := by
  intro input b rest
  rw [readBool, Exact.bind_run]
  constructor
  · rintro ⟨first, mid, hpeek, hrest⟩
    cases input with
    | nil => cases hpeek
    | cons c tail =>
      cases hpeek
      split at hrest
      · next hc =>
        subst hc
        cases hrest
        exact ⟨trivial, rfl⟩
      · split at hrest
        · next hc =>
          subst hc
          cases hrest
          exact ⟨trivial, rfl⟩
        · cases hrest
  · rintro ⟨-, rfl⟩
    cases b with
    | false => exact ⟨0xf4, _, rfl, rfl⟩
    | true => exact ⟨0xf5, _, rfl, rfl⟩

theorem readNullableId_exact :
    Exact readNullableId (fun _ => True) (nullable fun b => Cbor.bytes b.bytes) :=
  (readNullable_exact (readExactBytes_exact (by decide)) (by decide) (fun b => b.bytes.length)
    fun _ => ⟨_, rfl⟩).congr (fun _ => by simp) fun _ _ => rfl

theorem readNullableText_exact (h : maximumBytes < 2 ^ 64) (maximumScalars : Nat) :
    Exact (readNullableText maximumBytes maximumScalars)
      (fun o => ∀ t, o = some t → Fits maximumBytes maximumScalars true t) (nullable Cbor.str) :=
  readNullable_exact (readText_exact h _ _) (by decide) (fun t => t.bytes.length)
    fun _ => ⟨_, rfl⟩

section Equations

variable {input rest : Bytes}

@[simp] theorem readKey_run_eq_ok {k : UInt8} {u : Unit} :
    (readKey k).run input = .ok (u, rest) ↔ input = encodeKey k ++ rest :=
  (readKey_exact k).iff

@[simp] theorem readExactMap_run_eq_ok (hn : n < 2 ^ 64) {u : Unit} :
    (readExactMap n).run input = .ok (u, rest) ↔ input = Cbor.map n ++ rest :=
  (readExactMap_exact hn).iff

@[simp] theorem readMapLen_run_eq_ok :
    readMapLen.run input = .ok (n, rest) ↔ n < 2 ^ 64 ∧ input = Cbor.map n ++ rest :=
  readMapLen_exact _ _ _

@[simp] theorem readArrayLen_run_eq_ok :
    readArrayLen.run input = .ok (n, rest) ↔ n < 2 ^ 64 ∧ input = Cbor.array n ++ rest :=
  readArrayLen_exact _ _ _

@[simp] theorem readBytes_run_eq_ok {b : Bytes} :
    readBytes.run input = .ok (b, rest) ↔ b.length < 2 ^ 64 ∧ input = Cbor.bytes b ++ rest :=
  readBytes_exact _ _ _

@[simp] theorem readExactBytes_run_eq_ok (hn : n < 2 ^ 64) {b : Block n} :
    (readExactBytes n).run input = .ok (b, rest) ↔ input = Cbor.bytes b.bytes ++ rest :=
  (readExactBytes_exact hn).iff

@[simp] theorem readBool_run_eq_ok {b : Bool} :
    readBool.run input = .ok (b, rest) ↔ input = Cbor.bool b ++ rest :=
  readBool_exact.iff

@[simp] theorem readUint_run_eq_ok {v : UInt64} :
    readUint.run input = .ok (v, rest) ↔ input = Cbor.uint v.toNat ++ rest :=
  readUint_exact.iff

@[simp] theorem readU8_run_eq_ok {v : UInt8} :
    readU8.run input = .ok (v, rest) ↔ input = Cbor.uint v.toNat ++ rest :=
  readU8_exact.iff

@[simp] theorem readU16_run_eq_ok {v : UInt16} :
    readU16.run input = .ok (v, rest) ↔ input = Cbor.uint v.toNat ++ rest :=
  readU16_exact.iff

@[simp] theorem readU32_run_eq_ok {v : UInt32} :
    readU32.run input = .ok (v, rest) ↔ input = Cbor.uint v.toNat ++ rest :=
  readU32_exact.iff

@[simp] theorem readNullableId_run_eq_ok {o : Option (Block 16)} :
    readNullableId.run input = .ok (o, rest) ↔
      input = nullable (fun b => Cbor.bytes b.bytes) o ++ rest :=
  readNullableId_exact.iff

variable {maximumBytes maximumScalars : Nat} (h : maximumBytes < 2 ^ 64)

include h

@[simp] theorem readText_run_eq_ok {requireNonEmpty : Bool} {t : Text} :
    (readText maximumBytes maximumScalars requireNonEmpty).run input = .ok (t, rest) ↔
      Fits maximumBytes maximumScalars requireNonEmpty t ∧ input = Cbor.str t ++ rest :=
  readText_exact h _ _ _ _ _

@[simp] theorem readNullableText_run_eq_ok {o : Option Text} :
    (readNullableText maximumBytes maximumScalars).run input = .ok (o, rest) ↔
      (∀ t, o = some t → Fits maximumBytes maximumScalars true t) ∧
        input = nullable Cbor.str o ++ rest :=
  readNullableText_exact h _ _ _ _

end Equations

end Decoder

end CommPlatform.L1
