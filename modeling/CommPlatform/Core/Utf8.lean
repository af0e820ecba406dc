import CommPlatform.Core.Bytes

/-!
# UTF-8 text

`scalars` decodes a byte string by the table of well-formed sequences of
the Unicode standard (no overlong forms, no surrogates, nothing above
`0x10ffff`). A `Text` is a byte string that carries the proof that it
decodes. Decoders that follow the encoding standard drop a byte-order mark
at the beginning (`Text.dropMark`).
-/
namespace CommPlatform.Core

namespace Utf8

def isContinuation (b : UInt8) : Bool := 0x80 ≤ b && b ≤ 0xbf

/-- The first two bytes of a sequence of three. -/
def startsThree (a b : UInt8) : Bool :=
  (a == 0xe0 && 0xa0 ≤ b && b ≤ 0xbf) || (0xe1 ≤ a && a ≤ 0xec && isContinuation b) ||
    (a == 0xed && 0x80 ≤ b && b ≤ 0x9f) || (0xee ≤ a && a ≤ 0xef && isContinuation b)

/-- The first two bytes of a sequence of four. -/
def startsFour (a b : UInt8) : Bool :=
  (a == 0xf0 && 0x90 ≤ b && b ≤ 0xbf) || (0xf1 ≤ a && a ≤ 0xf3 && isContinuation b) ||
    (a == 0xf4 && 0x80 ≤ b && b ≤ 0x8f)

/-- The code point of a lead byte, without its marker, and the bytes after it. -/
def codePoint (lead : Nat) (rest : List UInt8) : Nat :=
  rest.foldl (fun acc b => acc * 64 + (b.toNat - 0x80)) lead

def scalars : Bytes → Option (List Nat)
  | [] => some []
  | a :: r₁ =>
    if a < 0x80 then (scalars r₁).map (a.toNat :: ·)
    else match r₁ with
    | [] => none
    | b :: r₂ =>
      if 0xc2 ≤ a && a ≤ 0xdf && isContinuation b then
        (scalars r₂).map (codePoint (a.toNat - 0xc0) [b] :: ·)
      else match r₂ with
      | [] => none
      | c :: r₃ =>
        if startsThree a b && isContinuation c then
          (scalars r₃).map (codePoint (a.toNat - 0xe0) [b, c] :: ·)
        else match r₃ with
        | [] => none
        | d :: r₄ =>
          if startsFour a b && isContinuation c && isContinuation d then
            (scalars r₄).map (codePoint (a.toNat - 0xf0) [b, c, d] :: ·)
          else none

end Utf8

@[ext] structure Text where
  bytes : Bytes
  valid : (Utf8.scalars bytes).isSome
deriving DecidableEq

namespace Text

def ofBytes? (b : Bytes) : Option Text :=
  if h : (Utf8.scalars b).isSome then some ⟨b, h⟩ else none

def chars (t : Text) : List Nat := (Utf8.scalars t.bytes).get t.valid

theorem ofBytes?_eq_some {b : Bytes} {t : Text} : ofBytes? b = some t ↔ b = t.bytes := by
  unfold ofBytes?
  split
  · rw [Option.some.injEq, Text.ext_iff]
  · next h =>
    constructor
    · intro hsome
      cases hsome
    · rintro rfl
      exact absurd t.valid h

/-! ### The byte-order mark -/

/-- U+FEFF at the beginning of a text. -/
def mark : Bytes := [0xef, 0xbb, 0xbf]

def hasMark (t : Text) : Bool := t.bytes.take 3 == mark

theorem scalars_mark (r : Bytes) :
    Utf8.scalars (mark ++ r) = (Utf8.scalars r).map (0xfeff :: ·) := by
  rw [mark, List.cons_append, List.cons_append, List.cons_append, Utf8.scalars.eq_def]
  dsimp only
  rfl

theorem valid_of_mark {t : Text} (h : t.hasMark = true) :
    (Utf8.scalars (t.bytes.drop 3)).isSome := by
  have hvalid := t.valid
  rw [hasMark, beq_iff_eq] at h
  rwa [← List.take_append_drop 3 t.bytes, h, scalars_mark, Option.isSome_map] at hvalid

/-- The text without one mark at its beginning. -/
def dropMark (t : Text) : Text :=
  if h : t.hasMark = true then ⟨t.bytes.drop 3, valid_of_mark h⟩ else t

theorem dropMark_eq_self {t : Text} : t.dropMark = t ↔ t.hasMark = false := by
  unfold dropMark
  split
  · next h =>
    rw [h]
    refine ⟨fun heq => ?_, fun hfalse => by cases hfalse⟩
    have hlength := congrArg (fun t : Text => t.bytes.length) heq
    have hmark := congrArg List.length (beq_iff_eq.mp h)
    simp only [List.length_drop, List.length_take, mark, List.length_cons, List.length_nil]
      at hlength hmark
    omega
  · next h => exact ⟨fun _ => by simpa using h, fun _ => rfl⟩

theorem length_dropMark (t : Text) : t.dropMark.bytes.length ≤ t.bytes.length := by
  unfold dropMark
  split
  · rw [List.length_drop]
    exact Nat.sub_le _ _
  · exact Nat.le_refl _

theorem scalars_bytes (t : Text) : Utf8.scalars t.bytes = some t.chars :=
  (Option.some_get t.valid).symm

theorem length_chars_dropMark (t : Text) : t.dropMark.chars.length ≤ t.chars.length := by
  unfold dropMark
  split
  · next h =>
    have hrest := scalars_bytes ⟨t.bytes.drop 3, valid_of_mark h⟩
    have hall := scalars_bytes t
    rw [← List.take_append_drop 3 t.bytes, beq_iff_eq.mp h, scalars_mark, hrest] at hall
    rw [← Option.some.inj hall]
    exact Nat.le_succ _
  · exact Nat.le_refl _

end Text

/-- The euro sign and a smiley are two characters of three and of four bytes. -/
example : Utf8.scalars [0xe2, 0x82, 0xac, 0xf0, 0x9f, 0x98, 0x80] = some [0x20ac, 0x1f600] := by
  decide

/-- An overlong form and a surrogate are no text. -/
example : Utf8.scalars [0xc0, 0x80] = none ∧ Utf8.scalars [0xed, 0xa0, 0x80] = none := by
  decide

end CommPlatform.Core
